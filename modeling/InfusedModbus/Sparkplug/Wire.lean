import InfusedModbus.Foundation.FieldFold
import InfusedModbus.Sparkplug.Varint

/-! The wire format of protobuf messages: varints, little-endian words, byte strings behind
their length, and the tags that say which of these stands next. A message is read field by
field. What an encoder writes for a field is read as that field, whatever stands behind it,
and any well-formed field that the message does not know is passed over. -/

namespace InfusedModbus.Sparkplug

open Foundation Foundation.Outcome

inductive WireType where
  | varint | fixed64 | lengthDelimited | fixed32
  deriving DecidableEq, Repr

def WireType.bits : WireType → UInt64
  | .varint => 0
  | .fixed64 => 1
  | .lengthDelimited => 2
  | .fixed32 => 5

def WireType.ofBits (bits : UInt64) : Outcome WireError WireType :=
  match bits with
  | 0 => .ok .varint
  | 1 => .ok .fixed64
  | 2 => .ok .lengthDelimited
  | 5 => .ok .fixed32
  | _ => .err (.unsupportedWireType bits)

structure Tag where
  fieldNumber : UInt32
  wireType : WireType
  deriving DecidableEq, Repr

/-! ### Tags, byte strings and words -/

/-- The number that a tag is written as. -/
def Tag.bits (tag : Tag) : UInt64 := tag.fieldNumber.toUInt64 <<< 3 ||| tag.wireType.bits

def encodeTag (tag : Tag) : Bytes := encodeVarint tag.bits

def decodeTag (bytes : Bytes) : Outcome WireError (Tag × ℕ) := do
  let (value, consumed) ← decodeVarint bytes
  let wireType ← WireType.ofBits (value &&& 0x7)
  if 2 ^ 32 ≤ (value >>> 3).toNat then .err .fieldNumberOverflow
  else
    let fieldNumber := (value >>> 3).toUInt32
    if fieldNumber = 0 then .err .invalidFieldNumber else .ok (⟨fieldNumber, wireType⟩, consumed)

def encodeLengthDelimited (value : Bytes) : Bytes := encodeVarint (UInt64.ofNat value.length) ++ value

/-- A word has `w` bits. -/
def decodeLengthDelimited (w : ℕ) (bytes : Bytes) : Outcome WireError (Bytes × ℕ) := do
  let (length, lengthConsumed) ← decodeVarint bytes
  if 2 ^ w ≤ length.toNat then .err .lengthOverflow
  else do
    let remaining ← slice bytes lengthConsumed bytes.length
    if remaining.length < length.toNat then .err .tooShort
    else do
      let value ← slice remaining 0 length.toNat
      .ok (value, lengthConsumed + length.toNat)

/-- A number under a field number. -/
def encodeVarintField (fieldNumber : UInt32) (value : UInt64) : Bytes :=
  encodeTag ⟨fieldNumber, .varint⟩ ++ encodeVarint value

/-- A byte string, or an embedded message, under a field number. -/
def encodeBytesField (fieldNumber : UInt32) (value : Bytes) : Bytes :=
  encodeTag ⟨fieldNumber, .lengthDelimited⟩ ++ encodeLengthDelimited value

def encodeFixed32 (value : UInt32) : Bytes := (beBytes 4 value.toNat).reverse

def decodeFixed32 (bytes : Bytes) : Outcome WireError (UInt32 × ℕ) :=
  if bytes.length < 4 then .err .tooShort else .ok (UInt32.ofNat (beValue (bytes.take 4).reverse), 4)

def encodeFixed64 (value : UInt64) : Bytes := (beBytes 8 value.toNat).reverse

def decodeFixed64 (bytes : Bytes) : Outcome WireError (UInt64 × ℕ) :=
  if bytes.length < 8 then .err .tooShort else .ok (UInt64.ofNat (beValue (bytes.take 8).reverse), 8)

def skipField (w : ℕ) (wireType : WireType) (bytes : Bytes) : Outcome WireError ℕ :=
  match wireType with
  | .varint => (decodeVarint bytes).map Prod.snd
  | .fixed32 => (decodeFixed32 bytes).map Prod.snd
  | .fixed64 => (decodeFixed64 bytes).map Prod.snd
  | .lengthDelimited => (decodeLengthDelimited w bytes).map Prod.snd

/-! ### Reading back -/

theorem WireType.ofBits_bits (wireType : WireType) : WireType.ofBits wireType.bits = .ok wireType := by
  cases wireType <;> rfl

theorem WireType.bits_lt (wireType : WireType) : wireType.bits.toNat < 8 := by
  cases wireType <;> decide

theorem decodeTag_of_isVarint {tag : Tag} (hnumber : tag.fieldNumber ≠ 0) {bytes : Bytes} (h : IsVarint bytes tag.bits)
    (rest : Bytes) : decodeTag (bytes ++ rest) = .ok (tag, bytes.length) := by
  obtain ⟨fieldNumber, wireType⟩ := tag
  have hbits := wireType.bits_lt
  have hlt := fieldNumber.toNat_lt
  have hvalue : (Tag.mk fieldNumber wireType).bits.toNat = fieldNumber.toNat * 8 + wireType.bits.toNat := by
    dsimp only [Tag.bits]
    rw [UInt64.toNat_or, UInt64.toNat_shiftLeft, UInt32.toNat_toUInt64,
      show (3 : UInt64).toNat % 64 = 3 from rfl, Nat.shiftLeft_eq, Nat.mod_eq_of_lt (by omega), Nat.mul_comm,
      ← Nat.two_pow_add_eq_or_of_lt hbits, Nat.mul_comm]
  have hlow : (Tag.mk fieldNumber wireType).bits &&& 0x7 = wireType.bits := by
    rw [← UInt64.toNat_inj, UInt64.toNat_and, hvalue, show (0x7 : UInt64).toNat = 2 ^ 3 - 1 from rfl,
      Nat.and_two_pow_sub_one_eq_mod]
    omega
  have hhigh : ((Tag.mk fieldNumber wireType).bits >>> 3).toNat = fieldNumber.toNat := by
    rw [UInt64.toNat_shiftRight, hvalue, show (3 : UInt64).toNat % 64 = 3 from rfl, Nat.shiftRight_eq_div_pow]
    omega
  have hback : ((Tag.mk fieldNumber wireType).bits >>> 3).toUInt32 = fieldNumber := by
    rw [← UInt32.toNat_inj, UInt64.toNat_toUInt32, hhigh, Nat.mod_eq_of_lt hlt]
  rw [decodeTag, decodeVarint_of_isVarint h, ok_bind]
  dsimp only
  rw [hlow, WireType.ofBits_bits, ok_bind, if_neg (by omega), hback, if_neg hnumber]

/-- A byte string is read back where its length is the length of something in memory. -/
theorem decodeLengthDelimited_of_isVarint {w : ℕ} (hw : w ≤ 64) {length value : Bytes} (hvalue : value.length < 2 ^ w)
    (h : IsVarint length (UInt64.ofNat value.length)) (rest : Bytes) :
    decodeLengthDelimited w (length ++ value ++ rest) = .ok (value, (length ++ value).length) := by
  have hlength : (UInt64.ofNat value.length).toNat = value.length :=
    UInt64.toNat_ofNat_of_lt' (hvalue.trans_le (Nat.pow_le_pow_right (by omega) hw))
  rw [decodeLengthDelimited, List.append_assoc, decodeVarint_of_isVarint h, ok_bind]
  dsimp only
  rw [hlength, if_neg (by omega), slice_of_le (by simp) le_rfl, List.drop_left, ok_bind,
    List.take_of_length_le (by simp), if_neg (by simp), slice_append _ _ rfl, ok_bind, List.length_append]

theorem decodeLengthDelimited_encode {w : ℕ} (hw : w ≤ 64) {value : Bytes} (h : value.length < 2 ^ w) (rest : Bytes) :
    decodeLengthDelimited w (encodeLengthDelimited value ++ rest) =
      .ok (value, (encodeLengthDelimited value).length) :=
  decodeLengthDelimited_of_isVarint hw h (isVarint_encode _) rest

theorem decodeFixed32_of_length {bytes : Bytes} (h : bytes.length = 4) (rest : Bytes) :
    decodeFixed32 (bytes ++ rest) = .ok (UInt32.ofNat (beValue bytes.reverse), bytes.length) := by
  rw [decodeFixed32, if_neg (by simp [h]), List.take_left' h, h]

theorem decodeFixed32_encode (v : UInt32) (rest : Bytes) :
    decodeFixed32 (encodeFixed32 v ++ rest) = .ok (v, (encodeFixed32 v).length) := by
  rw [decodeFixed32_of_length (by simp [encodeFixed32]), encodeFixed32, List.reverse_reverse, beValue_beBytes,
    show 256 ^ 4 = 2 ^ 32 from rfl, Nat.mod_eq_of_lt v.toNat_lt, UInt32.ofNat_toNat]

theorem decodeFixed64_of_length {bytes : Bytes} (h : bytes.length = 8) (rest : Bytes) :
    decodeFixed64 (bytes ++ rest) = .ok (UInt64.ofNat (beValue bytes.reverse), bytes.length) := by
  rw [decodeFixed64, if_neg (by simp [h]), List.take_left' h, h]

theorem decodeFixed64_encode (v : UInt64) (rest : Bytes) :
    decodeFixed64 (encodeFixed64 v ++ rest) = .ok (v, (encodeFixed64 v).length) := by
  rw [decodeFixed64_of_length (by simp [encodeFixed64]), encodeFixed64, List.reverse_reverse, beValue_beBytes,
    show 256 ^ 8 = 2 ^ 64 from rfl, Nat.mod_eq_of_lt v.toNat_lt, UInt64.ofNat_toNat]

/-! ### Fields -/

theorem length_lt_encodeBytesField (fieldNumber : UInt32) (value : Bytes) :
    value.length < (encodeBytesField fieldNumber value).length := by
  have hlength := List.length_pos_of_ne_nil (isVarint_encode (UInt64.ofNat value.length)).spells.ne_nil
  rw [encodeBytesField, encodeLengthDelimited, List.length_append, List.length_append]
  omega

/-- The bytes of any value of a wire type. -/
inductive IsValue : WireType → Bytes → Prop where
  | varint {bytes : Bytes} {v : UInt64} (h : IsVarint bytes v) : IsValue .varint bytes
  | fixed32 {bytes : Bytes} (h : bytes.length = 4) : IsValue .fixed32 bytes
  | fixed64 {bytes : Bytes} (h : bytes.length = 8) : IsValue .fixed64 bytes
  | lengthDelimited {length value : Bytes} (h : IsVarint length (UInt64.ofNat value.length)) :
      IsValue .lengthDelimited (length ++ value)

/-- A well-formed field whose number is none of those a message knows. -/
def IsUnknownField (known : List UInt32) (bytes : Bytes) : Prop :=
  ∃ (tag : Tag) (tagBytes valueBytes : Bytes), bytes = tagBytes ++ valueBytes ∧ tag.fieldNumber ≠ 0 ∧
    tag.fieldNumber ∉ known ∧ IsVarint tagBytes tag.bits ∧ IsValue tag.wireType valueBytes

/-- A value is skipped exactly. -/
theorem skipField_of_isValue {w : ℕ} (hw : w ≤ 64) {wireType : WireType} {bytes : Bytes} (h : IsValue wireType bytes)
    (hlength : bytes.length < 2 ^ w) (rest : Bytes) : skipField w wireType (bytes ++ rest) = .ok bytes.length := by
  cases h with
  | varint h => rw [skipField, decodeVarint_of_isVarint h, map_ok]
  | fixed32 h => rw [skipField, decodeFixed32_of_length h, map_ok]
  | fixed64 h => rw [skipField, decodeFixed64_of_length h, map_ok]
  | lengthDelimited h =>
    rw [List.length_append] at hlength
    rw [skipField, decodeLengthDelimited_of_isVarint hw (by omega) h, map_ok]

/-! ### Any bytes -/

theorem decodeTag_ne_panic (bytes : Bytes) : decodeTag bytes ≠ .panic := by
  refine bind_ne_panic (decodeVarint_ne_panic bytes) fun p _ => bind_ne_panic ?_ fun wireType _ => ?_
  · unfold WireType.ofBits
    split <;> simp
  · dsimp only
    split
    · simp
    · split <;> simp

theorem decodeTag_eq_ok {bytes : Bytes} {tag : Tag} {n : ℕ} (h : decodeTag bytes = .ok (tag, n)) :
    0 < n ∧ n ≤ bytes.length := by
  obtain ⟨⟨value, consumed⟩, hvarint, h⟩ := bind_eq_ok.mp h
  obtain ⟨wireType, -, h⟩ := bind_eq_ok.mp h
  dsimp only at h
  split at h
  · cases h
  · split at h
    · cases h
    · obtain ⟨-, rfl⟩ := Prod.mk.inj (ok.inj h)
      exact decodeVarint_eq_ok hvarint

/-- The announced length is compared with what is left before it is used. -/
theorem decodeLengthDelimited_ne_panic (w : ℕ) (bytes : Bytes) : decodeLengthDelimited w bytes ≠ .panic := by
  refine bind_ne_panic (decodeVarint_ne_panic bytes) fun p hp => ?_
  have hconsumed : p.2 ≤ bytes.length := (decodeVarint_eq_ok hp).2
  dsimp only
  split
  · simp
  · rw [slice_of_le hconsumed le_rfl, ok_bind]
    split
    · simp
    · next hlt =>
      rw [slice_of_le (Nat.zero_le _) (by omega)]
      simp

theorem decodeLengthDelimited_eq_ok {w : ℕ} {bytes value : Bytes} {n : ℕ}
    (h : decodeLengthDelimited w bytes = .ok (value, n)) : n ≤ bytes.length := by
  obtain ⟨⟨length, lengthConsumed⟩, hlength, h⟩ := bind_eq_ok.mp h
  have hconsumed := (decodeVarint_eq_ok hlength).2
  dsimp only at h
  split at h
  · cases h
  · rw [slice_of_le hconsumed le_rfl, ok_bind] at h
    split at h
    · cases h
    · next hlt =>
      obtain ⟨value, -, h⟩ := bind_eq_ok.mp h
      obtain ⟨-, rfl⟩ := Prod.mk.inj (ok.inj h)
      simp only [List.length_take, List.length_drop] at hlt
      omega

theorem decodeFixed32_ne_panic (bytes : Bytes) : decodeFixed32 bytes ≠ .panic := by
  unfold decodeFixed32
  split <;> simp

theorem decodeFixed64_ne_panic (bytes : Bytes) : decodeFixed64 bytes ≠ .panic := by
  unfold decodeFixed64
  split <;> simp

theorem decodeFixed32_eq_ok {bytes : Bytes} {v : UInt32} {n : ℕ} (h : decodeFixed32 bytes = .ok (v, n)) :
    n ≤ bytes.length := by
  unfold decodeFixed32 at h
  split at h
  · cases h
  · obtain ⟨-, rfl⟩ := Prod.mk.inj (ok.inj h)
    omega

theorem decodeFixed64_eq_ok {bytes : Bytes} {v : UInt64} {n : ℕ} (h : decodeFixed64 bytes = .ok (v, n)) :
    n ≤ bytes.length := by
  unfold decodeFixed64 at h
  split at h
  · cases h
  · obtain ⟨-, rfl⟩ := Prod.mk.inj (ok.inj h)
    omega

/-! ### Messages -/

section Message

variable {ε σ α : Type} (ofWire : WireError → ε)

/-- What a decoder reads, put to use; an error of the wire is one of the message. -/
def takeField (decoded : Outcome WireError (α × ℕ)) (use : α → Outcome ε σ) : Outcome ε (σ × ℕ) := do
  let (value, consumed) ← decoded.mapErr ofWire
  let s ← use value
  .ok (s, consumed)

/-- A field that the message does not know leaves everything as it is. -/
def passField (w : ℕ) (wireType : WireType) (bytes : Bytes) (s : σ) : Outcome ε (σ × ℕ) := do
  let consumed ← (skipField w wireType bytes).mapErr ofWire
  .ok (s, consumed)

/-- A turn of a message decoder: a tag, and what the message makes of the field behind it. -/
def messageReader (field : σ → Tag → Bytes → Outcome ε (σ × ℕ)) : FieldReader ε σ UInt8 where
  read s bytes := do
    let (tag, tagLen) ← (decodeTag bytes).mapErr ofWire
    let rest ← slice bytes tagLen bytes.length
    let (s', consumed) ← field s tag rest
    .ok (s', tagLen + consumed)
  forward h := by
    obtain ⟨⟨tag, tagLen⟩, htag, h⟩ := bind_eq_ok.mp h
    obtain ⟨rest, -, h⟩ := bind_eq_ok.mp h
    obtain ⟨⟨s', consumed⟩, -, h⟩ := bind_eq_ok.mp h
    obtain ⟨-, rfl⟩ := Prod.mk.inj (ok.inj h)
    have := (decodeTag_eq_ok (mapErr_eq_ok.mp htag)).1
    omega

variable {ofWire} (field : σ → Tag → Bytes → Outcome ε (σ × ℕ))

/-- A tag and what the message makes of the bytes behind it. -/
theorem readsAs_of_tag {tag : Tag} (hnumber : tag.fieldNumber ≠ 0) {tagBytes valueBytes : Bytes}
    (htag : IsVarint tagBytes tag.bits) {effect : σ → Outcome ε σ}
    (hfield : ∀ s rest, field s tag (valueBytes ++ rest) = (effect s).map fun s' => (s', valueBytes.length)) :
    ReadsAs (messageReader ofWire field) (tagBytes ++ valueBytes) effect where
  ne_nil := List.append_ne_nil_of_left_ne_nil htag.spells.ne_nil valueBytes
  read_append s rest := by
    rw [List.append_assoc, messageReader]
    dsimp only
    rw [decodeTag_of_isVarint hnumber htag, mapErr_ok, ok_bind]
    dsimp only
    rw [slice_of_le (by simp) le_rfl, List.drop_left, List.take_of_length_le (by simp), ok_bind, hfield]
    cases effect s with
    | ok s' => rw [map_ok, ok_bind, map_ok, List.length_append]
    | err e => rfl
    | panic => rfl

/-- What an encoder writes for a field is read as that field. -/
theorem readsAs_field {tag : Tag} (hnumber : tag.fieldNumber ≠ 0) {decode : Bytes → Outcome WireError (α × ℕ)}
    {encoded : Bytes} {value : α} (hdecode : ∀ rest, decode (encoded ++ rest) = .ok (value, encoded.length))
    (use : σ → α → Outcome ε σ) (hfield : ∀ s rest, field s tag rest = takeField ofWire (decode rest) (use s)) :
    ReadsAs (messageReader ofWire field) (encodeTag tag ++ encoded) fun s => use s value := by
  refine readsAs_of_tag field hnumber (isVarint_encode tag.bits) fun s rest => ?_
  rw [hfield, takeField, hdecode, mapErr_ok, ok_bind]
  dsimp only
  cases use s value <;> rfl

theorem readsAs_varint (fieldNumber : UInt32) (hnumber : fieldNumber ≠ 0) (value : UInt64) (use : σ → UInt64 → Outcome ε σ)
    (hfield : ∀ s rest, field s ⟨fieldNumber, .varint⟩ rest = takeField ofWire (decodeVarint rest) (use s)) :
    ReadsAs (messageReader ofWire field) (encodeVarintField fieldNumber value) fun s => use s value :=
  readsAs_field field hnumber (decodeVarint_encode value) use hfield

theorem readsAs_bytes {w : ℕ} (hw : w ≤ 64) {fieldNumber : UInt32} (hnumber : fieldNumber ≠ 0) {value : Bytes}
    (hlength : (encodeBytesField fieldNumber value).length < 2 ^ w) (use : σ → Bytes → Outcome ε σ)
    (hfield : ∀ s rest, field s ⟨fieldNumber, .lengthDelimited⟩ rest =
      takeField ofWire (decodeLengthDelimited w rest) (use s)) :
    ReadsAs (messageReader ofWire field) (encodeBytesField fieldNumber value) fun s => use s value :=
  readsAs_field field hnumber (decodeLengthDelimited_encode hw ((length_lt_encodeBytesField fieldNumber value).trans hlength))
    use hfield

/-- A field that the message passes over leaves everything as it is. -/
theorem readsAs_unknown {w : ℕ} (hw : w ≤ 64) {known : List UInt32} {bytes : Bytes} (h : IsUnknownField known bytes)
    (hlength : bytes.length < 2 ^ w)
    (hfield : ∀ s tag rest, tag.fieldNumber ∉ known → field s tag rest = passField ofWire w tag.wireType rest s) :
    ReadsAs (messageReader ofWire field) bytes .ok := by
  obtain ⟨tag, tagBytes, valueBytes, rfl, hnumber, hunknown, htag, hvalue⟩ := h
  rw [List.length_append] at hlength
  refine readsAs_of_tag field hnumber htag fun s rest => ?_
  rw [hfield s tag _ hunknown, passField, skipField_of_isValue hw hvalue (by omega)]
  rfl

/-! ### Turns on any bytes -/

omit field in
theorem takeField_eq_ok {decoded : Outcome WireError (α × ℕ)} {use : α → Outcome ε σ} {s : σ} {n : ℕ}
    (h : takeField ofWire decoded use = .ok (s, n)) : ∃ value, use value = .ok s := by
  obtain ⟨⟨value, consumed⟩, -, h⟩ := bind_eq_ok.mp h
  obtain ⟨s', hs', h⟩ := bind_eq_ok.mp h
  obtain ⟨rfl, -⟩ := Prod.mk.inj (ok.inj h)
  exact ⟨value, hs'⟩

omit field in
theorem passField_eq_ok {w : ℕ} {wireType : WireType} {rest : Bytes} {s s' : σ} {n : ℕ}
    (h : passField ofWire w wireType rest s = .ok (s', n)) : s' = s := by
  obtain ⟨consumed, -, h⟩ := bind_eq_ok.mp h
  exact (Prod.mk.inj (ok.inj h)).1.symm

theorem messageReader_eq_ok {s s' : σ} {bytes : Bytes} {n : ℕ}
    (h : (messageReader ofWire field).read s bytes = .ok (s', n)) :
    ∃ tag rest consumed, field s tag rest = .ok (s', consumed) := by
  obtain ⟨⟨tag, tagLen⟩, -, h⟩ := bind_eq_ok.mp h
  obtain ⟨rest, -, h⟩ := bind_eq_ok.mp h
  obtain ⟨⟨s'', consumed⟩, hfield, h⟩ := bind_eq_ok.mp h
  obtain ⟨rfl, -⟩ := Prod.mk.inj (ok.inj h)
  exact ⟨tag, rest, consumed, hfield⟩

/-- A turn that does not panic and takes no more than there is. -/
structure Within (size : ℕ) (turn : Outcome ε (σ × ℕ)) : Prop where
  ne_panic : turn ≠ .panic
  le : ∀ {s n}, turn = .ok (s, n) → n ≤ size

theorem within_takeField {size : ℕ} {decoded : Outcome WireError (α × ℕ)} (hne : decoded ≠ .panic)
    (hle : ∀ {value n}, decoded = .ok (value, n) → n ≤ size) {use : α → Outcome ε σ}
    (huse : ∀ value, use value ≠ .panic) : Within size (takeField ofWire decoded use) where
  ne_panic := bind_ne_panic (mapErr_ne_panic.mpr hne) fun p _ => bind_ne_panic (huse p.1) fun s _ => by simp
  le h := by
    obtain ⟨⟨value, consumed⟩, hdecoded, h⟩ := bind_eq_ok.mp h
    obtain ⟨s, -, h⟩ := bind_eq_ok.mp h
    obtain ⟨-, rfl⟩ := Prod.mk.inj (ok.inj h)
    exact hle (mapErr_eq_ok.mp hdecoded)

section Decoders

variable {use : UInt64 → Outcome ε σ} {use32 : UInt32 → Outcome ε σ} {useBytes : Bytes → Outcome ε σ}

theorem within_varint (rest : Bytes) (huse : ∀ value, use value ≠ .panic) :
    Within rest.length (takeField ofWire (decodeVarint rest) use) :=
  within_takeField (decodeVarint_ne_panic rest) (fun h => (decodeVarint_eq_ok h).2) huse

theorem within_fixed32 (rest : Bytes) (huse : ∀ value, use32 value ≠ .panic) :
    Within rest.length (takeField ofWire (decodeFixed32 rest) use32) :=
  within_takeField (decodeFixed32_ne_panic rest) decodeFixed32_eq_ok huse

theorem within_fixed64 (rest : Bytes) (huse : ∀ value, use value ≠ .panic) :
    Within rest.length (takeField ofWire (decodeFixed64 rest) use) :=
  within_takeField (decodeFixed64_ne_panic rest) decodeFixed64_eq_ok huse

theorem within_bytes (w : ℕ) (rest : Bytes) (huse : ∀ value, useBytes value ≠ .panic) :
    Within rest.length (takeField ofWire (decodeLengthDelimited w rest) useBytes) :=
  within_takeField (decodeLengthDelimited_ne_panic w rest) decodeLengthDelimited_eq_ok huse

end Decoders

theorem within_passField (w : ℕ) (wireType : WireType) (rest : Bytes) (s : σ) :
    Within rest.length (passField ofWire w wireType rest s) where
  ne_panic := by
    refine bind_ne_panic (mapErr_ne_panic.mpr ?_) fun n _ => by simp
    cases wireType with
    | varint => exact map_ne_panic.mpr (decodeVarint_ne_panic rest)
    | fixed32 => exact map_ne_panic.mpr (decodeFixed32_ne_panic rest)
    | fixed64 => exact map_ne_panic.mpr (decodeFixed64_ne_panic rest)
    | lengthDelimited => exact map_ne_panic.mpr (decodeLengthDelimited_ne_panic w rest)
  le h := by
    obtain ⟨n, hskip, h⟩ := bind_eq_ok.mp h
    obtain ⟨-, rfl⟩ := Prod.mk.inj (ok.inj h)
    replace hskip := mapErr_eq_ok.mp hskip
    cases wireType with
    | varint =>
      obtain ⟨p, hdecode, rfl⟩ := map_eq_ok.mp hskip
      exact (decodeVarint_eq_ok hdecode).2
    | fixed32 =>
      obtain ⟨p, hdecode, rfl⟩ := map_eq_ok.mp hskip
      exact decodeFixed32_eq_ok hdecode
    | fixed64 =>
      obtain ⟨p, hdecode, rfl⟩ := map_eq_ok.mp hskip
      exact decodeFixed64_eq_ok hdecode
    | lengthDelimited =>
      obtain ⟨p, hdecode, rfl⟩ := map_eq_ok.mp hskip
      exact decodeLengthDelimited_eq_ok hdecode

/-- Where the field does, the turn stays within what is left. -/
theorem within_messageReader (hfield : ∀ s tag rest, Within rest.length (field s tag rest)) (s : σ) (bytes : Bytes) :
    Within bytes.length ((messageReader ofWire field).read s bytes) where
  ne_panic := by
    refine bind_ne_panic (mapErr_ne_panic.mpr (decodeTag_ne_panic bytes)) fun p hp => ?_
    have htag : p.2 ≤ bytes.length := (decodeTag_eq_ok (mapErr_eq_ok.mp hp)).2
    dsimp only
    rw [slice_of_le htag le_rfl, ok_bind]
    exact bind_ne_panic (hfield s p.1 _).ne_panic fun q _ => by simp
  le h := by
    obtain ⟨⟨tag, tagLen⟩, htag, h⟩ := bind_eq_ok.mp h
    have hle : tagLen ≤ bytes.length := (decodeTag_eq_ok (mapErr_eq_ok.mp htag)).2
    dsimp only at h
    rw [slice_of_le hle le_rfl, ok_bind] at h
    obtain ⟨⟨s', consumed⟩, hread, h⟩ := bind_eq_ok.mp h
    obtain ⟨-, rfl⟩ := Prod.mk.inj (ok.inj h)
    have hconsumed := (hfield s tag _).le hread
    simp only [List.length_take, List.length_drop] at hconsumed
    omega

end Message

end InfusedModbus.Sparkplug
