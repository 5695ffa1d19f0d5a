import InfusedModbus.Foundation.LossyText
import InfusedModbus.Sparkplug.Wire

/-! Scalar values on the wire. Metrics, properties and table cells carry the same seven kinds
of scalars, each under field numbers of its own. -/

namespace InfusedModbus.Sparkplug

open Foundation Foundation.Outcome

inductive Scalar where
  | int (value : UInt32)
  | long (value : UInt64)
  | float (bits : UInt32)
  | double (bits : UInt64)
  | boolean (value : Bool)
  | string (value : String)
  | bytes (value : Bytes)
  deriving DecidableEq, Repr

/-- The field numbers of the kinds. -/
structure ScalarFields where
  int : UInt32
  long : UInt32
  float : UInt32
  double : UInt32
  boolean : UInt32
  string : UInt32
  bytes : UInt32
  distinct : [bytes, string, boolean, double, float, long, int, 0].Nodup

/-- All of them. -/
def ScalarFields.numbers (fields : ScalarFields) : List UInt32 :=
  [fields.int, fields.long, fields.float, fields.double, fields.boolean, fields.string, fields.bytes]

def encodeScalar (fields : ScalarFields) : Scalar → Bytes
  | .int value => encodeVarintField fields.int value.toUInt64
  | .long value => encodeVarintField fields.long value
  | .float bits => encodeTag ⟨fields.float, .fixed32⟩ ++ encodeFixed32 bits
  | .double bits => encodeTag ⟨fields.double, .fixed64⟩ ++ encodeFixed64 bits
  | .boolean value => encodeVarintField fields.boolean (if value then 1 else 0)
  | .string value => encodeBytesField fields.string (asBytes value)
  | .bytes value => encodeBytesField fields.bytes value

section Read

variable {ε σ : Type} (ofWire : WireError → ε) (w : ℕ) (fields : ScalarFields)

/-- The arms of a message decoder for the kinds of scalars, and what it does with any other
field. The wire type is not looked at. -/
def scalarField (tag : Tag) (rest : Bytes) (other : Outcome ε (σ × ℕ)) (use : Scalar → σ) : Outcome ε (σ × ℕ) :=
  if tag.fieldNumber = fields.int then takeField ofWire (decodeVarint rest) fun raw => .ok (use (.int raw.toUInt32))
  else if tag.fieldNumber = fields.long then takeField ofWire (decodeVarint rest) fun raw => .ok (use (.long raw))
  else if tag.fieldNumber = fields.float then takeField ofWire (decodeFixed32 rest) fun raw => .ok (use (.float raw))
  else if tag.fieldNumber = fields.double then takeField ofWire (decodeFixed64 rest) fun raw => .ok (use (.double raw))
  else if tag.fieldNumber = fields.boolean then
    takeField ofWire (decodeVarint rest) fun raw => .ok (use (.boolean (raw != 0)))
  else if tag.fieldNumber = fields.string then
    takeField ofWire (decodeLengthDelimited w rest) fun raw => .ok (use (.string (fromUtf8Lossy raw)))
  else if tag.fieldNumber = fields.bytes then
    takeField ofWire (decodeLengthDelimited w rest) fun raw => .ok (use (.bytes raw))
  else other

/-- The number of the kind of a scalar. -/
def Scalar.fieldNumber : Scalar → UInt32
  | .int _ => fields.int
  | .long _ => fields.long
  | .float _ => fields.float
  | .double _ => fields.double
  | .boolean _ => fields.boolean
  | .string _ => fields.string
  | .bytes _ => fields.bytes

variable {ofWire} {w} {fields}

theorem Scalar.fieldNumber_mem (value : Scalar) : value.fieldNumber fields ∈ fields.numbers := by
  cases value <;> simp [Scalar.fieldNumber, ScalarFields.numbers]

theorem toUInt32_toUInt64 (v : UInt32) : v.toUInt64.toUInt32 = v := by
  rw [← UInt32.toNat_inj, UInt64.toNat_toUInt32, UInt32.toNat_toUInt64, Nat.mod_eq_of_lt v.toNat_lt]

/-- What is written for a scalar is read as that scalar. -/
theorem readsAs_scalar (field : σ → Tag → Bytes → Outcome ε (σ × ℕ)) (hw : w ≤ 64) {value : Scalar} (hlength : (encodeScalar fields value).length < 2 ^ w)
    (use : σ → Scalar → σ) {other : σ → Tag → Bytes → Outcome ε (σ × ℕ)}
    (hfield : ∀ s tag rest, tag.fieldNumber = value.fieldNumber fields →
      field s tag rest = scalarField ofWire w fields tag rest (other s tag rest) (use s)) :
    ReadsAs (messageReader ofWire field) (encodeScalar fields value) fun s => .ok (use s value) := by
  have hdistinct := fields.distinct
  simp only [List.nodup_cons, List.mem_cons, List.not_mem_nil, or_false, not_or, not_false_eq_true, List.nodup_nil,
    and_true] at hdistinct
  obtain ⟨hbytes, hstring, hboolean, hdouble, hfloat, hlong, hint⟩ := hdistinct
  cases value with
  | int value =>
    have h : ReadsAs (messageReader ofWire field) (encodeScalar fields (.int value))
        fun s => .ok (use s (.int value.toUInt64.toUInt32)) :=
      readsAs_field field hint (decodeVarint_encode value.toUInt64) (fun s raw => .ok (use s (.int raw.toUInt32)))
        fun s rest => by rw [hfield s ⟨fields.int, .varint⟩ rest rfl, scalarField, if_pos rfl]
    rwa [toUInt32_toUInt64] at h
  | long value =>
    exact readsAs_field field hlong.2 (decodeVarint_encode value) (fun s raw => .ok (use s (.long raw))) fun s rest => by
      rw [hfield s ⟨fields.long, .varint⟩ rest rfl]
      simp [scalarField, hlong]
  | float bits =>
    exact readsAs_field field hfloat.2.2 (decodeFixed32_encode bits) (fun s raw => .ok (use s (.float raw))) fun s rest => by
      rw [hfield s ⟨fields.float, .fixed32⟩ rest rfl]
      simp [scalarField, hfloat]
  | double bits =>
    exact readsAs_field field hdouble.2.2.2 (decodeFixed64_encode bits) (fun s raw => .ok (use s (.double raw))) fun s rest => by
      rw [hfield s ⟨fields.double, .fixed64⟩ rest rfl]
      simp [scalarField, hdouble]
  | boolean value =>
    have h : ReadsAs (messageReader ofWire field) (encodeScalar fields (.boolean value))
        fun s => .ok (use s (.boolean ((if value then 1 else 0 : UInt64) != 0))) :=
      readsAs_field field hboolean.2.2.2.2 (decodeVarint_encode _) (fun s raw => .ok (use s (.boolean (raw != 0))))
        fun s rest => by
          rw [hfield s ⟨fields.boolean, .varint⟩ rest rfl]
          simp [scalarField, hboolean]
    cases value <;> exact h
  | string value =>
    have h : ReadsAs (messageReader ofWire field) (encodeScalar fields (.string value))
        fun s => .ok (use s (.string (fromUtf8Lossy (asBytes value)))) :=
      readsAs_bytes field hw hstring.2.2.2.2.2 hlength (fun s raw => .ok (use s (.string (fromUtf8Lossy raw))))
        fun s rest => by
          rw [hfield s ⟨fields.string, .lengthDelimited⟩ rest rfl]
          simp [scalarField, hstring]
    rwa [fromUtf8Lossy_asBytes] at h
  | bytes value =>
    exact readsAs_bytes field hw hbytes.2.2.2.2.2.2 hlength (fun s raw => .ok (use s (.bytes raw))) fun s rest => by
      rw [hfield s ⟨fields.bytes, .lengthDelimited⟩ rest rfl]
      simp [scalarField, hbytes]

/-- Any other field is none of theirs. -/
theorem scalarField_other {tag : Tag} (h : tag.fieldNumber ∉ fields.numbers) (rest : Bytes) (other : Outcome ε (σ × ℕ))
    (use : Scalar → σ) : scalarField ofWire w fields tag rest other use = other := by
  simp only [ScalarFields.numbers, List.mem_cons, List.not_mem_nil, or_false, not_or] at h
  simp only [scalarField, h, if_false]

/-- A turn reads a scalar, or is the other. -/
theorem scalarField_eq_ok {tag : Tag} {rest : Bytes} {other : Outcome ε (σ × ℕ)} {use : Scalar → σ} {s : σ} {n : ℕ}
    (h : scalarField ofWire w fields tag rest other use = .ok (s, n)) : (∃ value, s = use value) ∨ other = .ok (s, n) := by
  unfold scalarField at h
  repeat' split at h
  all_goals first
    | exact .inr h
    | obtain ⟨value, hvalue⟩ := takeField_eq_ok h
      exact .inl ⟨_, (ok.inj hvalue).symm⟩

theorem within_scalarField {tag : Tag} {rest : Bytes} {other : Outcome ε (σ × ℕ)} (hother : Within rest.length other)
    (use : Scalar → σ) : Within rest.length (scalarField ofWire w fields tag rest other use) := by
  unfold scalarField
  repeat' split
  · exact within_varint rest (by simp)
  · exact within_varint rest (by simp)
  · exact within_fixed32 rest (by simp)
  · exact within_fixed64 rest (by simp)
  · exact within_varint rest (by simp)
  · exact within_bytes w rest (by simp)
  · exact within_bytes w rest (by simp)
  · exact hother

end Read

end InfusedModbus.Sparkplug
