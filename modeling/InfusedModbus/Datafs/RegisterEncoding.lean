import InfusedModbus.Datafs.RegisterValue

/-! Register values as wire words and back. A value's natural bytes are big-endian;
a memory layout reverses the words, swaps the bytes in each word, or both, and is
its own inverse. The two directions are inverse to each other except that an 8-bit
register keeps only the low byte of its word. -/

namespace InfusedModbus.Datafs

open Foundation Protocol

def swapBytes (word : UInt16) : UInt16 := u16FromBeBytes (loByte word) (hiByte word)

@[simp] theorem swapBytes_swapBytes (word : UInt16) : swapBytes (swapBytes word) = word := by
  simp [swapBytes]

/-- Reverse the words, swap the bytes of each, or both. -/
def applyMemLayout (words : List UInt16) : MemLayout → List UInt16
  | .abcd => words
  | .badc => words.map swapBytes
  | .cdab => words.reverse
  | .dcba => (words.map swapBytes).reverse

@[simp] theorem length_applyMemLayout (words : List UInt16) (memLayout : MemLayout) :
    (applyMemLayout words memLayout).length = words.length := by
  cases memLayout <;> simp [applyMemLayout]

@[simp] theorem applyMemLayout_applyMemLayout (words : List UInt16) (memLayout : MemLayout) :
    applyMemLayout (applyMemLayout words memLayout) memLayout = words := by
  have hswap : swapBytes ∘ swapBytes = id := funext swapBytes_swapBytes
  cases memLayout <;> simp [applyMemLayout, hswap]

def wordsFromNaturalBytes (bytes : Bytes) (memLayout : MemLayout) : List UInt16 :=
  applyMemLayout (wordsOfBytes bytes) memLayout

def naturalBytesFromWords (words : List UInt16) (memLayout : MemLayout) : Bytes :=
  bytesOfWords (applyMemLayout words memLayout)

@[simp] theorem length_wordsFromNaturalBytes (bytes : Bytes) (memLayout : MemLayout) :
    (wordsFromNaturalBytes bytes memLayout).length = bytes.length / 2 := by
  rw [wordsFromNaturalBytes, length_applyMemLayout, length_wordsOfBytes]

theorem naturalBytes_wordsFromNaturalBytes {bytes : Bytes} (h : bytes.length % 2 = 0)
    (memLayout : MemLayout) :
    naturalBytesFromWords (wordsFromNaturalBytes bytes memLayout) memLayout = bytes := by
  rw [naturalBytesFromWords, wordsFromNaturalBytes, applyMemLayout_applyMemLayout,
    bytesOfWords_wordsOfBytes h]

theorem wordsFromNaturalBytes_naturalBytes (words : List UInt16) (memLayout : MemLayout) :
    wordsFromNaturalBytes (naturalBytesFromWords words memLayout) memLayout = words := by
  rw [wordsFromNaturalBytes, naturalBytesFromWords, wordsOfBytes_bytesOfWords,
    applyMemLayout_applyMemLayout]

@[simp] theorem length_naturalBytesFromWords (words : List UInt16) (memLayout : MemLayout) :
    (naturalBytesFromWords words memLayout).length = 2 * words.length := by
  rw [naturalBytesFromWords, length_bytesOfWords, length_applyMemLayout]

/-- The words of a value in wire order. -/
def registerValueToWords (value : RegisterValue) (memLayout : MemLayout) : List UInt16 :=
  match value with
  | .u8 value => [value.toUInt16]
  | .i8 value => [value.toInt16.toUInt16]
  | .u16 value => [value]
  | .i16 value => [value.toUInt16]
  | .u24 value | .u32 value => wordsFromNaturalBytes (beBytes 4 value.toNat) memLayout
  | .i24 value | .i32 value => wordsFromNaturalBytes (beBytes 4 value.toUInt32.toNat) memLayout
  | .f32 bits => wordsFromNaturalBytes (beBytes 4 bits.toNat) memLayout
  | .u64 value => wordsFromNaturalBytes (beBytes 8 value.toNat) memLayout
  | .i64 value => wordsFromNaturalBytes (beBytes 8 value.toUInt64.toNat) memLayout
  | .f64 bits => wordsFromNaturalBytes (beBytes 8 bits.toNat) memLayout

/-- The value of a type that the words spell; none when they are too few or too many. -/
def registerValueFromWords (dataType : DataType) (words : List UInt16) (memLayout : MemLayout) :
    Option RegisterValue :=
  if words.length ≠ dataType.registerCount then none
  else
    let word := words.headD 0
    let natural := beValue (naturalBytesFromWords words memLayout)
    some (match dataType with
      | .u8 => .u8 word.toUInt8
      | .i8 => .i8 word.toUInt8.toInt8
      | .u16 => .u16 word
      | .i16 => .i16 word.toInt16
      | .u24 => .u24 (UInt32.ofNat natural)
      | .i24 => .i24 (UInt32.ofNat natural).toInt32
      | .u32 => .u32 (UInt32.ofNat natural)
      | .i32 => .i32 (UInt32.ofNat natural).toInt32
      | .f32 => .f32 (UInt32.ofNat natural)
      | .u64 => .u64 (UInt64.ofNat natural)
      | .i64 => .i64 (UInt64.ofNat natural).toInt64
      | .f64 => .f64 (UInt64.ofNat natural))

/-! ### Round trips -/

@[simp] theorem length_registerValueToWords (value : RegisterValue) (memLayout : MemLayout) :
    (registerValueToWords value memLayout).length = value.dataType.registerCount := by
  cases value <;> simp [registerValueToWords, RegisterValue.dataType, DataType.registerCount]

theorem isSome_registerValueFromWords {dataType : DataType} {words : List UInt16}
    (h : words.length = dataType.registerCount) (memLayout : MemLayout) :
    ∃ value, registerValueFromWords dataType words memLayout = some value := by
  simp [registerValueFromWords, h]

theorem length_of_registerValueFromWords {dataType : DataType} {words : List UInt16} {memLayout : MemLayout}
    {value : RegisterValue} (h : registerValueFromWords dataType words memLayout = some value) :
    words.length = dataType.registerCount := by
  by_contra hne
  simp [registerValueFromWords, hne] at h

/-- The value has the type it was decoded as. -/
theorem dataType_of_registerValueFromWords {dataType : DataType} {words : List UInt16}
    {memLayout : MemLayout} {value : RegisterValue}
    (h : registerValueFromWords dataType words memLayout = some value) : value.dataType = dataType := by
  have hlen := length_of_registerValueFromWords h
  simp only [registerValueFromWords, hlen, ne_eq, not_true_eq_false, if_false, Option.some.injEq] at h
  subst h
  cases dataType <;> rfl

theorem ofNat_natural32 (x : UInt32) (memLayout : MemLayout) :
    UInt32.ofNat (beValue (naturalBytesFromWords (wordsFromNaturalBytes (beBytes 4 x.toNat) memLayout) memLayout)) =
      x := by
  rw [naturalBytes_wordsFromNaturalBytes (by simp), beValue_beBytes,
    Nat.mod_eq_of_lt (show x.toNat < 256 ^ 4 from x.toNat_lt), UInt32.ofNat_toNat]

theorem ofNat_natural64 (x : UInt64) (memLayout : MemLayout) :
    UInt64.ofNat (beValue (naturalBytesFromWords (wordsFromNaturalBytes (beBytes 8 x.toNat) memLayout) memLayout)) =
      x := by
  rw [naturalBytes_wordsFromNaturalBytes (by simp), beValue_beBytes,
    Nat.mod_eq_of_lt (show x.toNat < 256 ^ 8 from x.toNat_lt), UInt64.ofNat_toNat]

theorem words_ofNat32 {words : List UInt16} (h : words.length = 2) (memLayout : MemLayout) :
    wordsFromNaturalBytes (beBytes 4 (UInt32.ofNat (beValue (naturalBytesFromWords words memLayout))).toNat)
      memLayout = words := by
  have hlen : (naturalBytesFromWords words memLayout).length = 4 := by simp [h]
  have hlt := beValue_lt (naturalBytesFromWords words memLayout)
  rw [hlen] at hlt
  rw [UInt32.toNat_ofNat_of_lt' hlt, ← hlen, beBytes_beValue, wordsFromNaturalBytes_naturalBytes]

theorem words_ofNat64 {words : List UInt16} (h : words.length = 4) (memLayout : MemLayout) :
    wordsFromNaturalBytes (beBytes 8 (UInt64.ofNat (beValue (naturalBytesFromWords words memLayout))).toNat)
      memLayout = words := by
  have hlen : (naturalBytesFromWords words memLayout).length = 8 := by simp [h]
  have hlt := beValue_lt (naturalBytesFromWords words memLayout)
  rw [hlen] at hlt
  rw [UInt64.toNat_ofNat_of_lt' hlt, ← hlen, beBytes_beValue, wordsFromNaturalBytes_naturalBytes]

/-- Sign extension keeps the low byte. -/
theorem toInt8_toInt16 (value : Int8) : value.toInt16.toUInt16.toUInt8.toInt8 = value := by
  have hall : ∀ n < 256, (UInt8.ofNat n).toInt8.toInt16.toUInt16.toUInt8.toInt8 = (UInt8.ofNat n).toInt8 := by
    decide +kernel
  have hvalue := hall value.toUInt8.toNat value.toUInt8.toNat_lt
  rwa [UInt8.ofNat_toNat] at hvalue

/-- Decoding the words of a value gives the value back. -/
theorem registerValueFromWords_toWords (value : RegisterValue) (memLayout : MemLayout) :
    registerValueFromWords value.dataType (registerValueToWords value memLayout) memLayout = some value := by
  simp only [registerValueFromWords, length_registerValueToWords, ne_eq, not_true_eq_false, if_false,
    Option.some.injEq]
  cases value with
  | u8 value => simp [registerValueToWords, RegisterValue.dataType]
  | i8 value => simp only [registerValueToWords, RegisterValue.dataType, List.headD_cons, toInt8_toInt16]
  | u16 value | i16 value => rfl
  | u24 value | u32 value | f32 value =>
    simp only [registerValueToWords, RegisterValue.dataType, ofNat_natural32]
  | i24 value | i32 value =>
    simp only [registerValueToWords, RegisterValue.dataType, ofNat_natural32]
    rfl
  | u64 value | f64 value => simp only [registerValueToWords, RegisterValue.dataType, ofNat_natural64]
  | i64 value =>
    simp only [registerValueToWords, RegisterValue.dataType, ofNat_natural64]
    rfl

/-- The word a register of a type reads back when `word` was written to it: an 8-bit
register keeps the low byte only. -/
def normalizeWord (dataType : DataType) (word : UInt16) : UInt16 :=
  match dataType with
  | .u8 => word.toUInt8.toUInt16
  | .i8 => word.toUInt8.toInt8.toInt16.toUInt16
  | _ => word

theorem map_normalizeWord_of_one_lt {dataType : DataType} (h : 1 < dataType.registerCount)
    (words : List UInt16) : words.map (normalizeWord dataType) = words := by
  cases dataType <;> first | exact absurd h (by decide) | exact List.map_id' words

/-- Words written to a register come back, those of an 8-bit register normalised. -/
theorem registerValueToWords_fromWords {dataType : DataType} {words : List UInt16} {memLayout : MemLayout}
    {value : RegisterValue} (h : registerValueFromWords dataType words memLayout = some value) :
    registerValueToWords value memLayout = words.map (normalizeWord dataType) := by
  have hlen := length_of_registerValueFromWords h
  simp only [registerValueFromWords, hlen, ne_eq, not_true_eq_false, if_false, Option.some.injEq] at h
  subst h
  cases dataType with
  | u8 | i8 | u16 | i16 =>
    obtain ⟨word, rfl⟩ := List.length_eq_one_iff.mp hlen
    rfl
  | u24 | i24 | u32 | i32 | f32 =>
    rw [map_normalizeWord_of_one_lt (by decide)]
    exact words_ofNat32 hlen memLayout
  | u64 | i64 | f64 =>
    rw [map_normalizeWord_of_one_lt (by decide)]
    exact words_ofNat64 hlen memLayout

/-- An unset register reads back as zero words. -/
theorem registerValueToWords_default (dataType : DataType) (memLayout : MemLayout) :
    registerValueToWords (defaultRegisterValue dataType) memLayout =
      List.replicate dataType.registerCount 0 := by
  cases dataType <;> cases memLayout <;> rfl

/-! ### The range of the 24-bit types -/

/-- The four bytes of a 24-bit value extend its three: with a zero byte, or with its
sign. -/
def FitsIn24 (dataType : DataType) (words : List UInt16) (memLayout : MemLayout) : Prop :=
  match dataType, naturalBytesFromWords words memLayout with
  | .u24, extension :: _ => extension = 0
  | .i24, extension :: top :: _ => extension = 0 ∧ top < 0x80 ∨ extension = 0xFF ∧ 0x80 ≤ top
  | .u24, _ | .i24, _ => False
  | _, _ => True

theorem toInt_toInt32 (x : UInt32) :
    x.toInt32.toInt = if x.toNat < 2 ^ 31 then (x.toNat : ℤ) else (x.toNat : ℤ) - 2 ^ 32 := by
  have hcond := BitVec.toInt_eq_toNat_cond x.toBitVec
  rw [show x.toInt32.toInt = x.toBitVec.toInt from rfl, hcond]
  simp only [UInt32.toNat_toBitVec]
  split <;> split <;> omega

/-- The value that words spell is in range exactly when their bytes fit. -/
theorem inRange_iff_fitsIn24 {dataType : DataType} {words : List UInt16} {memLayout : MemLayout}
    {value : RegisterValue} (h : registerValueFromWords dataType words memLayout = some value) :
    value.InRange ↔ FitsIn24 dataType words memLayout := by
  have hlen := length_of_registerValueFromWords h
  simp only [registerValueFromWords, hlen, ne_eq, not_true_eq_false, if_false, Option.some.injEq] at h
  subst h
  cases dataType with
  | u24 | i24 =>
    have hbytes : (naturalBytesFromWords words memLayout).length = 4 := by
      rw [length_naturalBytesFromWords, hlen, DataType.registerCount]
    obtain ⟨b3, b2, b1, b0, hnatural⟩ := List.length_eq_four.mp hbytes
    have h3 := b3.toNat_lt
    have h2 := b2.toNat_lt
    have h1 := b1.toNat_lt
    have h0 := b0.toNat_lt
    have hvalue : (UInt32.ofNat (beValue [b3, b2, b1, b0])).toNat =
        b3.toNat * 16777216 + b2.toNat * 65536 + b1.toNat * 256 + b0.toNat := by
      simp only [beValue, List.length_cons, List.length_nil, UInt32.toNat_ofNat']
      omega
    simp only [RegisterValue.InRange, FitsIn24, hnatural, UInt32.le_iff_toNat_le, UInt8.lt_iff_toNat_lt,
      UInt8.le_iff_toNat_le, ← UInt8.toNat_inj, toInt_toInt32, hvalue, i24Min, i24Max, u24Max]
    simp only [UInt8.reduceToNat, UInt32.reduceToNat]
    try split
    all_goals omega
  | _ => exact iff_of_true trivial trivial

end InfusedModbus.Datafs
