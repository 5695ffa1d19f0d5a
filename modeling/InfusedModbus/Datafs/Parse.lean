import InfusedModbus.Datafs.RegisterValue
import InfusedModbus.Foundation.Outcome

/-! Reading values from text: the integer syntax of the standard library, hexadecimal
after a `0x`, and the hex dump of a file record. How a decimal fraction rounds to a
float is left to a parameter. Only here is a 24-bit value checked against its range. -/

namespace InfusedModbus.Datafs

open Foundation Foundation.Outcome Protocol

/-! ### Text -/

/-- The characters with the Unicode property White_Space. -/
def isWhitespace (c : Char) : Bool :=
  let n := c.toNat
  (9 ≤ n && n ≤ 13) || n == 32 || n == 0x85 || n == 0xA0 || n == 0x1680 || (0x2000 ≤ n && n ≤ 0x200A) ||
    n == 0x2028 || n == 0x2029 || n == 0x202F || n == 0x205F || n == 0x3000

/-- Drop the whitespace at both ends. -/
def trim (text : List Char) : List Char :=
  ((text.dropWhile isWhitespace).reverse.dropWhile isWhitespace).reverse

def trimEnd (text : List Char) : List Char := (text.reverse.dropWhile isWhitespace).reverse

/-- The words between runs of whitespace. -/
def splitWhitespace (text : List Char) : List (List Char) :=
  (text.splitOnP isWhitespace).filter (· ≠ [])

/-- The value of a digit. -/
def toDigit (radix : ℕ) (c : Char) : Option ℕ :=
  let digit :=
    if '0' ≤ c ∧ c ≤ '9' then some (c.toNat - '0'.toNat)
    else if 'a' ≤ c ∧ c ≤ 'z' then some (c.toNat - 'a'.toNat + 10)
    else if 'A' ≤ c ∧ c ≤ 'Z' then some (c.toNat - 'A'.toNat + 10)
    else none
  digit.filter (· < radix)

/-- The number that digits spell. -/
def digitsValue (radix : ℕ) (digits : List Char) : Option ℕ :=
  digits.foldlM (fun value c => (toDigit radix c).map (value * radix + ·)) 0

/-- An integer literal within bounds; a lone sign is none, and a minus sign is only
for signed types. -/
def fromStrRadix (signed : Bool) (min max : ℤ) (radix : ℕ) (text : List Char) : Option ℤ :=
  let value : Option ℤ :=
    match text with
    | [] | ['+'] | ['-'] => none
    | '+' :: digits => (digitsValue radix digits).map fun n => (n : ℤ)
    | '-' :: digits => if signed then (digitsValue radix digits).map fun n => -(n : ℤ) else none
    | digits => (digitsValue radix digits).map fun n => (n : ℤ)
  value.filter fun v => min ≤ v && v ≤ max

def parseUnsigned (bits radix : ℕ) (text : List Char) : Option ℕ :=
  (fromStrRadix false 0 (2 ^ bits - 1) radix text).map Int.toNat

def parseSigned (bits : ℕ) (text : List Char) : Option ℤ :=
  fromStrRadix true (-2 ^ (bits - 1)) (2 ^ (bits - 1) - 1) 10 text

/-- A hexadecimal literal after `0x` or `0X`, a decimal one otherwise. -/
def parseHexOrDecimal (bits : ℕ) (text : List Char) : Option ℕ :=
  match text with
  | '0' :: 'x' :: hex | '0' :: 'X' :: hex => parseUnsigned bits 16 hex
  | decimal => parseUnsigned bits 10 decimal

/-! ### Register values -/

/-- The parsers of the two float types, as bit patterns. -/
structure FloatParser where
  parseF32 : List Char → Option UInt32
  parseF64 : List Char → Option UInt64

def parseRegisterValue (floats : FloatParser) (dataType : DataType) (text : String) : Option RegisterValue :=
  let text := trim text.toList
  match dataType with
  | .u8 => (parseHexOrDecimal 8 text).map fun n => .u8 (UInt8.ofNat n)
  | .i8 => (parseSigned 8 text).map fun v => .i8 (Int8.ofInt v)
  | .u16 => (parseHexOrDecimal 16 text).map fun n => .u16 (UInt16.ofNat n)
  | .i16 => (parseSigned 16 text).map fun v => .i16 (Int16.ofInt v)
  | .u24 => do
    let value ← (parseHexOrDecimal 32 text).map UInt32.ofNat
    if value ≤ u24Max then some (.u24 value) else none
  | .i24 => do
    let value ← (parseSigned 32 text).map Int32.ofInt
    if i24Min ≤ value.toInt ∧ value.toInt ≤ i24Max then some (.i24 value) else none
  | .u32 => (parseHexOrDecimal 32 text).map fun n => .u32 (UInt32.ofNat n)
  | .i32 => (parseSigned 32 text).map fun v => .i32 (Int32.ofInt v)
  | .u64 => (parseHexOrDecimal 64 text).map fun n => .u64 (UInt64.ofNat n)
  | .i64 => (parseSigned 64 text).map fun v => .i64 (Int64.ofInt v)
  | .f32 => (floats.parseF32 text).map .f32
  | .f64 => (floats.parseF64 text).map .f64

/-- What is read from text is in range. -/
theorem inRange_of_parseRegisterValue {floats : FloatParser} {dataType : DataType} {text : String}
    {value : RegisterValue} (h : parseRegisterValue floats dataType text = some value) : value.InRange := by
  cases dataType with
  | u24 | i24 =>
    simp only [parseRegisterValue, Option.bind_eq_bind, Option.bind_eq_some_iff] at h
    obtain ⟨parsed, _, h⟩ := h
    split at h
    · next hrange =>
      obtain rfl := Option.some.inj h
      exact hrange
    · cases h
  | _ =>
    obtain ⟨parsed, _, rfl⟩ := Option.map_eq_some_iff.mp h
    trivial

/-- What is read from text for a type has that type. -/
theorem dataType_of_parseRegisterValue {floats : FloatParser} {dataType : DataType} {text : String}
    {value : RegisterValue} (h : parseRegisterValue floats dataType text = some value) : value.dataType = dataType := by
  cases dataType with
  | u24 | i24 =>
    simp only [parseRegisterValue, Option.bind_eq_bind, Option.bind_eq_some_iff] at h
    obtain ⟨parsed, _, h⟩ := h
    split at h
    · obtain rfl := Option.some.inj h
      rfl
    · cases h
  | _ =>
    obtain ⟨parsed, _, rfl⟩ := Option.map_eq_some_iff.mp h
    rfl

/-! ### Coils and file records -/

def parseCoilValue (text : String) : Option CoilValue :=
  match trim text.toList with
  | ['0'] => some ⟨false⟩
  | ['1'] => some ⟨true⟩
  | _ => none

/-- A file record is named by its two numbers with a colon between them. -/
def parseFileRecordName (name : String) : Option (UInt16 × UInt16) :=
  match name.toList.span (· ≠ ':') with
  | (fileNumber, _ :: recordNumber) => do
    let fileNumber ← parseUnsigned 16 10 fileNumber
    let recordNumber ← parseUnsigned 16 10 recordNumber
    some (UInt16.ofNat fileNumber, UInt16.ofNat recordNumber)
  | (_, []) => none

/-- The loop over the two-byte slices of a text; slicing inside a character panics. -/
def parseBytePairs : List Char → Outcome Unit Bytes
  | [] => .ok []
  | c :: rest =>
    if c.utf8Size = 2 then .err ()
    else if c.utf8Size ≠ 1 then .panic
    else
      match rest with
      | [] => .panic
      | d :: rest =>
        if d.utf8Size ≠ 1 then .panic
        else
          match parseUnsigned 8 16 [c, d] with
          | none => .err ()
          | some byte => (parseBytePairs rest).map (UInt8.ofNat byte :: ·)

/-- A hex dump with whitespace anywhere; the number of bytes is the writer's. -/
def parseFileRecordValue (text : String) : Outcome Unit Bytes :=
  let cleaned := text.toList.filter fun c => !isWhitespace c
  let length := (cleaned.map Char.utf8Size).sum
  if length = 0 ∨ length % 2 ≠ 0 then .err () else parseBytePairs cleaned

end InfusedModbus.Datafs
