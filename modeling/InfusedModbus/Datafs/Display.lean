import InfusedModbus.Datafs.Parse

/-! Values as text, and back. A number is written in decimal, a coil as one digit; what
is written is read back as the same value, as long as a 24-bit value keeps to its range.
How a float is written is left to a parameter, as its parsing is. -/

namespace InfusedModbus.Datafs

open Foundation Foundation.Outcome Protocol

/-- The `Display` texts of the two float types. -/
structure FloatDisplay where
  displayF32 : UInt32 → String
  displayF64 : UInt64 → String

/-- The `Display` text of a value. -/
def RegisterValue.display (floats : FloatDisplay) : RegisterValue → String
  | .u8 value => toString value.toNat
  | .i8 value => toString value.toInt
  | .u16 value => toString value.toNat
  | .i16 value => toString value.toInt
  | .u24 value => toString value.toNat
  | .i24 value => toString value.toInt
  | .u32 value => toString value.toNat
  | .i32 value => toString value.toInt
  | .u64 value => toString value.toNat
  | .i64 value => toString value.toInt
  | .f32 bits => floats.displayF32 bits
  | .f64 bits => floats.displayF64 bits

def CoilValue.display (value : CoilValue) : String :=
  if value.value then "1" else "0"

/-- Exponent all ones, and some bit of the fraction. -/
def RegisterValue.IsNaN : RegisterValue → Prop
  | .f32 bits => 0x7F800000 < bits &&& 0x7FFFFFFF
  | .f64 bits => 0x7FF0000000000000 < bits &&& 0x7FFFFFFFFFFFFFFF
  | _ => False

/-- A float other than a NaN is read back from its text, which has no blanks in it. -/
structure FloatRoundTrip (floats : FloatParser) (display : FloatDisplay) : Prop where
  f32 : ∀ bits, ¬(RegisterValue.f32 bits).IsNaN → floats.parseF32 (display.displayF32 bits).toList = some bits
  f64 : ∀ bits, ¬(RegisterValue.f64 bits).IsNaN → floats.parseF64 (display.displayF64 bits).toList = some bits
  f32_plain : ∀ bits, ∀ c ∈ (display.displayF32 bits).toList, isWhitespace c = false
  f64_plain : ∀ bits, ∀ c ∈ (display.displayF64 bits).toList, isWhitespace c = false

/-! ### Decimal digits -/

theorem trim_of_plain {text : List Char} (h : ∀ c ∈ text, isWhitespace c = false) : trim text = text := by
  have hdrop : ∀ l : List Char, (∀ c ∈ l, isWhitespace c = false) → l.dropWhile isWhitespace = l := by
    intro l hl
    cases l with
    | nil => rfl
    | cons c l => rw [List.dropWhile_cons_of_neg (by simp [hl c List.mem_cons_self])]
  rw [trim, hdrop text h, hdrop text.reverse, List.reverse_reverse]
  intro c hc
  exact h c (List.mem_reverse.mp hc)

theorem toDigit_digitChar {d : ℕ} (h : d < 10) : toDigit 10 (Nat.digitChar d) = some d := by
  have hall : ∀ d < 10, toDigit 10 (Nat.digitChar d) = some d := by decide
  exact hall d h

theorem digitsValue_append (digits : List Char) (c : Char) :
    digitsValue 10 (digits ++ [c]) =
      (digitsValue 10 digits).bind fun value => (toDigit 10 c).map (value * 10 + ·) := by
  rw [digitsValue, List.foldlM_append, digitsValue]
  cases List.foldlM (fun value c => (toDigit 10 c).map (value * 10 + ·)) 0 digits with
  | none => rfl
  | some value => simp

/-- Decimal digits spell their number. -/
theorem digitsValue_toDigits (n : ℕ) : digitsValue 10 (Nat.toDigits 10 n) = some n := by
  induction n using Nat.strong_induction_on with
  | h n ih =>
    rw [Nat.toDigits_eq_if (by omega)]
    split
    · next hlt =>
      have hdigit := digitsValue_append [] (Nat.digitChar n)
      rw [toDigit_digitChar hlt] at hdigit
      simpa [digitsValue] using hdigit
    · next hge =>
      rw [digitsValue_append, ih (n / 10) (by omega), toDigit_digitChar (Nat.mod_lt n (by omega))]
      simp only [Option.bind_some, Option.map_some, Option.some.injEq]
      omega

/-- A decimal number begins with a digit, and has nothing else in it. -/
theorem mem_toDigits {n : ℕ} {c : Char} (h : c ∈ Nat.toDigits 10 n) : '0' ≤ c ∧ c ≤ '9' := by
  have hdigit := Nat.isDigit_of_mem_toDigits (by omega) (by omega) h
  rw [Char.isDigit, Bool.and_eq_true, decide_eq_true_eq, decide_eq_true_eq] at hdigit
  exact hdigit

theorem isWhitespace_digit {c : Char} (h : '0' ≤ c ∧ c ≤ '9') : isWhitespace c = false := by
  have hlow : 48 ≤ c.toNat := h.1
  have hhigh : c.toNat ≤ 57 := h.2
  simp only [isWhitespace, Bool.or_eq_false_iff, Bool.and_eq_false_iff, decide_eq_false_iff_not, beq_eq_false_iff_ne]
  omega

/-! ### Integers -/

/-- A text that begins with no sign is a number by its digits. -/
theorem fromStrRadix_cons {signed : Bool} {min max : ℤ} {radix : ℕ} {c : Char} {digits : List Char}
    (hplus : c ≠ '+') (hminus : c ≠ '-') :
    fromStrRadix signed min max radix (c :: digits) =
      ((digitsValue radix (c :: digits)).map fun n => (n : ℤ)).filter fun v => min ≤ v && v ≤ max := by
  unfold fromStrRadix
  split <;> simp_all

theorem fromStrRadix_minus {min max : ℤ} {radix : ℕ} {c : Char} {digits : List Char} :
    fromStrRadix true min max radix ('-' :: c :: digits) =
      ((digitsValue radix (c :: digits)).map fun n => -(n : ℤ)).filter fun v => min ≤ v && v ≤ max := by
  unfold fromStrRadix
  split <;> simp_all

/-- The decimal text of a number within bounds is read as that number. -/
theorem fromStrRadix_toDigits {signed : Bool} {min max : ℤ} {n : ℕ} (hmin : min ≤ n) (hmax : n ≤ max) :
    fromStrRadix signed min max 10 (Nat.toDigits 10 n) = some (n : ℤ) := by
  obtain ⟨c, digits, hdigits⟩ := List.exists_cons_of_ne_nil (@Nat.toDigits_ne_nil n 10)
  have hc : '0' ≤ c ∧ c ≤ '9' := mem_toDigits (by rw [hdigits]; exact List.mem_cons_self)
  have hlow : 48 ≤ c.toNat := hc.1
  rw [hdigits, fromStrRadix_cons, ← hdigits, digitsValue_toDigits]
  · simp [Option.filter, hmin, hmax]
  · rintro rfl
    exact absurd hlow (by decide)
  · rintro rfl
    exact absurd hlow (by decide)

theorem parseUnsigned_toDigits {bits n : ℕ} (h : n < 2 ^ bits) : parseUnsigned bits 10 (Nat.toDigits 10 n) = some n := by
  have hmax : (n : ℤ) ≤ 2 ^ bits - 1 := by
    have hcast : (n : ℤ) < (2 ^ bits : ℕ) := by exact_mod_cast h
    push_cast at hcast
    omega
  rw [parseUnsigned, fromStrRadix_toDigits (by omega) hmax]
  rfl

/-- A decimal text has no `x` in it. -/
theorem parseHexOrDecimal_toDigits {bits n : ℕ} (h : n < 2 ^ bits) :
    parseHexOrDecimal bits (Nat.toDigits 10 n) = some n := by
  have hplain : ∀ c ∈ Nat.toDigits 10 n, c.toNat ≤ 57 := fun c hc => (mem_toDigits hc).2
  rw [← parseUnsigned_toDigits h]
  unfold parseHexOrDecimal
  split
  · next hex htext =>
    have hx := hplain 'x' (by rw [htext]; simp)
    exact absurd hx (by decide)
  · next hex htext =>
    have hx := hplain 'X' (by rw [htext]; simp)
    exact absurd hx (by decide)
  · rfl

theorem parseSigned_display {bits : ℕ} {v : ℤ} (hmin : -2 ^ (bits - 1) ≤ v) (hmax : v ≤ 2 ^ (bits - 1) - 1) :
    parseSigned bits (toString v).toList = some v := by
  cases v with
  | ofNat n =>
    have htext : (toString (Int.ofNat n)).toList = Nat.toDigits 10 n := Nat.toList_repr
    rw [parseSigned, htext]
    exact fromStrRadix_toDigits hmin hmax
  | negSucc n =>
    have htext : (toString (Int.negSucc n)).toList = '-' :: Nat.toDigits 10 (n + 1) := by
      have happend : (toString (Int.negSucc n)) = "-" ++ (n + 1).repr := rfl
      rw [happend, String.toList_append, Nat.toList_repr]
      rfl
    obtain ⟨c, digits, hdigits⟩ := List.exists_cons_of_ne_nil (@Nat.toDigits_ne_nil (n + 1) 10)
    rw [parseSigned, htext, hdigits, fromStrRadix_minus, ← hdigits, digitsValue_toDigits]
    rw [Int.negSucc_eq] at hmin hmax ⊢
    generalize (2 : ℤ) ^ (bits - 1) = bound at hmin hmax ⊢
    simp [Option.filter]
    omega

/-! ### Values -/

theorem isWhitespace_toString_nat (n : ℕ) : ∀ c ∈ (toString n).toList, isWhitespace c = false := by
  intro c hc
  rw [Nat.toString_eq_repr, Nat.toList_repr] at hc
  exact isWhitespace_digit (mem_toDigits hc)

theorem isWhitespace_toString_int (v : ℤ) : ∀ c ∈ (toString v).toList, isWhitespace c = false := by
  intro c hc
  cases v with
  | ofNat n => exact isWhitespace_toString_nat n c hc
  | negSucc n =>
    have happend : (toString (Int.negSucc n)) = "-" ++ (n + 1).repr := rfl
    rw [happend, String.toList_append, List.mem_append] at hc
    rcases hc with hsign | hdigits
    · obtain rfl := List.mem_singleton.mp hsign
      rfl
    · exact isWhitespace_toString_nat (n + 1) c hdigits

/-- The text of an unsigned number. -/
theorem parseHexOrDecimal_display {bits n : ℕ} (h : n < 2 ^ bits) :
    parseHexOrDecimal bits (trim (toString n).toList) = some n := by
  rw [trim_of_plain (isWhitespace_toString_nat n), Nat.toString_eq_repr, Nat.toList_repr, parseHexOrDecimal_toDigits h]

theorem parseSigned_trim_display {bits : ℕ} {v : ℤ} (hmin : -2 ^ (bits - 1) ≤ v) (hmax : v < 2 ^ (bits - 1)) :
    parseSigned bits (trim (toString v).toList) = some v := by
  rw [trim_of_plain (isWhitespace_toString_int v), parseSigned_display hmin (Int.le_sub_one_of_lt hmax)]

/-- A value's text is read back as the value. -/
theorem parseRegisterValue_display {floats : FloatParser} {display : FloatDisplay} (h : FloatRoundTrip floats display)
    {value : RegisterValue} (hrange : value.InRange) (hnan : ¬value.IsNaN) :
    parseRegisterValue floats value.dataType (value.display display) = some value := by
  cases value with
  | u8 value | u16 value | u32 value | u64 value =>
    rw [RegisterValue.dataType, RegisterValue.display, parseRegisterValue, parseHexOrDecimal_display value.toNat_lt]
    simp
  | u24 value =>
    rw [RegisterValue.dataType, RegisterValue.display, parseRegisterValue, parseHexOrDecimal_display value.toNat_lt]
    simp only [Option.map_some, UInt32.ofNat_toNat, Option.bind_eq_bind, Option.bind_some]
    exact if_pos hrange
  | i8 value | i16 value | i32 value | i64 value =>
    rw [RegisterValue.dataType, RegisterValue.display, parseRegisterValue,
      parseSigned_trim_display value.le_toInt value.toInt_lt]
    simp
  | i24 value =>
    rw [RegisterValue.dataType, RegisterValue.display, parseRegisterValue,
      parseSigned_trim_display value.le_toInt value.toInt_lt]
    simp only [Option.map_some, Int32.ofInt_toInt, Option.bind_eq_bind, Option.bind_some]
    exact if_pos hrange
  | f32 bits =>
    rw [RegisterValue.dataType, RegisterValue.display, parseRegisterValue, trim_of_plain (h.f32_plain bits),
      h.f32 bits hnan]
    rfl
  | f64 bits =>
    rw [RegisterValue.dataType, RegisterValue.display, parseRegisterValue, trim_of_plain (h.f64_plain bits),
      h.f64 bits hnan]
    rfl

theorem parseCoilValue_display (value : CoilValue) : parseCoilValue value.display = some value := by
  obtain ⟨value⟩ := value
  cases value <;> decide

/-! ### File record names -/

theorem isWhitespace_of_toDigit {radix d : ℕ} {c : Char} (h : toDigit radix c = some d) : isWhitespace c = false := by
  obtain ⟨hdigit, -⟩ := Option.filter_eq_some_iff.mp h
  have hrange : (48 ≤ c.toNat ∧ c.toNat ≤ 57) ∨ (97 ≤ c.toNat ∧ c.toNat ≤ 122) ∨ (65 ≤ c.toNat ∧ c.toNat ≤ 90) := by
    split at hdigit
    · next hdecimal => exact .inl hdecimal
    · split at hdigit
      · next hlower => exact .inr (.inl hlower)
      · split at hdigit
        · next hupper => exact .inr (.inr hupper)
        · cases hdigit
  simp only [isWhitespace, Bool.or_eq_false_iff, Bool.and_eq_false_iff, decide_eq_false_iff_not, beq_eq_false_iff_ne]
  omega

/-- Digits that spell a number have no whitespace among them. -/
theorem plain_of_digitsValue {radix n : ℕ} {digits : List Char} (h : digitsValue radix digits = some n) :
    ∀ c ∈ digits, isWhitespace c = false := by
  rw [digitsValue] at h
  generalize 0 = value at h
  induction digits generalizing value with
  | nil => simp
  | cons c digits ih =>
    rw [List.foldlM_cons] at h
    obtain ⟨next, hnext, hrest⟩ := Option.bind_eq_some_iff.mp h
    obtain ⟨d, hd, -⟩ := Option.map_eq_some_iff.mp hnext
    rw [List.forall_mem_cons]
    exact ⟨isWhitespace_of_toDigit hd, ih next hrest⟩

/-- Neither is there any in a literal. -/
theorem plain_of_parseUnsigned {bits radix n : ℕ} {text : List Char} (h : parseUnsigned bits radix text = some n) :
    ∀ c ∈ text, isWhitespace c = false := by
  obtain ⟨v, hv, -⟩ := Option.map_eq_some_iff.mp h
  obtain ⟨hvalue, -⟩ := Option.filter_eq_some_iff.mp hv
  split at hvalue
  · cases hvalue
  · cases hvalue
  · cases hvalue
  · obtain ⟨m, hm, -⟩ := Option.map_eq_some_iff.mp hvalue
    obtain ⟨k, hk, -⟩ := Option.bind_eq_some_iff.mp hm
    rw [List.forall_mem_cons]
    exact ⟨rfl, plain_of_digitsValue hk⟩
  · cases hvalue
  · obtain ⟨m, hm, -⟩ := Option.map_eq_some_iff.mp hvalue
    obtain ⟨k, hk, -⟩ := Option.bind_eq_some_iff.mp hm
    exact plain_of_digitsValue hk

/-- A name that means a file record is one word. -/
theorem plain_of_parseFileRecordName {name : String} {key : UInt16 × UInt16} (h : parseFileRecordName name = some key) :
    name.toList ≠ [] ∧ ∀ c ∈ name.toList, isWhitespace c = false := by
  have happend : (name.toList.span (· ≠ ':')).1 ++ (name.toList.span (· ≠ ':')).2 = name.toList := by
    simp [List.span_eq_takeWhile_dropWhile]
  have hcolon : ∀ c ∈ (name.toList.span (· ≠ ':')).2.head?, isWhitespace c = false := by
    intro c hc
    rw [List.span_eq_takeWhile_dropWhile] at hc
    have hhead := List.head?_dropWhile_not (fun c => decide (c ≠ ':')) name.toList
    rw [hc] at hhead
    obtain rfl : c = ':' := by simpa using hhead
    rfl
  unfold parseFileRecordName at h
  revert h happend hcolon
  generalize name.toList.span (· ≠ ':') = parts
  intro h happend hcolon
  obtain ⟨fileNumber, rest⟩ := parts
  cases rest with
  | nil => cases h
  | cons colon recordNumber =>
    simp only [Option.bind_eq_bind, Option.bind_eq_some_iff] at h
    obtain ⟨file, hfile, record, hrecord, -⟩ := h
    rw [← happend]
    constructor
    · simp
    · intro c hc
      rcases List.mem_append.mp hc with hc | hc
      · exact plain_of_parseUnsigned hfile c hc
      · rcases List.mem_cons.mp hc with rfl | hc
        · exact hcolon c rfl
        · exact plain_of_parseUnsigned hrecord c hc

/-! ### Spellings of a file record -/

/-- Leading zeros do not change a number. -/
theorem digitsValue_zeros (zeros : ℕ) (digits : List Char) :
    digitsValue 10 (List.replicate zeros '0' ++ digits) = digitsValue 10 digits := by
  induction zeros with
  | zero => rfl
  | succ zeros ih =>
    rw [List.replicate_succ, List.cons_append, ← ih]
    rfl

theorem mem_zeros_append {zeros n : ℕ} {c : Char} (h : c ∈ List.replicate zeros '0' ++ Nat.toDigits 10 n) :
    '0' ≤ c ∧ c ≤ '9' := by
  rcases List.mem_append.mp h with h | h
  · obtain rfl := List.eq_of_mem_replicate h
    decide
  · exact mem_toDigits h

theorem parseUnsigned_zeros (zeros : ℕ) {bits n : ℕ} (h : n < 2 ^ bits) :
    parseUnsigned bits 10 (List.replicate zeros '0' ++ Nat.toDigits 10 n) = some n := by
  cases zeros with
  | zero => exact parseUnsigned_toDigits h
  | succ zeros =>
    have hvalue := digitsValue_zeros (zeros + 1) (Nat.toDigits 10 n)
    rw [digitsValue_toDigits, List.replicate_succ, List.cons_append] at hvalue
    have hmax : (n : ℤ) ≤ 2 ^ bits - 1 := by
      have hcast : (n : ℤ) < (2 ^ bits : ℕ) := by exact_mod_cast h
      push_cast at hcast
      omega
    rw [List.replicate_succ, List.cons_append, parseUnsigned, fromStrRadix_cons (by decide) (by decide), hvalue]
    simp [Option.filter, hmax]

/-- A file record's two numbers in decimal, the first after some zeros. -/
def recordSpelling (zeros : ℕ) (fileNumber recordNumber : UInt16) : String :=
  String.ofList (List.replicate zeros '0' ++ Nat.toDigits 10 fileNumber.toNat) ++ ":" ++ toString recordNumber

theorem toList_recordSpelling (zeros : ℕ) (fileNumber recordNumber : UInt16) :
    (recordSpelling zeros fileNumber recordNumber).toList =
      (List.replicate zeros '0' ++ Nat.toDigits 10 fileNumber.toNat) ++ ':' :: Nat.toDigits 10 recordNumber.toNat := by
  have hrecord : (toString recordNumber).toList = Nat.toDigits 10 recordNumber.toNat := Nat.toList_repr
  rw [recordSpelling, String.toList_append, String.toList_append, String.toList_ofList, hrecord, List.append_assoc]
  rfl

/-- Every spelling names the record. -/
theorem parseFileRecordName_recordSpelling (zeros : ℕ) (fileNumber recordNumber : UInt16) :
    parseFileRecordName (recordSpelling zeros fileNumber recordNumber) = some (fileNumber, recordNumber) := by
  have hdigits : ∀ c ∈ List.replicate zeros '0' ++ Nat.toDigits 10 fileNumber.toNat, decide (c ≠ ':') = true := by
    intro c hc
    have hhigh : c.toNat ≤ 57 := (mem_zeros_append hc).2
    rw [decide_eq_true_eq]
    rintro rfl
    exact absurd hhigh (by decide)
  rw [parseFileRecordName, toList_recordSpelling, List.span_eq_takeWhile_dropWhile,
    List.takeWhile_append_of_pos hdigits, List.dropWhile_append_of_pos hdigits, List.takeWhile_cons_of_neg (by decide),
    List.dropWhile_cons_of_neg (by decide), List.append_nil]
  dsimp only
  rw [parseUnsigned_zeros zeros fileNumber.toNat_lt, parseUnsigned_toDigits recordNumber.toNat_lt]
  simp

theorem recordSpelling_injective (fileNumber recordNumber : UInt16) :
    Function.Injective fun zeros => recordSpelling zeros fileNumber recordNumber := by
  intro m n h
  have hlength := congrArg (fun name : String => name.toList.length) h
  simp only [toList_recordSpelling, List.length_append, List.length_replicate] at hlength
  omega

/-- The name of a file record in decimal. -/
theorem parseFileRecordName_display (fileNumber recordNumber : UInt16) :
    parseFileRecordName (toString fileNumber ++ ":" ++ toString recordNumber) = some (fileNumber, recordNumber) :=
  parseFileRecordName_recordSpelling 0 fileNumber recordNumber

end InfusedModbus.Datafs
