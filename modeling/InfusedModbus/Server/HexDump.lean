import InfusedModbus.Server.DataSocket

/-! The text of a file record. It is read in slices of two bytes by the number parser of the
standard library, which takes more than two hexadecimal digits: a plus sign before a digit
is a number too, and a slice that ends inside a character does not exist at all. Where a
text has neither, it is read as the dump it is, or refused. -/

namespace InfusedModbus.Server

open Foundation Foundation.Outcome Datafs

/-! ### Dumps -/

def IsHexDigit (c : Char) : Prop := '0' ≤ c ∧ c ≤ '9' ∨ 'a' ≤ c ∧ c ≤ 'f' ∨ 'A' ≤ c ∧ c ≤ 'F'

instance (c : Char) : Decidable (IsHexDigit c) := inferInstanceAs (Decidable (_ ∨ _))

def hexDigitValue (c : Char) : ℕ :=
  if c ≤ '9' then c.toNat - '0'.toNat else if c ≤ 'F' then c.toNat - 'A'.toNat + 10 else c.toNat - 'a'.toNat + 10

/-- The values of the pairs of digits, in order. -/
def pairValues : List Char → Bytes
  | c :: d :: rest => UInt8.ofNat (16 * hexDigitValue c + hexDigitValue d) :: pairValues rest
  | _ => []

/-- Pairs of hexadecimal digits, one at least, and the bytes they spell. -/
structure IsHexDump (digits : List Char) (bytes : Bytes) : Prop where
  nonempty : digits ≠ []
  even : digits.length % 2 = 0
  hex : ∀ c ∈ digits, IsHexDigit c
  bytes_eq : bytes = pairValues digits

/-- The characters of a text that are not whitespace. -/
def withoutWhitespace (text : String) : List Char := text.toList.filter fun c => !isWhitespace c

/-- A text is read as the dump it is without its whitespace; any other is refused. -/
def ReadExactly (text : String) : Prop :=
  (∀ bytes, parseFileRecordValue text = .ok bytes ↔ IsHexDump (withoutWhitespace text) bytes) ∧
    ((∀ bytes, ¬IsHexDump (withoutWhitespace text) bytes) → parseFileRecordValue text = .err ())

/-! ### Slices -/

/-- Two characters that the number parser takes as a byte. -/
def TakesPair (c d : Char) : Prop := (IsHexDigit c ∨ c = '+') ∧ IsHexDigit d

instance (c d : Char) : Decidable (TakesPair c d) := inferInstanceAs (Decidable (_ ∧ _))

/-- What follows the pairs that are taken. -/
def afterPairs : List Char → List Char
  | c :: d :: rest => if TakesPair c d then afterPairs rest else c :: d :: rest
  | rest => rest

/-- The next two bytes end inside a character. -/
def CutsCharacter : List Char → Prop
  | [] => False
  | c :: rest => 2 < c.utf8Size ∨ c.utf8Size = 1 ∧ ∃ d ∈ rest.head?, d.utf8Size ≠ 1

/-- The bytes a text takes. -/
def byteLength (text : List Char) : ℕ := (text.map Char.utf8Size).sum

theorem toNat_of_isHexDigit {c : Char} (h : IsHexDigit c) :
    48 ≤ c.toNat ∧ c.toNat ≤ 57 ∨ 97 ≤ c.toNat ∧ c.toNat ≤ 102 ∨ 65 ≤ c.toNat ∧ c.toNat ≤ 70 := h

theorem utf8Size_of_isHexDigit {c : Char} (h : IsHexDigit c) : c.utf8Size = 1 := by
  have hrange := toNat_of_isHexDigit h
  have hascii : c.toNat ≤ 127 := by omega
  exact Char.utf8Size_eq_one_iff.mpr hascii

/-- The digits of the number parser in base 16 are the hexadecimal ones. -/
theorem toDigit_sixteen (c : Char) : toDigit 16 c = if IsHexDigit c then some (hexDigitValue c) else none := by
  have hle : ∀ a b : Char, a ≤ b ↔ a.toNat ≤ b.toNat := fun _ _ => Iff.rfl
  simp only [toDigit, IsHexDigit, hexDigitValue, hle, Char.reduceToNat]
  split
  · next hdecimal =>
    rw [if_pos (.inl hdecimal), if_pos hdecimal.2]
    simp only [Option.filter, decide_eq_true_eq]
    rw [if_pos (by omega)]
  · split
    · next hdecimal hlower =>
      rw [if_neg (show ¬c.toNat ≤ 57 by omega), if_neg (show ¬c.toNat ≤ 70 by omega)]
      by_cases hhex : c.toNat ≤ 102
      · rw [if_pos (by omega)]
        simp only [Option.filter, decide_eq_true_eq]
        rw [if_pos (by omega)]
      · rw [if_neg (by omega)]
        simp only [Option.filter, decide_eq_true_eq]
        rw [if_neg (by omega)]
    · split
      · next hdecimal hlower hupper =>
        rw [if_neg (show ¬c.toNat ≤ 57 by omega)]
        by_cases hhex : c.toNat ≤ 70
        · rw [if_pos (by omega), if_pos hhex]
          simp only [Option.filter, decide_eq_true_eq]
          rw [if_pos (by omega)]
        · rw [if_neg (by omega)]
          simp only [Option.filter, decide_eq_true_eq]
          rw [if_neg (by omega)]
      · rw [if_neg (by omega)]
        rfl

theorem hexDigitValue_lt {c : Char} (h : IsHexDigit c) : hexDigitValue c < 16 := by
  have hle : ∀ a b : Char, a ≤ b ↔ a.toNat ≤ b.toNat := fun _ _ => Iff.rfl
  have hrange := toNat_of_isHexDigit h
  simp only [hexDigitValue, hle, Char.reduceToNat]
  split
  · omega
  · split <;> omega

theorem digitsValue_sixteen (c d : Char) :
    digitsValue 16 [c, d] =
      if IsHexDigit c ∧ IsHexDigit d then some (16 * hexDigitValue c + hexDigitValue d) else none := by
  simp only [digitsValue, List.foldlM_cons, List.foldlM_nil, toDigit_sixteen]
  by_cases hc : IsHexDigit c
  · by_cases hd : IsHexDigit d
    · simp [hc, hd, Nat.mul_comm]
    · simp [hc, hd]
  · simp [hc]

/-- A number below 256 passes the bounds of a byte. -/
theorem filter_byte {n : ℕ} (h : n < 256) :
    (((some (n : ℤ)).filter fun v => (0 : ℤ) ≤ v && v ≤ 2 ^ 8 - 1).map Int.toNat) = some n := by
  have hlow : (0 : ℤ) ≤ n := by omega
  have hhigh : (n : ℤ) ≤ 2 ^ 8 - 1 := by omega
  rw [Option.filter, if_pos (by rw [decide_eq_true hlow, decide_eq_true hhigh]; rfl)]
  rfl

/-- A pair is a number if it is two digits, or a plus sign and a digit. -/
theorem parseUnsigned_pair (c d : Char) :
    parseUnsigned 8 16 [c, d] =
      if IsHexDigit c ∧ IsHexDigit d then some (16 * hexDigitValue c + hexDigitValue d)
      else if c = '+' ∧ IsHexDigit d then some (hexDigitValue d)
      else none := by
  by_cases hplus : c = '+'
  · subst hplus
    have hsign : ¬IsHexDigit '+' := by decide
    have hdigit : digitsValue 16 [d] = if IsHexDigit d then some (hexDigitValue d) else none := by
      simp only [digitsValue, List.foldlM_cons, List.foldlM_nil, toDigit_sixteen]
      split <;> simp
    have hread : parseUnsigned 8 16 ['+', d] =
        (((digitsValue 16 [d]).map fun n => (n : ℤ)).filter fun v => (0 : ℤ) ≤ v && v ≤ 2 ^ 8 - 1).map Int.toNat := rfl
    rw [if_neg fun h => hsign h.1, hread, hdigit]
    by_cases hd : IsHexDigit d
    · have hlt := hexDigitValue_lt hd
      rw [if_pos hd, if_pos ⟨rfl, hd⟩]
      exact filter_byte (by omega)
    · rw [if_neg hd, if_neg fun h => hd h.2]
      rfl
  · rw [if_neg (show ¬(c = '+' ∧ IsHexDigit d) from fun h => hplus h.1)]
    by_cases hminus : c = '-'
    · subst hminus
      rw [if_neg (show ¬(IsHexDigit '-' ∧ IsHexDigit d) from fun h => absurd h.1 (by decide))]
      rfl
    · rw [parseUnsigned, fromStrRadix_cons hplus hminus, digitsValue_sixteen]
      split
      · next hhex =>
        have hhigh := hexDigitValue_lt hhex.1
        have hlow := hexDigitValue_lt hhex.2
        exact filter_byte (by omega)
      · rfl

/-! ### The loop over the slices -/

variable {digits : List Char}

theorem utf8Size_of_takesPair {c d : Char} (h : TakesPair c d) : c.utf8Size = 1 ∧ d.utf8Size = 1 := by
  obtain ⟨hc | rfl, hd⟩ := h
  · exact ⟨utf8Size_of_isHexDigit hc, utf8Size_of_isHexDigit hd⟩
  · exact ⟨rfl, utf8Size_of_isHexDigit hd⟩

/-- A pair that is taken adds a byte. -/
theorem parseBytePairs_takesPair {c d : Char} {rest : List Char} (h : TakesPair c d) :
    ∃ byte, parseBytePairs (c :: d :: rest) = (parseBytePairs rest).map (byte :: ·) ∧
      (IsHexDigit c → byte = UInt8.ofNat (16 * hexDigitValue c + hexDigitValue d)) := by
  obtain ⟨hc, hd⟩ := utf8Size_of_takesPair h
  rw [parseBytePairs, if_neg (by omega), if_neg (by omega), if_neg (by omega), parseUnsigned_pair]
  by_cases hhex : IsHexDigit c
  · rw [if_pos ⟨hhex, h.2⟩]
    exact ⟨_, rfl, fun _ => rfl⟩
  · rw [if_neg fun hboth => hhex hboth.1, if_pos ⟨h.1.resolve_left hhex, h.2⟩]
    exact ⟨_, rfl, fun habs => absurd habs hhex⟩

/-- A text of pairs that are taken is read to its end. -/
theorem parseBytePairs_of_taken (h : afterPairs digits = []) : ∃ bytes, parseBytePairs digits = .ok bytes := by
  fun_induction afterPairs digits with
  | case1 c d rest htakes ih =>
    obtain ⟨bytes, hrest⟩ := ih h
    obtain ⟨byte, hpair, -⟩ := @parseBytePairs_takesPair c d rest htakes
    exact ⟨byte :: bytes, by rw [hpair, hrest, map_ok]⟩
  | case2 => cases h
  | case3 =>
    subst h
    exact ⟨[], rfl⟩

/-- At a slice that ends inside a character the reader panics. -/
theorem parseBytePairs_of_cut (h : CutsCharacter (afterPairs digits)) : parseBytePairs digits = .panic := by
  have hcut : ∀ rest, CutsCharacter rest → parseBytePairs rest = .panic := by
    intro rest hrest
    cases rest with
    | nil => exact hrest.elim
    | cons c rest =>
      rcases hrest with hsize | ⟨hsize, d, hd, hdsize⟩
      · unfold parseBytePairs
        rw [if_neg (by omega), if_pos (by omega)]
      · obtain ⟨tail, rfl⟩ := List.head?_eq_some_iff.mp hd
        rw [parseBytePairs, if_neg (by omega), if_neg (by omega), if_pos hdsize]
  fun_induction afterPairs digits with
  | case1 c d rest htakes ih =>
    obtain ⟨byte, hpair, -⟩ := @parseBytePairs_takesPair c d rest htakes
    rw [hpair, ih h]
    rfl
  | case2 c d rest htakes => exact hcut _ h
  | case3 rest hrest => exact hcut _ h

/-- At any other slice that is not taken it stops. -/
theorem parseBytePairs_of_refused (heven : byteLength digits % 2 = 0) (hrest : afterPairs digits ≠ [])
    (hcut : ¬CutsCharacter (afterPairs digits)) : parseBytePairs digits = .err () := by
  fun_induction afterPairs digits with
  | case1 c d rest htakes ih =>
    obtain ⟨hc, hd⟩ := utf8Size_of_takesPair htakes
    have heven' : byteLength rest % 2 = 0 := by
      simp only [byteLength, List.map_cons, List.sum_cons, hc, hd] at heven ⊢
      omega
    obtain ⟨byte, hpair, -⟩ := @parseBytePairs_takesPair c d rest htakes
    rw [hpair, ih heven' hrest hcut]
    rfl
  | case2 c d rest htakes =>
    have hpos := c.utf8Size_pos
    rw [parseBytePairs]
    split
    · rfl
    · next htwo =>
      have hone : c.utf8Size = 1 := by
        by_contra hne
        exact hcut (.inl (by omega))
      have hnext : d.utf8Size = 1 := by
        by_contra hne
        exact hcut (.inr ⟨hone, d, rfl, hne⟩)
      rw [if_neg (not_not_intro hone), if_neg (not_not_intro hnext), parseUnsigned_pair, if_neg fun h => htakes ⟨.inl h.1, h.2⟩,
        if_neg fun h => htakes ⟨.inr h.1, h.2⟩]
  | case3 rest hshort =>
    cases rest with
    | nil => exact absurd rfl hrest
    | cons c rest =>
      cases rest with
      | cons d rest => exact absurd rfl (hshort c d rest)
      | nil =>
        have hpos := c.utf8Size_pos
        simp only [byteLength, List.map_cons, List.map_nil, List.sum_cons, List.sum_nil] at heven
        have htwo : c.utf8Size = 2 := by
          by_contra hne
          exact hcut (.inl (by omega))
        rw [parseBytePairs, if_pos htwo]

/-! ### Dumps and the reader -/

/-- Pairs of digits are all taken, and their values are read. -/
theorem parseBytePairs_of_hex (heven : digits.length % 2 = 0) (hhex : ∀ c ∈ digits, IsHexDigit c) :
    parseBytePairs digits = .ok (pairValues digits) := by
  fun_induction afterPairs digits with
  | case1 c d rest htakes ih =>
    obtain ⟨byte, hpair, hbyte⟩ := @parseBytePairs_takesPair c d rest htakes
    have heven' : rest.length % 2 = 0 := by
      simp only [List.length_cons] at heven
      omega
    rw [hpair, ih heven' fun e he => hhex e (by simp [he]), map_ok, hbyte (hhex c (by simp)), pairValues]
  | case2 c d rest htakes => exact absurd ⟨.inl (hhex c (by simp)), hhex d (by simp)⟩ htakes
  | case3 rest hshort =>
    cases rest with
    | nil => rfl
    | cons c rest =>
      cases rest with
      | cons d rest => exact absurd rfl (hshort c d rest)
      | nil => simp at heven

/-- Pairs that are taken and hold no plus sign are pairs of digits. -/
theorem hex_of_taken (h : afterPairs digits = []) (hplus : '+' ∉ digits) :
    digits.length % 2 = 0 ∧ ∀ c ∈ digits, IsHexDigit c := by
  fun_induction afterPairs digits with
  | case1 c d rest htakes ih =>
    obtain ⟨heven, hhex⟩ := ih h fun hmem => hplus (by simp [hmem])
    have hc : IsHexDigit c := htakes.1.resolve_right fun heq => hplus (by simp [heq])
    refine ⟨by simp only [List.length_cons]; omega, ?_⟩
    exact List.forall_mem_cons.mpr ⟨hc, List.forall_mem_cons.mpr ⟨htakes.2, hhex⟩⟩
  | case2 => cases h
  | case3 =>
    subst h
    exact ⟨rfl, by simp⟩

theorem byteLength_of_hex (hhex : ∀ c ∈ digits, IsHexDigit c) : byteLength digits = digits.length := by
  have hone : digits.map Char.utf8Size = digits.map fun _ => 1 :=
    List.map_congr_left fun c hc => utf8Size_of_isHexDigit (hhex c hc)
  rw [byteLength, hone]
  simp

theorem byteLength_eq_zero : byteLength digits = 0 ↔ digits = [] := by
  cases digits with
  | nil => simp [byteLength]
  | cons c rest =>
    have hpos := c.utf8Size_pos
    simp only [byteLength, List.map_cons, List.sum_cons, reduceCtorEq, iff_false]
    omega

/-- The pieces of two characters that the reader takes are two digits each, and where it
stops it does not stop inside a character. It matters only for a text of an even number of
bytes that is not blank. -/
def PlainPairs (digits : List Char) : Prop :=
  digits ≠ [] → byteLength digits % 2 = 0 →
    (afterPairs digits = [] → '+' ∉ digits) ∧ ¬CutsCharacter (afterPairs digits)

theorem parseFileRecordValue_eq (text : String) :
    parseFileRecordValue text =
      if byteLength (withoutWhitespace text) = 0 ∨ byteLength (withoutWhitespace text) % 2 ≠ 0 then .err ()
      else parseBytePairs (withoutWhitespace text) := rfl

/-- A dump is always read as such. -/
theorem parseFileRecordValue_of_isHexDump {text : String} {bytes : Bytes}
    (h : IsHexDump (withoutWhitespace text) bytes) : parseFileRecordValue text = .ok bytes := by
  have hlength := byteLength_of_hex h.hex
  have hpos := List.length_pos_iff.mpr h.nonempty
  have heven := h.even
  rw [parseFileRecordValue_eq, if_neg (by omega), parseBytePairs_of_hex heven h.hex, h.bytes_eq]

theorem readExactly_iff (text : String) : ReadExactly text ↔ PlainPairs (withoutWhitespace text) := by
  have hparse := parseFileRecordValue_eq text
  constructor
  · rintro ⟨hread, hrefused⟩ hnonempty heven
    rw [if_neg (by rw [byteLength_eq_zero]; exact fun h => h.elim hnonempty fun hodd => hodd heven)] at hparse
    constructor
    · intro htaken hplus
      obtain ⟨bytes, hbytes⟩ := parseBytePairs_of_taken htaken
      have hdump := (hread bytes).mp (hparse.trans hbytes)
      exact absurd (hdump.hex '+' hplus) (by decide)
    · intro hcut
      rw [parseBytePairs_of_cut hcut] at hparse
      have hnone : ∀ bytes, ¬IsHexDump (withoutWhitespace text) bytes := by
        intro bytes hdump
        rw [parseFileRecordValue_of_isHexDump hdump] at hparse
        cases hparse
      rw [hrefused hnone] at hparse
      cases hparse
  · intro hplain
    have hcases : parseFileRecordValue text = .err () ∨
        IsHexDump (withoutWhitespace text) (pairValues (withoutWhitespace text)) := by
      by_cases hblank : withoutWhitespace text = []
      · left
        rw [hparse, if_pos (.inl (byteLength_eq_zero.mpr hblank))]
      by_cases heven : byteLength (withoutWhitespace text) % 2 = 0
      · obtain ⟨hplus, hcut⟩ := hplain hblank heven
        by_cases htaken : afterPairs (withoutWhitespace text) = []
        · obtain ⟨hlength, hhex⟩ := hex_of_taken htaken (hplus htaken)
          exact .inr ⟨hblank, hlength, hhex, rfl⟩
        · left
          rw [hparse, if_neg (by rw [byteLength_eq_zero]; exact fun h => h.elim hblank fun hodd => hodd heven),
            parseBytePairs_of_refused heven htaken hcut]
      · left
        rw [hparse, if_pos (.inr heven)]
    refine ⟨fun bytes => ⟨fun hbytes => ?_, parseFileRecordValue_of_isHexDump⟩, fun hnone => ?_⟩
    · rcases hcases with herr | hdump
      · rw [herr] at hbytes
        cases hbytes
      · rw [parseFileRecordValue_of_isHexDump hdump] at hbytes
        exact Outcome.ok.inj hbytes ▸ hdump
    · rcases hcases with herr | hdump
      · exact herr
      · exact absurd hdump (hnone _)

/-- A text is read exactly if and only if no plus sign passes for a digit and no slice
ends inside a character; what is printed as a dump is always read back. -/
theorem file_record_text_exact_iff (text : String) :
    (ReadExactly text ↔ PlainPairs (withoutWhitespace text)) ∧
      ∀ bytes, bytes ≠ [] → parseFileRecordValue (formatHex bytes) = .ok bytes :=
  ⟨readExactly_iff text, fun _ => parseFileRecordValue_formatHex⟩

theorem file_record_text_exact_dump :
    PlainPairs (withoutWhitespace "0D fe\t0020") ∧ ReadExactly "0D fe\t0020" ∧
      parseFileRecordValue (formatHex [13, 254]) = .ok [13, 254] := by
  have hplain : PlainPairs (withoutWhitespace "0D fe\t0020") := by
    have htaken : afterPairs (withoutWhitespace "0D fe\t0020") = [] := by decide
    intro _ _
    rw [htaken]
    exact ⟨fun _ => by decide, id⟩
  obtain ⟨hread, hformat⟩ := file_record_text_exact_iff "0D fe\t0020"
  exact ⟨hplain, hread.mpr hplain, hformat [13, 254] (by decide)⟩

/-- A sign before a digit is read as a byte, and a euro sign is cut in two. -/
theorem plus_sign_read_as_digit : parseFileRecordValue "+5" = .ok [5] ∧ ¬ReadExactly "+5" ∧
    parseFileRecordValue "0€" = .panic ∧ ¬ReadExactly "0€" := by
  have hplus : parseFileRecordValue "+5" = .ok [5] := by decide +kernel
  have hcut : parseFileRecordValue "0€" = .panic := by decide +kernel
  refine ⟨hplus, ?_, hcut, ?_⟩
  · intro h
    exact absurd (((h.1 [5]).mp hplus).hex '+' (by decide)) (by decide)
  · intro h
    have hrefused := h.2 fun bytes hdump => absurd (hdump.hex '€' (by decide)) (by decide)
    rw [hcut] at hrefused
    cases hrefused

end InfusedModbus.Server
