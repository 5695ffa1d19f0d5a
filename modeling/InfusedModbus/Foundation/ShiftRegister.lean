import Mathlib.Data.Nat.Bitwise
import Mathlib.Data.List.Basic

/-! Linear feedback shift registers. A bit is added to the lowest place, the register
moves down by one, and if a one falls out the taps are added: division of the bits, the
highest power first, by the polynomial that the taps are the lower powers of. Feeding is
linear, and undone if the highest tap is set, so the register tells apart two strings that
differ in a stretch no longer than itself. With an odd number of taps the polynomial has
the factor `x + 1`, so it also tells apart strings that differ in an odd number of places. -/

namespace InfusedModbus.Foundation.ShiftRegister

variable {w : ℕ} (taps : BitVec w)

/-- Move down by one. -/
def shift (c : BitVec w) : BitVec w := (c >>> 1) ^^^ (if c.getLsbD 0 then taps else 0#w)

/-- The bit in the lowest place. -/
def lowest (w : ℕ) (b : Bool) : BitVec w := if b then 1#w else 0#w

/-- The register after some bits. -/
def feed (c : BitVec w) (bits : List Bool) : BitVec w := bits.foldl (fun c b => shift taps (c ^^^ lowest w b)) c

variable {taps}

/-! ### Linearity -/

theorem getLsbD_shift (c : BitVec w) (i : ℕ) :
    (shift taps c).getLsbD i = (c.getLsbD (i + 1) ^^ (c.getLsbD 0 && taps.getLsbD i)) := by
  rw [shift, BitVec.getLsbD_xor, BitVec.getLsbD_ushiftRight, Nat.add_comm]
  cases c.getLsbD 0 <;> simp

theorem shift_xor (a b : BitVec w) : shift taps (a ^^^ b) = shift taps a ^^^ shift taps b := by
  apply BitVec.eq_of_getLsbD_eq
  intro i _
  simp only [getLsbD_shift, BitVec.getLsbD_xor]
  cases a.getLsbD 0 <;> cases b.getLsbD 0 <;> cases a.getLsbD (i + 1) <;> cases b.getLsbD (i + 1) <;>
    cases taps.getLsbD i <;> rfl

theorem shift_zero : shift taps 0#w = 0#w := by simp [shift]

theorem lowest_xor (a b : Bool) : lowest w (a ^^ b) = lowest w a ^^^ lowest w b := by
  cases a <;> cases b <;> simp [lowest]

@[simp] theorem feed_nil (c : BitVec w) : feed taps c [] = c := rfl

@[simp] theorem feed_cons (c : BitVec w) (b : Bool) (bits : List Bool) :
    feed taps c (b :: bits) = feed taps (shift taps (c ^^^ lowest w b)) bits := rfl

theorem feed_append (c : BitVec w) (bits bits' : List Bool) :
    feed taps c (bits ++ bits') = feed taps (feed taps c bits) bits' := List.foldl_append

/-- The registers of two strings differ by the register of their difference. -/
theorem feed_xor (a b : BitVec w) {bits bits' : List Bool} (h : bits.length = bits'.length) :
    feed taps a bits ^^^ feed taps b bits' = feed taps (a ^^^ b) (List.zipWith (· ^^ ·) bits bits') := by
  induction bits generalizing a b bits' with
  | nil =>
    obtain rfl := List.length_eq_zero_iff.mp h.symm
    rfl
  | cons x bits ih =>
    cases bits' with
    | nil => cases h
    | cons y bits' =>
      have hstep : shift taps (a ^^^ lowest w x) ^^^ shift taps (b ^^^ lowest w y) =
          shift taps (a ^^^ b ^^^ lowest w (x ^^ y)) := by
        rw [← shift_xor, lowest_xor]
        congr 1
        ac_rfl
      rw [feed_cons, feed_cons, ih _ _ (Nat.succ.inj h), hstep, List.zipWith_cons_cons, feed_cons]

/-! ### A stretch no longer than the register -/

/-- With the highest tap set, no register but zero becomes zero. -/
theorem shift_eq_zero (htop : taps.getLsbD (w - 1) = true) {c : BitVec w} (h : shift taps c = 0#w) : c = 0#w := by
  have hbit : ∀ i, (c.getLsbD (i + 1) ^^ (c.getLsbD 0 && taps.getLsbD i)) = false := by
    intro i
    rw [← getLsbD_shift, h, BitVec.getLsbD_zero]
  have hlow : c.getLsbD 0 = false := by
    have hlast := hbit (w - 1)
    rw [BitVec.getLsbD_of_ge c _ (by omega), htop] at hlast
    simpa using hlast
  apply BitVec.eq_of_getLsbD_eq
  intro i _
  rw [BitVec.getLsbD_zero]
  cases i with
  | zero => exact hlow
  | succ i => simpa [hlow] using hbit i

theorem iterate_shift_ne_zero (htop : taps.getLsbD (w - 1) = true) {c : BitVec w} (h : c ≠ 0#w) (n : ℕ) :
    (shift taps)^[n] c ≠ 0#w := by
  induction n generalizing c with
  | zero => exact h
  | succ n ih =>
    rw [Function.iterate_succ_apply]
    exact ih fun hzero => h (shift_eq_zero htop hzero)

theorem iterate_shift_zero (n : ℕ) : (shift taps)^[n] 0#w = 0#w := by
  induction n with
  | zero => rfl
  | succ n ih => rw [Function.iterate_succ_apply, shift_zero, ih]

/-- Bits that are all zero only move the register. -/
theorem feed_of_zeros {bits : List Bool} (h : ∀ i, bits.getD i false = false) (c : BitVec w) :
    feed taps c bits = (shift taps)^[bits.length] c := by
  induction bits generalizing c with
  | nil => rfl
  | cons b bits ih =>
    have hb : b = false := h 0
    rw [feed_cons, ih fun i => h (i + 1), hb, List.length_cons, Function.iterate_succ_apply]
    simp [lowest]

/-- Bits written side by side, the first one lowest. -/
def load (w : ℕ) : List Bool → BitVec w
  | [] => 0#w
  | b :: bits => (load w bits <<< 1) ^^^ lowest w b

theorem getLsbD_lowest (b : Bool) (i : ℕ) : (lowest w b).getLsbD i = (b && decide (i = 0) && decide (i < w)) := by
  cases b with
  | false => simp [lowest]
  | true =>
    rw [lowest, if_pos rfl, BitVec.getLsbD_one]
    by_cases hi : i = 0 <;> simp [hi]

theorem getLsbD_load (bits : List Bool) {i : ℕ} (h : i < w) : (load w bits).getLsbD i = bits.getD i false := by
  induction bits generalizing i with
  | nil => simp [load]
  | cons b bits ih =>
    rw [load, BitVec.getLsbD_xor, BitVec.getLsbD_shiftLeft, getLsbD_lowest]
    cases i with
    | zero => simp [h]
    | succ i => simp [h, ih (show i < w by omega)]

/-- A register whose highest place is free, moved up and down again. -/
theorem shift_shiftLeft {c : BitVec w} (htop : c.getLsbD (w - 1) = false) : shift taps (c <<< 1) = c := by
  apply BitVec.eq_of_getLsbD_eq
  intro i hi
  rw [getLsbD_shift, BitVec.getLsbD_shiftLeft, BitVec.getLsbD_shiftLeft]
  by_cases hlast : i + 1 < w
  · simp [hlast]
  · have htop' : c.getLsbD i = false := by
      rw [show i = w - 1 by omega]
      exact htop
    simp [hlast, htop']

/-- Feeding no more bits than the register has is adding them all at once, then moving. -/
theorem feed_eq_iterate (c : BitVec w) {bits : List Bool} (h : bits.length ≤ w) :
    feed taps c bits = (shift taps)^[bits.length] (c ^^^ load w bits) := by
  induction bits generalizing c with
  | nil => simp [load]
  | cons b bits ih =>
    have hlen : bits.length + 1 ≤ w := h
    have htop : (load w bits).getLsbD (w - 1) = false := by
      rw [getLsbD_load bits (by omega), List.getD_eq_default _ _ (by omega)]
    have hstep : shift taps (c ^^^ lowest w b) ^^^ load w bits = shift taps (c ^^^ load w (b :: bits)) := by
      conv_lhs => rw [← @shift_shiftLeft _ taps _ htop]
      rw [← shift_xor, load]
      congr 1
      ac_rfl
    rw [feed_cons, ih _ (by omega), hstep, List.length_cons, Function.iterate_succ_apply]

/-- A string that is zero but for a stretch no longer than the register leaves something
in it, unless it is zero altogether. -/
theorem feed_zero_ne_zero (htop : taps.getLsbD (w - 1) = true) {bits : List Bool} {start : ℕ}
    (hwindow : ∀ i, bits.getD i false = true → start ≤ i ∧ i < start + w) (hne : ∃ i, bits.getD i false = true) :
    feed taps 0#w bits ≠ 0#w := by
  have hdrop : ∀ n i, (bits.drop n).getD i false = bits.getD (n + i) false := by
    intro n i
    simp only [List.getD_eq_getElem?_getD, List.getElem?_drop]
  have htake : ∀ (as : List Bool) (n i : ℕ), (as.take n).getD i false = (decide (i < n) && as.getD i false) := by
    intro as n i
    simp only [List.getD_eq_getElem?_getD, List.getElem?_take]
    split <;> simp [*]
  have hbefore : ∀ i, (bits.take start).getD i false = false := by
    intro i
    by_contra hbit
    rw [htake, Bool.not_eq_false, Bool.and_eq_true, decide_eq_true_eq] at hbit
    have hin := hwindow i hbit.2
    omega
  have hafter : ∀ i, ((bits.drop start).drop w).getD i false = false := by
    intro i
    by_contra hbit
    rw [List.drop_drop, hdrop, Bool.not_eq_false] at hbit
    have hin := hwindow _ hbit
    omega
  have hload : load w ((bits.drop start).take w) ≠ 0#w := by
    obtain ⟨i, hi⟩ := hne
    obtain ⟨hlow, hhigh⟩ := hwindow i hi
    intro hzero
    have hbit := getLsbD_load ((bits.drop start).take w) (show i - start < w by omega)
    rw [hzero, BitVec.getLsbD_zero, htake, hdrop, Nat.add_sub_cancel' hlow, hi, decide_eq_true (by omega)] at hbit
    cases hbit
  have hparts : bits = bits.take start ++ ((bits.drop start).take w ++ (bits.drop start).drop w) := by
    rw [List.take_append_drop, List.take_append_drop]
  rw [hparts, feed_append, feed_append, feed_of_zeros hbefore, iterate_shift_zero, feed_of_zeros hafter,
    feed_eq_iterate _ (by rw [List.length_take]; omega), BitVec.zero_xor, ← Function.iterate_add_apply]
  exact iterate_shift_ne_zero htop hload _

/-! ### Parity -/

/-- Exclusive or of the first values of a sequence. -/
def xorSum (f : ℕ → Bool) : ℕ → Bool
  | 0 => false
  | n + 1 => xorSum f n ^^ f n

/-- Whether a register has an odd number of ones. -/
def parity (c : BitVec w) : Bool := xorSum c.getLsbD w

theorem xorSum_xor (f g : ℕ → Bool) (n : ℕ) : xorSum (fun i => f i ^^ g i) n = (xorSum f n ^^ xorSum g n) := by
  induction n with
  | zero => rfl
  | succ n ih =>
    rw [xorSum, xorSum, xorSum, ih]
    cases xorSum f n <;> cases xorSum g n <;> cases f n <;> cases g n <;> rfl

theorem xorSum_succ_eq (f : ℕ → Bool) (n : ℕ) : xorSum f (n + 1) = (f 0 ^^ xorSum (fun i => f (i + 1)) n) := by
  induction n with
  | zero => simp [xorSum]
  | succ n ih => rw [xorSum, ih, xorSum, Bool.xor_assoc]

theorem parity_xor (a b : BitVec w) : parity (a ^^^ b) = (parity a ^^ parity b) := by
  have hbits : (a ^^^ b).getLsbD = fun i => a.getLsbD i ^^ b.getLsbD i := by
    funext i
    exact BitVec.getLsbD_xor
  rw [parity, hbits, xorSum_xor]
  rfl

theorem xorSum_false (n : ℕ) : xorSum (fun _ => false) n = false := by
  induction n with
  | zero => rfl
  | succ n ih => rw [xorSum, ih]; rfl

theorem parity_zero : parity (0#w) = false := by
  have hbits : (0#w).getLsbD = fun _ => false := by
    funext i
    exact BitVec.getLsbD_zero
  rw [parity, hbits, xorSum_false]

theorem parity_lowest (hw : 0 < w) (b : Bool) : parity (lowest w b) = b := by
  obtain ⟨n, rfl⟩ : ∃ n, w = n + 1 := ⟨w - 1, by omega⟩
  have hbits : (fun i => (lowest (n + 1) b).getLsbD (i + 1)) = fun _ => false := by
    funext i
    rw [getLsbD_lowest]
    simp
  rw [parity, xorSum_succ_eq, hbits, xorSum_false, getLsbD_lowest]
  simp

/-- With an odd number of taps, moving keeps the parity. -/
theorem parity_shift (hodd : parity taps = true) (c : BitVec w) : parity (shift taps c) = parity c := by
  have hdown : parity (c >>> 1) = (c.getLsbD 0 ^^ parity c) := by
    have hbits : (c >>> 1).getLsbD = fun i => c.getLsbD (i + 1) := by
      funext i
      rw [BitVec.getLsbD_ushiftRight, Nat.add_comm]
    have hends := xorSum_succ_eq c.getLsbD w
    rw [xorSum, BitVec.getLsbD_of_ge c w le_rfl, Bool.xor_false] at hends
    rw [parity, hbits, parity, hends, ← Bool.xor_assoc, Bool.xor_self, Bool.false_xor]
  rw [shift, parity_xor, hdown]
  cases c.getLsbD 0 with
  | true => rw [if_pos rfl, hodd]; cases parity c <;> rfl
  | false => rw [if_neg (by simp), parity_zero]; simp

/-- The parity of the register is that of the bits it was fed. -/
theorem parity_feed (hw : 0 < w) (hodd : parity taps = true) (c : BitVec w) (bits : List Bool) :
    parity (feed taps c bits) = (parity c ^^ bits.foldr (· ^^ ·) false) := by
  induction bits generalizing c with
  | nil => simp
  | cons b bits ih =>
    rw [feed_cons, ih, parity_shift hodd, parity_xor, parity_lowest hw, List.foldr_cons, Bool.xor_assoc]

end InfusedModbus.Foundation.ShiftRegister
