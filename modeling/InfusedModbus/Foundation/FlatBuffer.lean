import InfusedModbus.Foundation.Outcome
import Mathlib.Algebra.GroupWithZero.Nat
import Mathlib.Data.List.SplitLengths

/-! Several pieces kept end to end in one buffer, with the length of each on the
side. As long as the lengths add up to the buffer, a piece is found again by adding
up the lengths before it, and appending a piece changes none of the others. -/

namespace InfusedModbus.Foundation

open Outcome

variable {ε α : Type}

/-- Piece `i` lies between the sum of the lengths before it and that sum with its own length. -/
theorem slice_splitLengths {xs : List α} {sizes : List ℕ} (hsum : sizes.sum = xs.length) {i : ℕ}
    (hi : i < sizes.length) :
    (slice xs (sizes.take i).sum ((sizes.take i).sum + sizes[i]) : Outcome ε (List α)) =
      .ok ((sizes.splitLengths xs).get ⟨i, by simpa using hi⟩) := by
  induction sizes generalizing xs i with
  | nil => simp at hi
  | cons n sizes ih =>
    rw [List.sum_cons] at hsum
    cases i with
    | zero =>
      simp only [List.take_zero, List.sum_nil, Nat.zero_add, List.getElem_cons_zero]
      rw [slice_of_le (by omega) (by omega)]
      simp
    | succ i =>
      have hdrop : sizes.sum = (xs.drop n).length := by simp; omega
      simp only [List.take_succ_cons, List.sum_cons, List.getElem_cons_succ, Nat.add_assoc]
      rw [slice_add (by omega), ih hdrop (by simpa using hi)]
      simp

theorem splitLengths_concat {xs : List α} {sizes : List ℕ} (hsum : sizes.sum = xs.length) (ys : List α) :
    (sizes ++ [ys.length]).splitLengths (xs ++ ys) = sizes.splitLengths xs ++ [ys] := by
  induction sizes generalizing xs with
  | nil =>
    obtain rfl : xs = [] := List.length_eq_zero_iff.mp (by simpa using hsum.symm)
    simp
  | cons n sizes ih =>
    rw [List.sum_cons] at hsum
    have hdrop : sizes.sum = (xs.drop n).length := by simp; omega
    have htail := ih hdrop
    simp only [List.cons_append, List.splitLengths_cons, List.take_append_of_le_length (show n ≤ xs.length by omega),
      List.drop_append_of_le_length (show n ≤ xs.length by omega), htail]

end InfusedModbus.Foundation
