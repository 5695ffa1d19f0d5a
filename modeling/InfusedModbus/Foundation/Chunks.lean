import Mathlib.Data.List.Basic
import Mathlib.Tactic.Positivity

/-! Cutting a list into pieces of a fixed length, the last one possibly shorter. The
pieces in order are the list, none is empty, and their number is the length divided
by the piece length, rounded up. -/

namespace InfusedModbus.Foundation

variable {α : Type}

/-- Consecutive pieces of `n` elements; the last one has what is left. -/
def chunks (n : ℕ) (xs : List α) : List (List α) :=
  if _h : n = 0 ∨ xs = [] then [] else xs.take n :: chunks n (xs.drop n)
termination_by xs.length
decreasing_by
  have : 0 < xs.length := List.length_pos_iff.mpr (by tauto)
  simp only [List.length_drop]
  omega

@[simp] theorem chunks_nil (n : ℕ) : chunks n ([] : List α) = [] := by
  simp [chunks]

theorem chunks_of_ne_nil {n : ℕ} (hn : 0 < n) {xs : List α} (h : xs ≠ []) :
    chunks n xs = xs.take n :: chunks n (xs.drop n) := by
  rw [chunks, dif_neg (by simp [h]; omega)]

theorem flatten_chunks {n : ℕ} (hn : 0 < n) (xs : List α) : (chunks n xs).flatten = xs := by
  induction xs using chunks.induct n with
  | case1 xs h =>
    obtain rfl : xs = [] := h.resolve_left (by omega)
    simp
  | case2 xs h ih =>
    simp only [not_or] at h
    rw [chunks_of_ne_nil hn h.2, List.flatten_cons, ih, List.take_append_drop]

theorem length_chunks {n : ℕ} (hn : 0 < n) (xs : List α) : (chunks n xs).length = (xs.length + n - 1) / n := by
  induction xs using chunks.induct n with
  | case1 xs h =>
    obtain rfl : xs = [] := h.resolve_left (by omega)
    rw [chunks_nil, List.length_nil, List.length_nil, Nat.zero_add, Nat.div_eq_of_lt (by omega)]
  | case2 xs h ih =>
    simp only [not_or] at h
    have hpos : 0 < xs.length := List.length_pos_iff.mpr h.2
    rw [chunks_of_ne_nil hn h.2, List.length_cons, ih, List.length_drop]
    rcases Nat.lt_or_ge xs.length n with hlt | hge
    · rw [show xs.length - n + n - 1 = n - 1 by omega, Nat.div_eq_of_lt (by omega),
        show xs.length + n - 1 = xs.length - 1 + n by omega, Nat.add_div_right _ hn,
        Nat.div_eq_of_lt (by omega)]
    · rw [show xs.length + n - 1 = (xs.length - n + n - 1) + n by omega, Nat.add_div_right _ hn]

theorem mem_chunks {n : ℕ} (hn : 0 < n) {xs : List α} : ∀ c ∈ chunks n xs, c ≠ [] ∧ c.length ≤ n := by
  induction xs using chunks.induct n with
  | case1 xs h =>
    obtain rfl : xs = [] := h.resolve_left (by omega)
    simp
  | case2 xs h ih =>
    simp only [not_or] at h
    rw [chunks_of_ne_nil hn h.2, List.forall_mem_cons]
    refine ⟨⟨?_, by simp⟩, ih⟩
    simp only [ne_eq, List.take_eq_nil_iff, h.2, or_false]
    omega

end InfusedModbus.Foundation
