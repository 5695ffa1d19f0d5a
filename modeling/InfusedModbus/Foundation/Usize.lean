import Mathlib.Algebra.Group.Nat.Defs
import InfusedModbus.Foundation.Outcome

/-! Unsigned machine arithmetic on words of `w` bits where a result that does not fit
panics, and sums as a given build forms them, which may wrap around instead. As long as
the results fit it is the arithmetic of natural numbers. -/

namespace InfusedModbus.Foundation

open Outcome

variable {ε : Type} {w a b : ℕ}

def usizeAdd (w a b : ℕ) : Outcome ε ℕ := if a + b < 2 ^ w then .ok (a + b) else .panic

def usizeMul (w a b : ℕ) : Outcome ε ℕ := if a * b < 2 ^ w then .ok (a * b) else .panic

def usizeSub (a b : ℕ) : Outcome ε ℕ := if b ≤ a then .ok (a - b) else .panic

/-- What the code was built to check when it runs, and the width of its words. -/
structure Build where
  debugAssertions : Bool
  overflowChecks : Bool
  usizeBits : ℕ

/-- A sum that does not fit panics where overflow is checked and wraps around elsewhere. -/
def usizeSum (build : Build) (a b : ℕ) : Outcome ε ℕ :=
  if build.overflowChecks then usizeAdd build.usizeBits a b else .ok ((a + b) % 2 ^ build.usizeBits)

/-- A write to a container that first forms its new length. -/
def grown {σ : Type} (w used more : ℕ) (write : Outcome ε σ) : Outcome ε σ := usizeAdd w used more >>= fun _ => write

theorem usizeAdd_of_lt (h : a + b < 2 ^ w) : (usizeAdd w a b : Outcome ε ℕ) = .ok (a + b) := if_pos h

theorem usizeMul_of_lt (h : a * b < 2 ^ w) : (usizeMul w a b : Outcome ε ℕ) = .ok (a * b) := if_pos h

theorem usizeSub_of_le (h : b ≤ a) : (usizeSub a b : Outcome ε ℕ) = .ok (a - b) := if_pos h

theorem usizeAdd_eq_ok {c : ℕ} (h : (usizeAdd w a b : Outcome ε ℕ) = .ok c) : c = a + b := by
  unfold usizeAdd at h
  split at h
  · exact (ok.inj h).symm
  · cases h

theorem grown_of_lt {σ : Type} (h : a + b < 2 ^ w) (write : Outcome ε σ) : grown w a b write = write := by
  rw [grown, usizeAdd_of_lt h, ok_bind]

theorem usizeSum_of_lt {build : Build} (h : a + b < 2 ^ build.usizeBits) :
    (usizeSum build a b : Outcome ε ℕ) = .ok (a + b) := by
  unfold usizeSum
  split
  · exact usizeAdd_of_lt h
  · rw [Nat.mod_eq_of_lt h]

/-- A sum of two words that does not fit is smaller than either of them, if it is formed at all. -/
theorem lt_of_usizeSum_eq_ok {build : Build} {c : ℕ} (h : (usizeSum build a b : Outcome ε ℕ) = .ok c)
    (hover : 2 ^ build.usizeBits ≤ a + b) (ha : a < 2 ^ build.usizeBits) (hb : b < 2 ^ build.usizeBits) : c < a := by
  unfold usizeSum at h
  split at h
  · rw [usizeAdd, if_neg (by omega)] at h
    cases h
  · have hmod : (a + b) % 2 ^ build.usizeBits = a + b - 2 ^ build.usizeBits := by
      rw [Nat.mod_eq_sub_mod hover, Nat.mod_eq_of_lt (by omega)]
    obtain rfl := ok.inj h
    omega

/-- A buffer holds at most half as many cells as a word has values. From 32 bits on, a
position in a buffer moved by less than a quarter of a million still fits the word. -/
theorem add_lt_of_buffer {len i n : ℕ} (hw : 32 ≤ w) (hlen : len < 2 ^ (w - 1)) (hi : i ≤ len) (hn : n < 262144) :
    i + n < 2 ^ w := by
  have hhalf : 2 ^ (w - 1) * 2 = 2 ^ w := by
    rw [← Nat.pow_succ, Nat.succ_eq_add_one, Nat.sub_add_cancel (by omega)]
  have hmin : 2 ^ 31 ≤ 2 ^ (w - 1) := Nat.pow_le_pow_right (by omega) (by omega)
  omega

end InfusedModbus.Foundation
