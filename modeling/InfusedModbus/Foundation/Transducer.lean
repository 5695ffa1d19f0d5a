import Mathlib.Data.List.Basic

/-! Deterministic systems that answer every input. A run collects the answers.
An invariant kept by every step holds after a run; a relation kept by every step
of two systems, under which they answer alike, makes their runs answer alike; and
if they answer differently outside a set of good inputs, the runs answer alike
exactly on the runs of good inputs. -/

namespace InfusedModbus.Foundation

variable {σ τ ι ο : Type}

/-- Feed the inputs in order; the last state and the answers. -/
def run (step : σ → ι → σ × ο) : σ → List ι → σ × List ο
  | s, [] => (s, [])
  | s, i :: is => ((run step (step s i).1 is).1, (step s i).2 :: (run step (step s i).1 is).2)

@[simp] theorem run_nil (step : σ → ι → σ × ο) (s : σ) : run step s [] = (s, []) := rfl

@[simp] theorem run_cons (step : σ → ι → σ × ο) (s : σ) (i : ι) (is : List ι) :
    run step s (i :: is) =
      ((run step (step s i).1 is).1, (step s i).2 :: (run step (step s i).1 is).2) := rfl

theorem run_append_inputs (step : σ → ι → σ × ο) (s : σ) (is js : List ι) :
    run step s (is ++ js) =
      ((run step (run step s is).1 js).1, (run step s is).2 ++ (run step (run step s is).1 js).2) := by
  induction is generalizing s with
  | nil => rfl
  | cons i is ih => simp [ih]

/-- An invariant kept by every good step holds after a run of good inputs. -/
theorem run_invariant {step : σ → ι → σ × ο} {inv : σ → Prop} {good : ι → Prop}
    (hstep : ∀ s i, inv s → good i → inv (step s i).1) {s : σ} (hs : inv s) {is : List ι}
    (his : ∀ i ∈ is, good i) : inv (run step s is).1 := by
  induction is generalizing s with
  | nil => exact hs
  | cons i is ih =>
    exact ih (hstep s i hs (his i (by simp))) (fun j hj => his j (by simp [hj]))

variable {step : σ → ι → σ × ο} {step' : τ → ι → τ × ο} {rel : σ → τ → Prop} {good : ι → Prop}

/-- Related systems answer a run of good inputs alike and stay related. -/
theorem run_simulation
    (hstep : ∀ s t i, rel s t → good i → (step s i).2 = (step' t i).2 ∧ rel (step s i).1 (step' t i).1)
    {s : σ} {t : τ} (hst : rel s t) {is : List ι} (his : ∀ i ∈ is, good i) :
    (run step s is).2 = (run step' t is).2 ∧ rel (run step s is).1 (run step' t is).1 := by
  induction is generalizing s t with
  | nil => exact ⟨rfl, hst⟩
  | cons i is ih =>
    obtain ⟨hout, hrel⟩ := hstep s t i hst (his i (by simp))
    obtain ⟨houts, hrels⟩ := ih hrel (fun j hj => his j (by simp [hj]))
    exact ⟨by simp [hout, houts], hrels⟩

/-- When a bad input is always answered differently, the runs that answer alike
are exactly those without one. -/
theorem run_outputs_eq_iff
    (hgood : ∀ s t i, rel s t → good i → (step s i).2 = (step' t i).2 ∧ rel (step s i).1 (step' t i).1)
    (hbad : ∀ s t i, rel s t → ¬good i → (step s i).2 ≠ (step' t i).2)
    {s : σ} {t : τ} (hst : rel s t) (is : List ι) :
    (run step s is).2 = (run step' t is).2 ↔ ∀ i ∈ is, good i := by
  refine ⟨fun h => ?_, fun h => (run_simulation hgood hst h).1⟩
  induction is generalizing s t with
  | nil => simp
  | cons i is ih =>
    simp only [run_cons, List.cons.injEq] at h
    have hi : good i := by
      by_contra hi
      exact hbad s t i hst hi h.1
    intro j hj
    rcases List.mem_cons.mp hj with rfl | hj
    · exact hi
    · exact ih (hgood s t i hst hi).2 h.2 j hj

end InfusedModbus.Foundation
