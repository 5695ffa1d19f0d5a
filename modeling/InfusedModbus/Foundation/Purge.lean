import InfusedModbus.Foundation.Transducer

/-! Parts of a system. A part has its own inputs: the others leave it alone, and what its
own make of it, and answer, depends on nothing but the part. After a run the part is then
as if the other inputs had never come, and so is every answer to one of its own. When
the parts make up the whole state, only the order of the inputs of each part counts. -/

namespace InfusedModbus.Foundation

variable {σ τ ι ο κ : Type}

/-- The part that `view` shows has the inputs that `own` picks. -/
structure IsPart (step : σ → ι → σ × ο) (view : σ → τ) (own : ι → Bool) : Prop where
  other : ∀ s i, own i = false → view (step s i).1 = view s
  step : ∀ s t i, own i = true → view s = view t → view (step s i).1 = view (step t i).1 ∧ (step s i).2 = (step t i).2

/-- The inputs that `own` picks, with their answers. -/
def exchangesOf (own : ι → Bool) (is : List ι) (os : List ο) : List (ι × ο) := (is.zip os).filter fun io => own io.1

variable {step : σ → ι → σ × ο} {view : σ → τ} {own : ι → Bool}

namespace IsPart

/-- The inputs of other parts can be left out. -/
theorem run_filter (h : IsPart step view own) {s t : σ} (hview : view s = view t) (is : List ι) :
    view (run step s is).1 = view (run step t (is.filter own)).1 ∧
      exchangesOf own is (run step s is).2 = (is.filter own).zip (run step t (is.filter own)).2 := by
  induction is generalizing s t with
  | nil => exact ⟨hview, rfl⟩
  | cons i is ih =>
    cases hown : own i with
    | false =>
      obtain ⟨hlast, hanswers⟩ := ih ((h.other s i hown).trans hview)
      rw [List.filter_cons_of_neg (by simp [hown]), run_cons]
      refine ⟨hlast, ?_⟩
      rw [exchangesOf, List.zip_cons_cons, List.filter_cons_of_neg (by simp [hown])]
      exact hanswers
    | true =>
      obtain ⟨hstep, hanswer⟩ := h.step s t i hown hview
      obtain ⟨hlast, hanswers⟩ := ih hstep
      rw [List.filter_cons_of_pos hown, run_cons, run_cons]
      refine ⟨hlast, ?_⟩
      rw [exchangesOf, List.zip_cons_cons, List.filter_cons, if_pos hown, List.zip_cons_cons, hanswer]
      exact congrArg _ hanswers

/-- Runs with the same inputs of a part leave it the same. -/
theorem run_eq (h : IsPart step view own) (s : σ) {is js : List ι} (hsame : is.filter own = js.filter own) :
    view (run step s is).1 = view (run step s js).1 := by
  rw [(h.run_filter rfl is).1, hsame, ← (h.run_filter rfl js).1]

end IsPart

/-- When the parts make up the whole, the order of inputs of different parts makes no difference. -/
theorem run_eq_of_parts {views : κ → σ → τ} {owns : κ → ι → Bool} (hparts : ∀ k, IsPart step (views k) (owns k))
    (hwhole : ∀ s t, (∀ k, views k s = views k t) → s = t) (s : σ) {is js : List ι}
    (hsame : ∀ k, is.filter (owns k) = js.filter (owns k)) : (run step s is).1 = (run step s js).1 :=
  hwhole _ _ fun k => (hparts k).run_eq s (hsame k)

end InfusedModbus.Foundation
