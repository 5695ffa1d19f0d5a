import Mathlib.Data.List.Basic

/-! Systems with several actors. A step may be impossible; an execution is a list of
actions, in the order in which they happened. An invariant that every permitted
action keeps holds in every state of every execution of permitted actions. -/

namespace InfusedModbus.Foundation

variable {σ α : Type}

/-- The state after the actions, if each was possible when it came. -/
def execute (step : σ → α → Option σ) : σ → List α → Option σ
  | s, [] => some s
  | s, a :: as => (step s a).bind fun s' => execute step s' as

@[simp] theorem execute_nil (step : σ → α → Option σ) (s : σ) : execute step s [] = some s := rfl

theorem execute_cons_eq_some {step : σ → α → Option σ} {s t : σ} {a : α} {as : List α} :
    execute step s (a :: as) = some t ↔ ∃ s', step s a = some s' ∧ execute step s' as = some t := by
  simp only [execute, Option.bind_eq_some_iff]

theorem execute_append {step : σ → α → Option σ} {s t : σ} {as bs : List α} :
    execute step s (as ++ bs) = some t ↔ ∃ s', execute step s as = some s' ∧ execute step s' bs = some t := by
  induction as generalizing s with
  | nil => simp
  | cons a as ih =>
    simp only [List.cons_append, execute_cons_eq_some, ih]
    constructor
    · rintro ⟨s', hstep, s'', hleft, hright⟩
      exact ⟨s'', ⟨s', hstep, hleft⟩, hright⟩
    · rintro ⟨s'', ⟨s', hstep, hleft⟩, hright⟩
      exact ⟨s', hstep, s'', hleft, hright⟩

/-- Every action is permitted in the state in which it happens. -/
def Permitted (step : σ → α → Option σ) (permit : σ → α → Prop) : σ → List α → Prop
  | _, [] => True
  | s, a :: as => permit s a ∧ ∀ s', step s a = some s' → Permitted step permit s' as

/-- An action that is permitted, and what is permitted after it. -/
theorem permitted_cons {step : σ → α → Option σ} {permit : σ → α → Prop} {s s' : σ} {a : α} {as : List α}
    (ha : permit s a) (h : step s a = some s') (has : Permitted step permit s' as) :
    Permitted step permit s (a :: as) := by
  refine ⟨ha, ?_⟩
  intro s'' h'
  obtain rfl := Option.some.inj (h.symm.trans h')
  exact has

/-- An invariant of the permitted steps holds after every permitted execution. -/
theorem invariant_of_execute {step : σ → α → Option σ} {permit : σ → α → Prop} {inv : σ → Prop}
    (hstep : ∀ s a s', inv s → permit s a → step s a = some s' → inv s') {s t : σ} (hs : inv s) {as : List α}
    (has : Permitted step permit s as) (h : execute step s as = some t) : inv t := by
  induction as generalizing s with
  | nil =>
    obtain rfl := Option.some.inj h
    exact hs
  | cons a as ih =>
    obtain ⟨s', hs', hrest⟩ := execute_cons_eq_some.mp h
    exact ih (hstep s a s' hs has.1 hs') (has.2 s' hs') hrest

/-- Under an invariant of every step, what is permitted may be said in another way. -/
theorem permitted_congr {step : σ → α → Option σ} {permit permit' : σ → α → Prop} {inv : σ → Prop}
    (hstep : ∀ s a s', inv s → step s a = some s' → inv s') (h : ∀ s a, inv s → (permit s a ↔ permit' s a)) {s : σ}
    (hs : inv s) (as : List α) : Permitted step permit s as ↔ Permitted step permit' s as := by
  induction as generalizing s with
  | nil => exact Iff.rfl
  | cons a as ih =>
    constructor
    · rintro ⟨ha, has⟩
      exact ⟨(h s a hs).mp ha, fun s' hs' => (ih (hstep s a s' hs hs')).mp (has s' hs')⟩
    · rintro ⟨ha, has⟩
      exact ⟨(h s a hs).mpr ha, fun s' hs' => (ih (hstep s a s' hs hs')).mpr (has s' hs')⟩

/-- Actions that are always permitted make a permitted execution. -/
theorem permitted_of_forall {step : σ → α → Option σ} {permit : σ → α → Prop} {as : List α}
    (h : ∀ a ∈ as, ∀ s, permit s a) (s : σ) : Permitted step permit s as := by
  induction as generalizing s with
  | nil => trivial
  | cons a as ih =>
    have hrest : ∀ b ∈ as, ∀ s, permit s b := fun b hb => h b (List.mem_cons_of_mem a hb)
    exact ⟨h a List.mem_cons_self s, fun s' _ => ih hrest s'⟩

/-- Two executions, one after the other. -/
theorem permitted_append {step : σ → α → Option σ} {permit : σ → α → Prop} {s t : σ} {as bs : List α}
    (has : Permitted step permit s as) (h : execute step s as = some t) (hbs : Permitted step permit t bs) :
    Permitted step permit s (as ++ bs) := by
  induction as generalizing s with
  | nil =>
    obtain rfl := Option.some.inj h
    exact hbs
  | cons a as ih =>
    obtain ⟨s', hstep, hrest⟩ := execute_cons_eq_some.mp h
    exact permitted_cons has.1 hstep (ih (has.2 s' hstep) hrest)

end InfusedModbus.Foundation
