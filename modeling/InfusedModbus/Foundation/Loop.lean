import InfusedModbus.Foundation.Outcome
import Mathlib.Logic.Function.Iterate
import Mathlib.Tactic.Choose

/-! Loops without a bound of their own. A turn of the body starts another turn, ends
the loop with a result, fails or panics. A loop is run for a number of turns, and how
it ends does not depend on that number once it is large enough. An invariant that
counts the turns left makes a loop end within them. -/

namespace InfusedModbus.Foundation

variable {ε σ β : Type}

/-- How a turn of a loop ends when nothing goes wrong. -/
inductive Turn (σ β : Type) where
  | again (state : σ)
  | done (result : β)
  deriving DecidableEq, Repr

/-- At most so many turns; none when the loop is still running after them. -/
def loop (body : σ → Outcome ε (Turn σ β)) : ℕ → σ → Option (Outcome ε β)
  | 0, _ => none
  | turns + 1, s =>
    match body s with
    | .ok (.again s') => loop body turns s'
    | .ok (.done b) => some (.ok b)
    | .err e => some (.err e)
    | .panic => some .panic

variable {body : σ → Outcome ε (Turn σ β)} {s s' : σ} {r r' : Outcome ε β}

theorem loop_of_again (h : body s = .ok (.again s')) (turns : ℕ) : loop body (turns + 1) s = loop body turns s' := by
  rw [loop, h]

theorem loop_of_done {b : β} (h : body s = .ok (.done b)) (turns : ℕ) : loop body (turns + 1) s = some (.ok b) := by
  rw [loop, h]

/-- What is kept beside the state and the result can be left out. -/
def Turn.map {σ' β' : Type} (state : σ → σ') (result : β → β') : Turn σ β → Turn σ' β'
  | .again s => .again (state s)
  | .done b => .done (result b)

/-- A loop ends as one whose turns are the same up to what is left out. -/
theorem loop_map {σ' β' : Type} {body' : σ' → Outcome ε (Turn σ' β')} {state : σ → σ'} {result : β → β'}
    (h : ∀ s, (body s).map (Turn.map state result) = body' (state s)) (turns : ℕ) (s : σ) :
    (loop body turns s).map (Outcome.map result) = loop body' turns (state s) := by
  induction turns generalizing s with
  | zero => rfl
  | succ turns ih =>
    rw [loop, loop, ← h s]
    cases body s with
    | ok turn =>
      cases turn with
      | again s' => exact ih s'
      | done b => rfl
    | err e => rfl
    | panic => rfl

/-- A loop that ended stays ended when it is given more turns. -/
theorem loop_mono {turns turns' : ℕ} (hle : turns ≤ turns') (h : loop body turns s = some r) :
    loop body turns' s = some r := by
  induction turns generalizing turns' s with
  | zero => cases h
  | succ turns ih =>
    obtain ⟨more, rfl⟩ : ∃ more, turns' = more + 1 := ⟨turns' - 1, by omega⟩
    rw [loop] at h ⊢
    split at h
    · exact ih (by omega) h
    all_goals exact h

/-- A loop ends in one way only. -/
theorem loop_unique {turns turns' : ℕ} (h : loop body turns s = some r) (h' : loop body turns' s = some r') : r = r' := by
  have hmore := loop_mono (Nat.le_add_right turns turns') h
  have hmore' := loop_mono (Nat.le_add_left turns' turns) h'
  exact Option.some.inj (hmore.symm.trans hmore')

/-- A loop whose turns never end it has no result. -/
theorem loop_ne_ok (h : ∀ s b, body s ≠ .ok (.done b)) (turns : ℕ) (s : σ) (b : β) :
    loop body turns s ≠ some (.ok b) := by
  induction turns generalizing s with
  | zero => simp [loop]
  | succ turns ih =>
    rw [loop]
    split
    · exact ih _
    · next b hdone => exact absurd hdone (h s b)
    all_goals simp

/-- A loop whose turns never panic does not panic. -/
theorem loop_ne_panic (h : ∀ s, body s ≠ .panic) (turns : ℕ) (s : σ) : loop body turns s ≠ some .panic := by
  induction turns generalizing s with
  | zero => simp [loop]
  | succ turns ih =>
    rw [loop]
    split
    · exact ih _
    · simp
    · simp
    · next hpanic => exact absurd hpanic (h s)

/-- When every turn ends the loop well or keeps an invariant with fewer turns left,
the loop ends well within the turns left. -/
theorem loop_ends {inv : ℕ → σ → Prop} {post : Outcome ε β → Prop}
    (hbody : ∀ n s, inv n s → (∃ r, loop body 1 s = some r ∧ post r) ∨
      ∃ m < n, ∃ s', body s = .ok (.again s') ∧ inv m s')
    {n : ℕ} (h : inv n s) : ∃ turns ≤ n + 1, ∃ r, loop body turns s = some r ∧ post r := by
  induction n using Nat.strongRecOn generalizing s with
  | ind n ih =>
    rcases hbody n s h with ⟨r, hr, hpost⟩ | ⟨m, hlt, s', hturn, hinv⟩
    · exact ⟨1, by omega, r, hr, hpost⟩
    · obtain ⟨turns, hturns, r, hr, hpost⟩ := ih m hlt hinv
      exact ⟨turns + 1, by omega, r, by rw [loop_of_again hturn, hr], hpost⟩

/-- Turns that go on use up the turns of a loop. -/
theorem loop_of_run {states : ℕ → σ} {k : ℕ} (h : ∀ j < k, body (states j) = .ok (.again (states (j + 1)))) (turns : ℕ) :
    loop body (turns + k) (states 0) = loop body turns (states k) := by
  induction k generalizing turns with
  | zero => rfl
  | succ k ih =>
    rw [← Nat.add_assoc, Nat.add_right_comm, ih (fun j hj => h j (by omega)), loop_of_again (h k (by omega))]

/-- A loop that does not end after any number of turns has a turn after every turn. -/
theorem loop_eq_none_iff : (∀ turns, loop body turns s = none) ↔
    ∃ states : ℕ → σ, states 0 = s ∧ ∀ k, body (states k) = .ok (.again (states (k + 1))) := by
  constructor
  · intro h
    have hnext : ∀ s : { s : σ // ∀ turns, loop body turns s = none },
        ∃ s' : { s : σ // ∀ turns, loop body turns s = none }, body s.1 = .ok (.again s'.1) := by
      rintro ⟨s, hs⟩
      have hturn := hs 1
      rw [loop] at hturn
      split at hturn
      · next s' hagain =>
        exact ⟨⟨s', fun turns => by rw [← loop_of_again hagain, hs]⟩, hagain⟩
      all_goals cases hturn
    choose next hbody using hnext
    refine ⟨fun k => (next^[k] ⟨s, h⟩).1, rfl, fun k => ?_⟩
    dsimp only
    rw [hbody, Function.iterate_succ_apply']
  · rintro ⟨states, rfl, hstates⟩ turns
    have hrun := loop_of_run (fun j (_ : j < turns) => hstates j) 0
    rw [Nat.zero_add] at hrun
    rw [hrun, loop]

end InfusedModbus.Foundation
