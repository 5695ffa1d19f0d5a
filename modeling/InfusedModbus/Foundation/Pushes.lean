import InfusedModbus.Foundation.Outcome

/-! A container filled by pushes, each of which may be refused. If every push keeps the
container in step with a list, adding its entry at the end or leaving the list alone, then
after any calls the accessor returns the entries of the accepted ones. -/

namespace InfusedModbus.Foundation

open Outcome

variable {σ ι β δ : Type}

/-- The container after the calls, and the calls that were accepted. -/
def pushEach (push : σ → ι → Outcome Empty (σ × Except δ Unit)) : σ → List ι → Outcome Empty (σ × List ι)
  | s, [] => .ok (s, [])
  | s, call :: calls => do
    let (after, result) ← push s call
    let (last, accepted) ← pushEach push after calls
    match result with
    | .ok _ => pure (last, call :: accepted)
    | .error _ => pure (last, accepted)

/-- After any calls on a new container, entry `i` is that of the `i`-th accepted one, and
there are no others. A refused call changes nothing that can be read. -/
structure ReturnsPushed (new : σ) (push : σ → ι → Outcome Empty (σ × Except δ Unit)) (count : σ → ℕ)
    (entry : σ → ℕ → Outcome Empty (Option β)) (pushed : ι → β) : Prop where
  returned : ∀ calls, ∃ s accepted, pushEach push new calls = .ok (s, accepted) ∧ count s = accepted.length ∧
    ∀ i, entry s i = .ok (accepted.map pushed)[i]?
  refused : ∀ calls s accepted call after e, pushEach push new calls = .ok (s, accepted) →
    push s call = .ok (after, .error e) → count after = count s ∧ ∀ i, entry after i = entry s i

section Represents

variable {represents : σ → List β → Prop} {push : σ → ι → Outcome Empty (σ × Except δ Unit)} {pushed : ι → β}
  (hpush : ∀ s xs call, represents s xs →
    (∃ after, push s call = .ok (after, .ok ()) ∧ represents after (xs ++ [pushed call])) ∨
      ∃ after e, push s call = .ok (after, .error e) ∧ represents after xs)

include hpush

/-- The accepted calls come behind what the container had. -/
theorem represents_pushEach {s : σ} {xs : List β} (h : represents s xs) (calls : List ι) :
    ∃ last accepted, pushEach push s calls = .ok (last, accepted) ∧ represents last (xs ++ accepted.map pushed) := by
  induction calls generalizing s xs with
  | nil => exact ⟨s, [], rfl, by rwa [List.map_nil, List.append_nil]⟩
  | cons call calls ih =>
    rcases hpush s xs call h with ⟨after, hok, hafter⟩ | ⟨after, e, herr, hafter⟩
    · obtain ⟨last, accepted, hrest, hlast⟩ := ih hafter
      refine ⟨last, call :: accepted, ?_, ?_⟩
      · simp only [pushEach, hok, ok_bind, hrest, pure_eq]
      · rwa [List.append_assoc] at hlast
    · obtain ⟨last, accepted, hrest, hlast⟩ := ih hafter
      refine ⟨last, accepted, ?_, hlast⟩
      simp only [pushEach, herr, ok_bind, hrest, pure_eq]

theorem returnsPushed_of_represents {new : σ} {count : σ → ℕ} {entry : σ → ℕ → Outcome Empty (Option β)}
    (hnew : represents new [])
    (hread : ∀ s xs, represents s xs → count s = xs.length ∧ ∀ i, entry s i = .ok xs[i]?) :
    ReturnsPushed new push count entry pushed := by
  constructor
  · intro calls
    obtain ⟨last, accepted, hrun, hlast⟩ := represents_pushEach hpush hnew calls
    obtain ⟨hcount, hentry⟩ := hread last _ hlast
    refine ⟨last, accepted, hrun, ?_, ?_⟩
    · rw [hcount, List.nil_append, List.length_map]
    · intro i
      rw [hentry, List.nil_append]
  · intro calls s accepted call after e hrun herr
    obtain ⟨last, accepted', hrun', hlast⟩ := represents_pushEach hpush hnew calls
    obtain ⟨rfl, rfl⟩ : s = last ∧ accepted = accepted' := by
      have hpair := Outcome.ok.inj (hrun.symm.trans hrun')
      exact Prod.mk.inj hpair
    rcases hpush s _ call hlast with ⟨after', hok, -⟩ | ⟨after', e', herr', hafter⟩
    · have hpair := Prod.mk.inj (Outcome.ok.inj (herr.symm.trans hok))
      cases hpair.2
    · obtain ⟨rfl, -⟩ := Prod.mk.inj (Outcome.ok.inj (herr.symm.trans herr'))
      obtain ⟨hcount, hentry⟩ := hread s _ hlast
      obtain ⟨hcount', hentry'⟩ := hread after _ hafter
      refine ⟨hcount'.trans hcount.symm, ?_⟩
      intro i
      rw [hentry, hentry']

end Represents

end InfusedModbus.Foundation
