import InfusedModbus.Foundation.Store

/-! Jobs that write a store one after another. A job that succeeds puts its entries into
the store, one that fails leaves the store alone, and neither goes beyond its own keys.
After all of them a key holds what the last successful job on it wrote, or what it held
before when there was none. -/

namespace InfusedModbus.Foundation

variable {β γ κ ν : Type} (keys : β → List κ) (entries : β → List (κ × ν)) (succeeded : γ → Prop)

/-- What a job of this outcome may do to a store. -/
structure JobStep (job : β) (outcome : γ) (s s' : Store κ ν) : Prop where
  frame : ∀ k ∉ keys job, s'.get k = s.get k
  failed : ¬succeeded outcome → s' = s
  done : succeeded outcome → ∀ entry ∈ entries job, s'.get entry.1 = some entry.2

/-- The jobs of a list, in order, with their outcomes. -/
def JobSteps : List (β × γ) → Store κ ν → Store κ ν → Prop
  | [], s, s' => s' = s
  | (job, outcome) :: jobs, s, s' =>
    ∃ s₁, JobStep keys entries succeeded job outcome s s₁ ∧ JobSteps jobs s₁ s'

variable {keys entries succeeded}

/-- A failed job. -/
theorem jobStep_self {job : β} {outcome : γ} (h : ¬succeeded outcome) (s : Store κ ν) :
    JobStep keys entries succeeded job outcome s s :=
  ⟨fun _ _ => rfl, fun _ => rfl, fun hdone => absurd hdone h⟩

/-- A successful job that inserts its entries, one for each of its keys. -/
theorem jobStep_setAll [DecidableEq κ] {job : β} {outcome : γ} (h : succeeded outcome)
    (hkeys : (entries job).map Prod.fst = keys job) (hnodup : (keys job).Nodup) (s : Store κ ν) :
    JobStep keys entries succeeded job outcome s (s.setAll (entries job)) where
  frame _ hk := Store.get_setAll_of_notMem s (hkeys ▸ hk)
  failed hfailed := absurd h hfailed
  done _ _ hentry := Store.get_setAll_of_mem s (hkeys ▸ hnodup) hentry

/-- A successful job that writes something under its key, whatever it is. -/
theorem jobStep_set [DecidableEq κ] {job : β} {outcome : γ} (h : succeeded outcome) {k : κ} (hkeys : keys job = [k])
    (hentries : entries job = []) (s : Store κ ν) (v : ν) :
    JobStep keys entries succeeded job outcome s (s.set k v) where
  frame k' hk' := Store.get_set_of_ne s v fun heq => hk' (by rw [hkeys, heq, List.mem_singleton])
  failed hfailed := absurd h hfailed
  done _ entry hentry := by
    rw [hentries] at hentry
    exact (List.not_mem_nil hentry).elim

/-- A key was written last by a successful job of its own, or never. -/
theorem JobSteps.get {jobs : List (β × γ)} {s s' : Store κ ν} (h : JobSteps keys entries succeeded jobs s s') (k : κ) :
    (s'.get k = s.get k ∧ ∀ job ∈ jobs, succeeded job.2 → k ∉ keys job.1) ∨
      ∃ job ∈ jobs, succeeded job.2 ∧ k ∈ keys job.1 ∧ ∀ v, (k, v) ∈ entries job.1 → s'.get k = some v := by
  induction jobs generalizing s with
  | nil =>
    obtain rfl := h
    exact .inl ⟨rfl, fun job hjob => (List.not_mem_nil hjob).elim⟩
  | cons job jobs ih =>
    obtain ⟨s₁, hstep, hrest⟩ := h
    rcases ih hrest with ⟨hget, hnone⟩ | ⟨last, hlast, hdone, hkey, hentry⟩
    · by_cases hwrites : succeeded job.2 ∧ k ∈ keys job.1
      · refine .inr ⟨job, List.mem_cons_self, hwrites.1, hwrites.2, fun v hv => ?_⟩
        rw [hget]
        exact hstep.done hwrites.1 (k, v) hv
      · refine .inl ⟨?_, ?_⟩
        · rw [hget]
          by_cases hdone : succeeded job.2
          · exact hstep.frame k fun hkey => hwrites ⟨hdone, hkey⟩
          · rw [hstep.failed hdone]
        · intro other hother hdone hkey
          rcases List.mem_cons.mp hother with rfl | hother
          · exact hwrites ⟨hdone, hkey⟩
          · exact hnone other hother hdone hkey
    · exact .inr ⟨last, List.mem_cons_of_mem _ hlast, hdone, hkey, hentry⟩

/-- A key that no successful job has is left alone. -/
theorem JobSteps.unchanged {jobs : List (β × γ)} {s s' : Store κ ν} (h : JobSteps keys entries succeeded jobs s s')
    {k : κ} (hk : ∀ job ∈ jobs, succeeded job.2 → k ∉ keys job.1) : s'.get k = s.get k := by
  rcases h.get k with ⟨hget, -⟩ | ⟨job, hjob, hdone, hkey, -⟩
  · exact hget
  · exact absurd hkey (hk job hjob hdone)

/-- When all jobs agree on what a key is to hold, one success suffices. -/
theorem JobSteps.written {jobs : List (β × γ)} {s s' : Store κ ν} (h : JobSteps keys entries succeeded jobs s s')
    {job : β × γ} (hjob : job ∈ jobs) (hdone : succeeded job.2) {k : κ} (hkey : k ∈ keys job.1) {v : ν}
    (hagree : ∀ other ∈ jobs, k ∈ keys other.1 → (k, v) ∈ entries other.1) : s'.get k = some v := by
  rcases h.get k with ⟨-, hnone⟩ | ⟨last, hlast, -, hkey', hentry⟩
  · exact absurd hkey (hnone job hjob hdone)
  · exact hentry v (hagree last hlast hkey')

end InfusedModbus.Foundation
