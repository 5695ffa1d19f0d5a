import InfusedModbus.Foundation.Store
import Mathlib.Data.List.Nodup

/-! A feed of changes. The sender keeps what it last sent under each key and sends only what
compares different from it; the receiver keeps what it last got, or that nothing is known. The
comparison need not be equality, and the receiver may have been told other things in between. A
turn leaves the receiver exact and sends nothing it already has just when the sender's record
compares equal to a current value exactly where the receiver has that value. -/

namespace InfusedModbus.Foundation

variable {κ ν : Type} [DecidableEq κ] (same : ν → ν → Bool)

/-- The record compares equal to the entry. -/
def recorded (record : Store κ ν) (entry : κ × ν) : Bool :=
  match record.get entry.1 with
  | some value => same value entry.2
  | none => false

/-- What a turn sends, and the record after it. -/
def changes (record : Store κ ν) : List (κ × ν) → List (κ × ν) × Store κ ν
  | [] => ([], record)
  | entry :: entries =>
    if recorded same record entry then changes record entries
    else
      let (changed, record) := changes (record.set entry.1 entry.2) entries
      (entry :: changed, record)

/-- What a receiver knows after it has got some entries. -/
def receive (view : Store κ (Option ν)) (entries : List (κ × ν)) : Store κ (Option ν) :=
  view.setAll (entries.map fun entry => (entry.1, some entry.2))

variable {same} {record : Store κ ν} {entries : List (κ × ν)}

theorem recorded_set_of_ne {entry other : κ × ν} (h : other.1 ≠ entry.1) :
    recorded same (record.set entry.1 entry.2) other = recorded same record other := by
  rw [recorded, recorded, Store.get_set_of_ne _ _ h]

/-- Of distinct keys, what is sent is what compared different before the turn. -/
theorem changes_fst (hkeys : (entries.map Prod.fst).Nodup) :
    (changes same record entries).1 = entries.filter fun entry => !recorded same record entry := by
  induction entries generalizing record with
  | nil => rfl
  | cons entry entries ih =>
    obtain ⟨hentry, hkeys⟩ := List.nodup_cons.mp hkeys
    rw [changes]
    split
    · next hrecorded => rw [ih hkeys, List.filter_cons_of_neg (by simp [hrecorded])]
    · next hrecorded =>
      rw [List.filter_cons_of_pos (by simpa using hrecorded)]
      dsimp only
      rw [ih hkeys]
      congr 1
      apply List.filter_congr
      intro other hother
      have hne : other.1 ≠ entry.1 := fun heq => hentry (heq ▸ List.mem_map_of_mem hother)
      rw [recorded_set_of_ne hne]

/-- The record takes over what is sent. -/
theorem changes_snd : (changes same record entries).2 = record.setAll (changes same record entries).1 := by
  induction entries generalizing record with
  | nil => rfl
  | cons entry entries ih =>
    rw [changes]
    split
    · exact ih
    · exact ih

/-- A receiver has what it was sent. -/
theorem get_receive_of_mem (view : Store κ (Option ν)) (hkeys : (entries.map Prod.fst).Nodup) {entry : κ × ν}
    (h : entry ∈ entries) : (receive view entries).get entry.1 = some (some entry.2) := by
  apply Store.get_setAll_of_mem
  · rw [List.map_map]
    exact hkeys
  · exact List.mem_map_of_mem h

theorem get_receive_of_notMem (view : Store κ (Option ν)) {k : κ} (h : k ∉ entries.map Prod.fst) :
    (receive view entries).get k = view.get k := by
  apply Store.get_setAll_of_notMem
  rw [List.map_map]
  exact h

/-- After a turn the receiver has every current value, and was sent none that it had. -/
structure ExactTurn (same : ν → ν → Bool) (record : Store κ ν) (view : Store κ (Option ν)) (entries : List (κ × ν)) :
    Prop where
  exact : ∀ entry ∈ entries,
    (receive view (changes same record entries).1).get entry.1 = some (some entry.2)
  needed : ∀ entry ∈ entries, view.get entry.1 = some (some entry.2) → entry ∉ (changes same record entries).1

/-- The record compares equal to a current value just where the receiver has it. -/
def InSync (same : ν → ν → Bool) (record : Store κ ν) (view : Store κ (Option ν)) (entries : List (κ × ν)) : Prop :=
  ∀ entry ∈ entries, recorded same record entry ↔ view.get entry.1 = some (some entry.2)

theorem exactTurn_iff (hkeys : (entries.map Prod.fst).Nodup) (view : Store κ (Option ν)) :
    ExactTurn same record view entries ↔ InSync same record view entries := by
  have hsent : ((changes same record entries).1.map Prod.fst).Nodup := by
    rw [changes_fst hkeys]
    exact hkeys.sublist (List.filter_sublist.map _)
  have hmem : ∀ entry ∈ entries, entry ∈ (changes same record entries).1 ↔ ¬recorded same record entry := by
    intro entry hentry
    rw [changes_fst hkeys, List.mem_filter]
    simp [hentry]
  -- what is not sent leaves the receiver as it was
  have hkept : ∀ entry ∈ entries, recorded same record entry →
      (receive view (changes same record entries).1).get entry.1 = view.get entry.1 := by
    intro entry hentry hrecorded
    apply get_receive_of_notMem
    intro hkey
    obtain ⟨other, hother, hsame⟩ := List.mem_map.mp hkey
    have hother' : other ∈ entries := by
      rw [changes_fst hkeys] at hother
      exact (List.mem_filter.mp hother).1
    obtain rfl := List.inj_on_of_nodup_map hkeys hother' hentry hsame
    exact (hmem other hentry).mp hother hrecorded
  constructor
  · intro h entry hentry
    constructor
    · intro hrecorded
      rw [← hkept entry hentry hrecorded]
      exact h.exact entry hentry
    · intro hview
      by_contra hrecorded
      exact h.needed entry hentry hview ((hmem entry hentry).mpr hrecorded)
  · intro h
    refine ⟨?_, ?_⟩
    · intro entry hentry
      by_cases hrecorded : recorded same record entry = true
      · rw [hkept entry hentry hrecorded]
        exact (h entry hentry).mp hrecorded
      · exact get_receive_of_mem view hsent ((hmem entry hentry).mpr hrecorded)
    · intro entry hentry hview hsentEntry
      exact (hmem entry hentry).mp hsentEntry ((h entry hentry).mpr hview)

end InfusedModbus.Foundation
