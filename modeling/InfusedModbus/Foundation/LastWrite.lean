import Mathlib.Data.List.Basic

/-! What a log of events leaves in one place. An event may write some value to the place, and
that value stays until another event writes the place again. -/

namespace InfusedModbus.Foundation

variable {ε ν : Type} (writes : ε → ν → Prop)

/-- The value of the last event that wrote one, or the first value when none did. -/
def LastWritten (initial : Option ν) (log : List ε) (held : Option ν) : Prop :=
  (held = initial ∧ ∀ event ∈ log, ∀ value, ¬writes event value) ∨
    ∃ before event after value, log = before ++ event :: after ∧ writes event value ∧ held = some value ∧
      ∀ later ∈ after, ∀ other, ¬writes later other

variable {writes} {initial held : Option ν} {log : List ε}

theorem lastWritten_nil (initial : Option ν) : LastWritten writes initial [] initial :=
  .inl ⟨rfl, fun _ hevent => absurd hevent List.not_mem_nil⟩

/-- An event that writes nothing there. -/
theorem LastWritten.kept (h : LastWritten writes initial log held) {event : ε} (hnone : ∀ value, ¬writes event value) :
    LastWritten writes initial (log ++ [event]) held := by
  have hconcat : ∀ {events : List ε}, (∀ other ∈ events, ∀ value, ¬writes other value) →
      ∀ other ∈ events ++ [event], ∀ value, ¬writes other value := by
    intro events hevents other hother
    rcases List.mem_append.mp hother with hother | hother
    · exact hevents other hother
    · rw [List.mem_singleton.mp hother]
      exact hnone
  rcases h with ⟨rfl, hnever⟩ | ⟨before, last, after, value, rfl, hwrites, hheld, hafter⟩
  · exact .inl ⟨rfl, hconcat hnever⟩
  · refine .inr ⟨before, last, after ++ [event], value, ?_, hwrites, hheld, hconcat hafter⟩
    rw [List.append_assoc, List.cons_append]

/-- An event that writes a value there. -/
theorem LastWritten.written (initial : Option ν) (log : List ε) {event : ε} {value : ν} (hwrites : writes event value) :
    LastWritten writes initial (log ++ [event]) (some value) :=
  .inr ⟨log, event, [], value, rfl, hwrites, rfl, fun _ hlater => absurd hlater List.not_mem_nil⟩

/-- When an event writes but one value and nothing is written after it, its value is held. -/
theorem LastWritten.eq_of_last (h : LastWritten writes initial log held) {before after : List ε} {event : ε} {value : ν}
    (hlog : log = before ++ event :: after) (hwrites : writes event value)
    (hunique : ∀ other, writes event other → other = value) (hafter : ∀ later ∈ after, ∀ other, ¬writes later other) :
    held = some value := by
  rcases h with ⟨-, hnever⟩ | ⟨before', last, after', value', hlog', hwrites', rfl, hafter'⟩
  · exact absurd hwrites (hnever event (by simp [hlog]) value)
  · rw [hlog] at hlog'
    rcases List.append_eq_append_iff.mp hlog' with ⟨between, hbefore, hrest⟩ | ⟨between, hbefore, hrest⟩
    · cases between with
      | nil =>
        obtain ⟨rfl, rfl⟩ := List.cons.inj hrest
        rw [hunique value' hwrites']
      | cons first between =>
        obtain ⟨rfl, rfl⟩ := List.cons.inj hrest
        exact absurd hwrites' (hafter last (by simp) value')
    · cases between with
      | nil =>
        obtain ⟨rfl, rfl⟩ := List.cons.inj hrest
        rw [hunique value' hwrites']
      | cons first between =>
        obtain ⟨rfl, rfl⟩ := List.cons.inj hrest
        exact absurd hwrites (hafter' event (by simp) value)

end InfusedModbus.Foundation
