import InfusedModbus.Foundation.ChangeFeed
import InfusedModbus.Foundation.Outcome
import InfusedModbus.Sparkplug.Metric

/-! What has changed since it was last published. A tracker keeps the last value under each
alias and lets through the metrics whose value compares different from it: the change feed of
the aliases and the values of the metrics. -/

namespace InfusedModbus.Client

open Foundation
open Sparkplug (MetricValue Metric)

structure ChangeTracker where
  lastPublished : Store ℕ MetricValue

namespace ChangeTracker

def new : ChangeTracker := ⟨.empty⟩

/-- A metric without an alias is a caller's mistake. -/
def changedMetrics (tracker : ChangeTracker) : List Metric → Outcome Empty (List Metric × ChangeTracker)
  | [] => .ok ([], tracker)
  | metric :: metrics =>
    match metric.metricAlias with
    | none => .panic
    | some metricAlias =>
      if recorded MetricValue.eq tracker.lastPublished (metricAlias, metric.value) then
        changedMetrics tracker metrics
      else do
        let (changed, tracker) ← changedMetrics ⟨tracker.lastPublished.set metricAlias metric.value⟩ metrics
        pure (metric :: changed, tracker)

end ChangeTracker

/-- The metrics as entries of a change feed. -/
def feedEntries (metrics : List Metric) : List (ℕ × MetricValue) :=
  metrics.filterMap fun metric => metric.metricAlias.map fun metricAlias => (metricAlias, metric.value)

theorem feedEntries_cons {metric : Metric} {metricAlias : ℕ} (h : metric.metricAlias = some metricAlias)
    (metrics : List Metric) : feedEntries (metric :: metrics) = (metricAlias, metric.value) :: feedEntries metrics := by
  rw [feedEntries, List.filterMap_cons, h]
  rfl

theorem mem_feedEntries {metrics : List Metric} {entry : ℕ × MetricValue} :
    entry ∈ feedEntries metrics ↔ ∃ metric ∈ metrics, metric.metricAlias = some entry.1 ∧ metric.value = entry.2 := by
  rw [feedEntries, List.mem_filterMap]
  refine exists_congr fun metric => and_congr_right fun _ => ?_
  rw [Option.map_eq_some_iff]
  constructor
  · rintro ⟨metricAlias, halias, rfl⟩
    exact ⟨halias, rfl⟩
  · rintro ⟨halias, hvalue⟩
    exact ⟨entry.1, halias, Prod.ext rfl hvalue⟩

theorem map_fst_feedEntries (metrics : List Metric) :
    (feedEntries metrics).map Prod.fst = metrics.filterMap Metric.metricAlias := by
  rw [feedEntries, List.map_filterMap]
  apply List.filterMap_congr
  intro metric _
  rw [Option.map_map]
  exact Option.map_id'

/-- Where every metric has an alias, a tracker is a sender of the change feed. -/
theorem changedMetrics_eq {metrics : List Metric} (haliases : ∀ metric ∈ metrics, metric.metricAlias.isSome)
    (tracker : ChangeTracker) : ∃ changed, changed.Sublist metrics ∧
      tracker.changedMetrics metrics =
        .ok (changed, ⟨(changes MetricValue.eq tracker.lastPublished (feedEntries metrics)).2⟩) ∧
      feedEntries changed = (changes MetricValue.eq tracker.lastPublished (feedEntries metrics)).1 := by
  induction metrics generalizing tracker with
  | nil => exact ⟨[], List.Sublist.refl _, rfl, rfl⟩
  | cons metric metrics ih =>
    obtain ⟨metricAlias, halias⟩ := Option.isSome_iff_exists.mp (haliases metric List.mem_cons_self)
    have hrest : ∀ other ∈ metrics, other.metricAlias.isSome :=
      fun other hother => haliases other (List.mem_cons_of_mem _ hother)
    rw [feedEntries_cons halias, ChangeTracker.changedMetrics, halias, changes]
    dsimp only
    split
    · obtain ⟨changed, hsublist, hok, hentries⟩ := ih hrest tracker
      exact ⟨changed, hsublist.cons _, hok, hentries⟩
    · obtain ⟨changed, hsublist, hok, hentries⟩ := ih hrest ⟨tracker.lastPublished.set metricAlias metric.value⟩
      refine ⟨metric :: changed, hsublist.cons_cons _, ?_, ?_⟩
      · rw [hok]
        rfl
      · rw [feedEntries_cons halias, hentries]

end InfusedModbus.Client
