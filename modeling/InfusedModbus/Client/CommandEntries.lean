import InfusedModbus.Client.SparkplugCommand
import InfusedModbus.Sparkplug.PayloadCodec

/-! The metrics of a command, entry by entry. An entry that is a metric but cannot be staged
is passed over, so leaving it out changes nothing. An entry that is no metric fails the
decoding of the payload, and with it every other entry. -/

namespace InfusedModbus.Client

open Foundation Foundation.Outcome Protocol Datafs Sparkplug

section CommandEntries

/-- The bytes of a payload with these metric fields. -/
def framedPayload (timestamp seq : Option UInt64) (entries : List Bytes) : Bytes :=
  ((Payload.mk timestamp [] seq).fields entries).flatten

variable (w : ℕ) (machine : MachineDescription) (aliases : AliasAllocator)

/-- The writes staged for the bytes of a command; none where they do not decode. -/
def stagedWrites (bytes : Bytes) : Option (Store String StagedValue) :=
  match decodePayload w bytes with
  | .ok payload => some (decodeDcmdMetrics machine aliases payload)
  | _ => none

/-- The entry is a metric. -/
def IsMetric (entry : Bytes) : Prop := ∃ metric, decodeMetric w entry = .ok metric

/-- No point of the machine takes the metric. -/
def Unstageable (metric : Metric) : Prop :=
  ∀ name, commandedName machine aliases metric = some name →
    ∀ staged, metricValueToStagedValue machine name metric.value ≠ .ok staged

/-- The entry is no metric, or one that cannot be staged. -/
def InvalidEntry (entry : Bytes) : Prop :=
  ∀ metric, decodeMetric w entry = .ok metric → Unstageable machine aliases metric

/-- A turn of the loop over the metrics. -/
def stageMetric (staged : Store String StagedValue) (metric : Metric) : Store String StagedValue :=
  match commandedName machine aliases metric with
  | some metricName =>
    match metricValueToStagedValue machine metricName metric.value with
    | .ok stagedValue => staged.set metricName stagedValue
    | .error _ => staged
  | none => staged

variable {w machine aliases}

theorem decodeDcmdMetrics_eq (payload : Payload) :
    decodeDcmdMetrics machine aliases payload = payload.metrics.foldl (stageMetric machine aliases) .empty := rfl

theorem stageMetric_of_unstageable {metric : Metric} (h : Unstageable machine aliases metric)
    (staged : Store String StagedValue) : stageMetric machine aliases staged metric = staged := by
  unfold stageMetric
  split
  · next name hname =>
    split
    · next stagedValue hok => exact absurd hok (h name hname stagedValue)
    · rfl
  · rfl

theorem decodePayload_framed (hw : w ≤ 64) {timestamp seq : Option UInt64} {entries : List Bytes}
    (hlength : (framedPayload timestamp seq entries).length < 2 ^ w) :
    decodePayload w (framedPayload timestamp seq entries) =
      (entries.mapM' (payloadMetric w)).map fun metrics => ⟨timestamp, metrics, seq⟩ :=
  decodePayload_of_interspersed hw (.flatten _) hlength

theorem isMetric_iff {entry : Bytes} : IsMetric w entry ↔ ∃ metric, payloadMetric w entry = .ok metric := by
  simp only [IsMetric, payloadMetric, mapErr_eq_ok]

/-- The entries decode together exactly when each of them does. -/
theorem exists_mapM_iff {entries : List Bytes} :
    (∃ metrics, entries.mapM' (payloadMetric w) = .ok metrics) ↔ ∀ entry ∈ entries, IsMetric w entry := by
  induction entries with
  | nil => simp [List.mapM'_nil]
  | cons entry entries ih =>
    rw [List.forall_mem_cons, ← ih, isMetric_iff, List.mapM'_cons]
    constructor
    · rintro ⟨metrics, h⟩
      obtain ⟨metric, hmetric, h⟩ := bind_eq_ok.mp h
      obtain ⟨rest, hrest, -⟩ := bind_eq_ok.mp h
      exact ⟨⟨metric, hmetric⟩, rest, hrest⟩
    · rintro ⟨⟨metric, hmetric⟩, rest, hrest⟩
      rw [hmetric, ok_bind, hrest, ok_bind]
      exact ⟨metric :: rest, rfl⟩

theorem stagedWrites_of_decoded (hw : w ≤ 64) {timestamp seq : Option UInt64} {entries : List Bytes}
    (hlength : (framedPayload timestamp seq entries).length < 2 ^ w) {metrics : List Metric}
    (h : entries.mapM' (payloadMetric w) = .ok metrics) :
    stagedWrites w machine aliases (framedPayload timestamp seq entries) =
      some (metrics.foldl (stageMetric machine aliases) .empty) := by
  simp only [stagedWrites, decodePayload_framed hw hlength, h, map_ok, decodeDcmdMetrics_eq]

/-- One entry that is no metric loses the whole command. -/
theorem stagedWrites_eq_none (hw : w ≤ 64) {timestamp seq : Option UInt64} {entries : List Bytes}
    (hlength : (framedPayload timestamp seq entries).length < 2 ^ w) {entry : Bytes} (hentry : entry ∈ entries)
    (h : ¬IsMetric w entry) : stagedWrites w machine aliases (framedPayload timestamp seq entries) = none := by
  rw [stagedWrites, decodePayload_framed hw hlength]
  cases hdecode : entries.mapM' (payloadMetric w) with
  | ok metrics => exact absurd (exists_mapM_iff.mp ⟨metrics, hdecode⟩ entry hentry) h
  | err e => rfl
  | panic => rfl

/-- The entries that are not marked. -/
def unmarked (entries : List (Bytes × Bool)) : List Bytes := (entries.filter fun entry => !entry.2).map Prod.fst

theorem mem_unmarked {entries : List (Bytes × Bool)} {entry : Bytes} :
    entry ∈ unmarked entries ↔ (entry, false) ∈ entries := by
  simp [unmarked]

/-- Metrics that cannot be staged do not matter to the loop. -/
theorem foldl_stageMetric_unmarked {entries : List (Bytes × Bool)}
    (hinvalid : ∀ entry ∈ entries, entry.2 = true → InvalidEntry w machine aliases entry.1) {metrics : List Metric}
    (h : (entries.map Prod.fst).mapM' (payloadMetric w) = .ok metrics) :
    ∃ kept, (unmarked entries).mapM' (payloadMetric w) = .ok kept ∧
      ∀ staged, metrics.foldl (stageMetric machine aliases) staged = kept.foldl (stageMetric machine aliases) staged := by
  induction entries generalizing metrics with
  | nil =>
    obtain rfl := Outcome.ok.inj h
    exact ⟨[], rfl, fun _ => rfl⟩
  | cons entry entries ih =>
    rw [List.map_cons, List.mapM'_cons] at h
    obtain ⟨metric, hmetric, h⟩ := bind_eq_ok.mp h
    obtain ⟨rest, hrest, h⟩ := bind_eq_ok.mp h
    obtain rfl := Outcome.ok.inj h
    obtain ⟨kept, hkept, hsame⟩ := ih (fun other hother => hinvalid other (List.mem_cons_of_mem _ hother)) hrest
    obtain ⟨bytes, marked⟩ := entry
    cases marked with
    | true =>
      have hunstageable := hinvalid _ List.mem_cons_self rfl metric (mapErr_eq_ok.mp hmetric)
      refine ⟨kept, hkept, fun staged => ?_⟩
      rw [List.foldl_cons, stageMetric_of_unstageable hunstageable, hsame]
    | false =>
      refine ⟨metric :: kept, ?_, fun staged => hsame _⟩
      have hcons : unmarked ((bytes, false) :: entries) = bytes :: unmarked entries := rfl
      rw [hcons, List.mapM'_cons, hmetric, ok_bind, hkept, ok_bind, pure_eq]

theorem length_framedPayload_unmarked (timestamp seq : Option UInt64) (entries : List (Bytes × Bool)) :
    (framedPayload timestamp seq (unmarked entries)).length ≤
      (framedPayload timestamp seq (entries.map Prod.fst)).length := by
  have hsub : (unmarked entries).Sublist (entries.map Prod.fst) := (List.filter_sublist).map _
  have hfields := ((hsub.map (encodeBytesField payloadFieldMetrics)).append_left
    (timestamp.map (encodeVarintField payloadFieldTimestamp)).toList).append_right
      (seq.map (encodeVarintField payloadFieldSeq)).toList
  exact hfields.flatten.length_le

/-- Leaving out entries that are invalid on their own changes nothing about the staged writes
exactly when they are all metrics, or the command does not decode without them either. -/
theorem staged_without_invalid_iff (hw : w ≤ 64) {timestamp seq : Option UInt64} {entries : List (Bytes × Bool)}
    (hlength : (framedPayload timestamp seq (entries.map Prod.fst)).length < 2 ^ w)
    (hinvalid : ∀ entry ∈ entries, entry.2 = true → InvalidEntry w machine aliases entry.1) :
    stagedWrites w machine aliases (framedPayload timestamp seq (entries.map Prod.fst)) =
        stagedWrites w machine aliases (framedPayload timestamp seq (unmarked entries)) ↔
      (∀ entry ∈ entries, entry.2 = true → IsMetric w entry.1) ∨ ∃ entry ∈ unmarked entries, ¬IsMetric w entry := by
  have hlength' := (length_framedPayload_unmarked timestamp seq entries).trans_lt hlength
  by_cases hkept : ∃ entry ∈ unmarked entries, ¬IsMetric w entry
  · obtain ⟨entry, hentry, hno⟩ := hkept
    have hall : entry ∈ entries.map Prod.fst := List.mem_map.mpr ⟨_, mem_unmarked.mp hentry, rfl⟩
    rw [stagedWrites_eq_none hw hlength hall hno, stagedWrites_eq_none hw hlength' hentry hno]
    exact iff_of_true rfl (Or.inr ⟨entry, hentry, hno⟩)
  by_cases hmarked : ∀ entry ∈ entries, entry.2 = true → IsMetric w entry.1
  · have hall : ∀ entry ∈ entries.map Prod.fst, IsMetric w entry := by
      rintro _ hmem
      obtain ⟨⟨bytes, marked⟩, hentry, rfl⟩ := List.mem_map.mp hmem
      cases marked with
      | true => exact hmarked _ hentry rfl
      | false =>
        by_contra hno
        exact hkept ⟨bytes, mem_unmarked.mpr hentry, hno⟩
    obtain ⟨metrics, hmetrics⟩ := exists_mapM_iff.mpr hall
    obtain ⟨kept, hdecoded, hsame⟩ := foldl_stageMetric_unmarked hinvalid hmetrics
    rw [stagedWrites_of_decoded hw hlength hmetrics, stagedWrites_of_decoded hw hlength' hdecoded, hsame]
    exact iff_of_true rfl (Or.inl hmarked)
  · -- the whole command is lost, what is kept of it is not
    have hnone : stagedWrites w machine aliases (framedPayload timestamp seq (entries.map Prod.fst)) = none := by
      push Not at hmarked
      obtain ⟨entry, hentry, -, hno⟩ := hmarked
      exact stagedWrites_eq_none hw hlength (List.mem_map_of_mem hentry) hno
    have hall : ∀ entry ∈ unmarked entries, IsMetric w entry := by
      push Not at hkept
      exact hkept
    obtain ⟨kept, hdecoded⟩ := exists_mapM_iff.mpr hall
    rw [hnone, stagedWrites_of_decoded hw hlength' hdecoded]
    exact iff_of_false (by simp) fun h => h.elim hmarked hkept

end CommandEntries

def sluice : MachineDescription where
  name := "sluice"
  unitId := 2
  registers := []
  coils := [⟨"open", 0⟩]
  discreteInputs := []
  inputRegisters := []
  fileRecords := []
  memLayout := .abcd
  inputRegisterMemLayout := .abcd
  serverId := none

def openSluice : Metric := ⟨"open", none, none, .boolean, false, none, .boolean true⟩

/-- An alias that no machine has. -/
def strayMetric : Metric := ⟨"", some 99, none, .boolean, false, none, .boolean true⟩

/-- The stray metric is a metric, so the sluice opens with it and without it. -/
theorem staged_without_invalid_iff_sluice :
    stagedWrites 64 sluice (.build [sluice]) (framedPayload (some 1) none [encodeMetric openSluice, encodeMetric strayMetric]) =
      stagedWrites 64 sluice (.build [sluice]) (framedPayload (some 1) none [encodeMetric openSluice]) := by
  have hstray : decodeMetric 64 (encodeMetric strayMetric) = .ok strayMetric := by decide +kernel
  have hinvalid : InvalidEntry 64 sluice (.build [sluice]) (encodeMetric strayMetric) := by
    intro metric hmetric name hname
    obtain rfl := Outcome.ok.inj (hmetric.symm.trans hstray)
    rw [show commandedName sluice (.build [sluice]) strayMetric = none by decide] at hname
    cases hname
  have hlength : (framedPayload (some 1) none
      ([(encodeMetric openSluice, false), (encodeMetric strayMetric, true)].map Prod.fst)).length < 2 ^ 64 := by
    decide +kernel
  refine (staged_without_invalid_iff le_rfl hlength ?_).mpr (Or.inl ?_)
  · intro entry hentry hmarked
    rcases List.mem_pair.mp hentry with rfl | rfl
    · cases hmarked
    · exact hinvalid
  · intro entry hentry hmarked
    rcases List.mem_pair.mp hentry with rfl | rfl
    · cases hmarked
    · exact ⟨strayMetric, hstray⟩

/-- An entry without a byte in it is no metric, and the sluice stays as it is. -/
theorem staged_without_invalid_lost :
    InvalidEntry 64 sluice (.build [sluice]) [] ∧
      stagedWrites 64 sluice (.build [sluice]) (framedPayload (some 1) none [encodeMetric openSluice, []]) ≠
        stagedWrites 64 sluice (.build [sluice]) (framedPayload (some 1) none [encodeMetric openSluice]) := by
  have hempty : ¬IsMetric 64 [] := by
    rintro ⟨metric, hmetric⟩
    rw [show decodeMetric 64 [] = .err .missingIdentifier by decide +kernel] at hmetric
    cases hmetric
  have hopen : [encodeMetric openSluice].mapM' (payloadMetric 64) = .ok [openSluice] := by decide +kernel
  refine ⟨fun metric hmetric => absurd ⟨metric, hmetric⟩ hempty, ?_⟩
  rw [stagedWrites_eq_none le_rfl (by decide +kernel) (List.mem_cons_of_mem _ List.mem_cons_self) hempty,
    stagedWrites_of_decoded le_rfl (by decide +kernel) hopen]
  simp

end InfusedModbus.Client
