import InfusedModbus.Client.Subscriptions
import InfusedModbus.Foundation.Execution

/-! The host's mirror. A host that replays a machine's births and data knows of every metric
whether it is null and its value. After a tick of the machine's ticker that view is exact, and
nothing in it was published again, just when before the tick the ticker's tracker told the same
of every metric as the view. They part where a placeholder, a rebirth or a subscription went past
one of the two, and where two values compare equal that are not the same, or the other way. -/

namespace InfusedModbus.Client

open Foundation Foundation.Outcome Protocol Datafs
open Sparkplug (MetricValue Metric Payload)

/-! ### The host -/

/-- What metrics say about the entries of a view: null, or a value. -/
def viewEntries (metrics : List Metric) : List (ℕ × Option MetricValue) :=
  metrics.filterMap fun metric =>
    metric.metricAlias.map fun metricAlias => (metricAlias, if metric.isNull then none else some metric.value)

/-- A birth replaces the whole view of a device, data its entries. -/
def hear (deviceId : String) (view : Store ℕ (Option MetricValue)) : PublishCall → Store ℕ (Option MetricValue)
  | .dbirth device metrics => if device = deviceId then Store.empty.setAll (viewEntries metrics) else view
  | .ddata device metrics => if device = deviceId then view.setAll (viewEntries metrics) else view
  | _ => view

def hostView (deviceId : String) (calls : List PublishCall) : Store ℕ (Option MetricValue) :=
  calls.foldl (hear deviceId) .empty

theorem hostView_append (deviceId : String) (calls calls' : List PublishCall) :
    hostView deviceId (calls ++ calls') = calls'.foldl (hear deviceId) (hostView deviceId calls) :=
  List.foldl_append

/-- Metrics that are not null are received as a change feed. -/
theorem setAll_viewEntries {metrics : List Metric} (hvalues : ∀ metric ∈ metrics, metric.isNull = false)
    (view : Store ℕ (Option MetricValue)) :
    view.setAll (viewEntries metrics) = receive view (feedEntries metrics) := by
  have hentries : viewEntries metrics = (feedEntries metrics).map fun entry => (entry.1, some entry.2) := by
    rw [viewEntries, feedEntries, List.map_filterMap]
    apply List.filterMap_congr
    intro metric hmetric
    rw [hvalues metric hmetric, Option.map_map]
    rfl
  rw [hentries, receive]

/-! ### Events -/

inductive SessionEvent where
  | poll (machineName : String) (stores : MachineStores)
  | ncmd (payload : Payload) (now : UInt64)
  | tick (task : ℕ) (now : UInt64)

namespace Session

variable (machines : List MachineDescription)

/-- Every publish succeeds. -/
def step (s : Session) : SessionEvent → Option Session
  | .poll machineName stores =>
    if (s.stores.get machineName).isSome then some { s with stores := s.stores.set machineName stores } else none
  | .ncmd payload now =>
    match handleNcmd machines (.build machines) (fun _ => true) now payload s with
    | .ok s' => some s'
    | _ => none
  | .tick task now =>
    match tick (.build machines) (fun _ => true) now task s with
    | .ok s' => some s'
    | _ => none

/-- The host has every current value, and none it had was published again. -/
structure Mirrored (machine : MachineDescription) (metrics : List Metric) (s s' : Session) : Prop where
  exact : ∀ metric ∈ metrics, ∀ metricAlias ∈ metric.metricAlias,
    (hostView machine.name s'.calls).get metricAlias = some (some metric.value)
  needed : ∀ metric ∈ metrics, ∀ metricAlias ∈ metric.metricAlias,
    (hostView machine.name s.calls).get metricAlias = some (some metric.value) →
      ∀ made, s'.calls = s.calls ++ made → ∀ sent, .ddata machine.name sent ∈ made →
        ∀ published ∈ sent, published.metricAlias ≠ some metricAlias

/-- A tick of a subscribed machine's ticker leaves the host's mirror exact. -/
def TickExact (s : Session) : SessionEvent → Prop
  | .tick task now => ∀ machine tracker stores,
    s.tasks.get task = some ⟨machine, .ddataTicker tracker, false⟩ → s.stores.get machine.name = some stores →
      ∃ s', s.step machines (.tick task now) = some s' ∧
        Mirrored machine (buildMachineMetrics machine (.build machines) now stores) s s'
  | _ => True

/-- Before a tick, the tracker's value of a metric compares equal to the current one just when
the host has that one. -/
def TickInSync (s : Session) : SessionEvent → Prop
  | .tick task now => ∀ machine tracker stores,
    s.tasks.get task = some ⟨machine, .ddataTicker tracker, false⟩ → s.stores.get machine.name = some stores →
      InSync MetricValue.eq tracker.lastPublished (hostView machine.name s.calls)
        (feedEntries (buildMachineMetrics machine (.build machines) now stores))
  | _ => True

variable {machines} {s : Session}

/-! ### One tick -/

/-- What the host knows after a machine's data. -/
theorem hostView_ddata {metrics : List Metric} (hvalues : ∀ metric ∈ metrics, metric.isNull = false)
    (calls : List PublishCall) (deviceId : String) :
    hostView deviceId (calls ++ if metrics.isEmpty then [] else [.ddata deviceId metrics]) =
      receive (hostView deviceId calls) (feedEntries metrics) := by
  cases metrics with
  | nil => rw [List.isEmpty_nil, if_pos rfl, List.append_nil, feedEntries, List.filterMap_nil, receive, List.map_nil,
      Store.setAll_nil]
  | cons metric metrics =>
    rw [List.isEmpty_cons, if_neg Bool.false_ne_true, hostView_append, List.foldl_cons, List.foldl_nil, hear,
      if_pos rfl, setAll_viewEntries hvalues]

/-- A tick publishes what the tracker lets through. -/
theorem step_tick (hsound : s.Sound machines) {task : ℕ} {machine : MachineDescription} {tracker : ChangeTracker}
    {stores : MachineStores} (htask : s.tasks.get task = some ⟨machine, .ddataTicker tracker, false⟩)
    (hstores : s.stores.get machine.name = some stores) (now : UInt64) :
    ∃ s' changed, s.step machines (.tick task now) = some s' ∧
      changed.Sublist (buildMachineMetrics machine (.build machines) now stores) ∧
      feedEntries changed = (changes MetricValue.eq tracker.lastPublished
        (feedEntries (buildMachineMetrics machine (.build machines) now stores))).1 ∧
      s'.calls = s.calls ++ if changed.isEmpty then [] else [.ddata machine.name changed] := by
  have haliases : ∀ metric ∈ buildMachineMetrics machine (.build machines) now stores, metric.metricAlias.isSome := by
    rw [buildMachineMetrics_eq, List.forall_mem_map]
    intro point hpoint
    exact isSome_metricAlias (hsound.described task _ htask) hpoint now false _
  obtain ⟨changed, hsublist, hchanged, hentries⟩ := changedMetrics_eq haliases tracker
  let tracked : Session := { s with tasks := s.tasks.set task ⟨machine, .ddataTicker
    ⟨(changes MetricValue.eq tracker.lastPublished
      (feedEntries (buildMachineMetrics machine (.build machines) now stores))).2⟩, false⟩ }
  obtain ⟨made, hpublish, hmade⟩ := publish_eq (fun _ => true) tracked (.ddata machine.name changed)
  have hpublished : publishDdata (fun _ => true) task changed tracked =
      { tracked with published := tracked.published ++ made } := by
    rw [publishDdata, Store.get_set_self]
    exact hpublish
  refine ⟨{ tracked with published := tracked.published ++ made }, changed, ?_, hsublist, hentries, ?_⟩
  · rw [step, tick, tickMetrics, htask]
    dsimp only
    rw [hstores]
    dsimp only
    rw [hchanged, ← hpublished]
    rfl
  · rw [calls, List.map_append, hmade]
    rfl

theorem mirrored_iff (hsound : s.Sound machines) {task : ℕ} {machine : MachineDescription} {tracker : ChangeTracker}
    {stores : MachineStores} (htask : s.tasks.get task = some ⟨machine, .ddataTicker tracker, false⟩)
    (hstores : s.stores.get machine.name = some stores) (hpoints : (metricNames machine).Nodup) (now : UInt64) :
    (∃ s', s.step machines (.tick task now) = some s' ∧
      Mirrored machine (buildMachineMetrics machine (.build machines) now stores) s s') ↔
    InSync MetricValue.eq tracker.lastPublished (hostView machine.name s.calls)
      (feedEntries (buildMachineMetrics machine (.build machines) now stores)) := by
  obtain ⟨s', changed, hstep, hsublist, hentries, hcalls⟩ := step_tick hsound htask hstores now
  have hkeys : ((feedEntries (buildMachineMetrics machine (.build machines) now stores)).map Prod.fst).Nodup := by
    rw [buildMachineMetrics_eq]
    exact nodup_feedEntries hpoints now false _
  have hvalues : ∀ metric ∈ changed, metric.isNull = false := by
    intro metric hmetric
    have hmem := hsublist.subset hmetric
    rw [buildMachineMetrics_eq] at hmem
    obtain ⟨point, -, rfl⟩ := List.mem_map.mp hmem
    rfl
  have hview : hostView machine.name s'.calls = receive (hostView machine.name s.calls)
      (changes MetricValue.eq tracker.lastPublished
        (feedEntries (buildMachineMetrics machine (.build machines) now stores))).1 := by
    rw [hcalls, hostView_ddata hvalues, hentries]
  rw [← exactTurn_iff hkeys]
  generalize buildMachineMetrics machine (.build machines) now stores = metrics at *
  constructor
  · rintro ⟨s'', hstep', hmirrored⟩
    obtain rfl := Option.some.inj (hstep.symm.trans hstep')
    refine ⟨?_, ?_⟩
    · intro entry hentry
      obtain ⟨metric, hmetric, halias, hvalue⟩ := mem_feedEntries.mp hentry
      rw [← hview, ← hvalue]
      exact hmirrored.exact metric hmetric entry.1 halias
    · intro entry hentry hknown hsent
      obtain ⟨metric, hmetric, halias, hvalue⟩ := mem_feedEntries.mp hentry
      rw [← hentries] at hsent
      obtain ⟨published, hpublished, halias', -⟩ := mem_feedEntries.mp hsent
      refine hmirrored.needed metric hmetric entry.1 halias (hvalue ▸ hknown) _ hcalls changed ?_ published hpublished
        halias'
      rw [List.isEmpty_eq_false_iff.mpr (List.ne_nil_of_mem hpublished)]
      exact List.mem_singleton_self _
  · intro hexact
    refine ⟨s', hstep, ?_, ?_⟩
    · intro metric hmetric metricAlias halias
      rw [hview]
      exact hexact.exact (metricAlias, metric.value) (mem_feedEntries.mpr ⟨metric, hmetric, halias, rfl⟩)
    · intro metric hmetric metricAlias halias hknown made hmade sent hsent published hpublished halias'
      rw [hcalls] at hmade
      rw [← List.append_cancel_left hmade] at hsent
      have hsame : sent = changed := by
        split at hsent
        · cases hsent
        · exact (PublishCall.ddata.inj (List.mem_singleton.mp hsent)).2
      rw [hsame] at hpublished
      -- of distinct aliases the published metric carries the metric's own value
      have hentry : (metricAlias, metric.value) ∈ feedEntries metrics :=
        mem_feedEntries.mpr ⟨metric, hmetric, halias, rfl⟩
      have hentry' : (metricAlias, published.value) ∈ feedEntries metrics :=
        mem_feedEntries.mpr ⟨published, hsublist.subset hpublished, halias', rfl⟩
      refine hexact.needed (metricAlias, metric.value) hentry hknown ?_
      rw [List.inj_on_of_nodup_map hkeys hentry hentry' rfl, ← hentries]
      exact mem_feedEntries.mpr ⟨published, hpublished, halias', rfl⟩

/-! ### Every run -/

theorem Sound.step (hsound : s.Sound machines) (hnames : (machines.map MachineDescription.name).Nodup)
    {event : SessionEvent} {s' : Session} (h : s.step machines event = some s') : s'.Sound machines := by
  cases event with
  | poll machineName stores =>
    obtain ⟨-, h⟩ := Option.ite_none_right_eq_some.mp h
    obtain rfl := Option.some.inj h
    exact hsound.restocked machineName stores
  | ncmd payload now =>
    obtain ⟨handled, hok, hsound'⟩ := @Sound.handleNcmd _ now (fun _ => true) _ hsound hnames payload
    rw [Session.step, hok] at h
    obtain rfl := Option.some.inj h
    exact hsound'
  | tick task now =>
    rw [Session.step] at h
    split at h
    · next hok =>
      obtain rfl := Option.some.inj h
      exact hsound.tick hok
    · cases h

/-- In every run, every tick leaves the host's mirror exact if and only if before every tick
tracker and mirror tell the same. -/
theorem mirror_exact_iff (description : DeviceDescription)
    (hpoints : ∀ machine ∈ description.machines, (metricNames machine).Nodup) (startup : UInt64)
    (events : List SessionEvent) :
    Permitted (step description.machines) (TickExact description.machines) (start description.machines startup) events ↔
      Permitted (step description.machines) (TickInSync description.machines) (start description.machines startup)
        events := by
  refine permitted_congr (fun _ _ _ hsound hstep => Sound.step hsound description.names_nodup hstep) ?_ sound_start events
  intro s event hsound
  cases event with
  | poll => exact Iff.rfl
  | ncmd => exact Iff.rfl
  | tick task now =>
    refine forall_congr' fun machine => forall_congr' fun tracker => forall_congr' fun stores =>
      forall_congr' fun htask => forall_congr' fun hstores => ?_
    exact mirrored_iff hsound htask hstores (hpoints machine (hsound.described task _ htask)) now

/-- The meter is subscribed, read and published. -/
def readMeter (level : UInt16) : List SessionEvent :=
  [.ncmd subscribeMeter 1, .poll "meter" { MachineStores.new with
    registers := MachineStores.new.registers.set "level" (.u16 level) }, .tick 1 2]

theorem mirror_exact_seven : Permitted (step [meter]) (TickExact [meter]) (start [meter] 0) (readMeter 7) := by
  refine (mirror_exact_iff ⟨[meter], by simp⟩ (by simp [metricNames, meter]) 0 (readMeter 7)).mpr ?_
  refine permitted_cons trivial rfl (permitted_cons trivial rfl (permitted_cons ?_ rfl trivial))
  intro machine tracker stores htask hstores entry hentry
  obtain ⟨rfl, htracker, -⟩ := Task.mk.inj (Option.some.inj htask)
  obtain rfl := TaskWork.ddataTicker.inj htracker
  obtain rfl := Option.some.inj hstores
  obtain rfl := List.mem_singleton.mp hentry
  decide

/-- A level of 0 is what the placeholder stood for: the host is never told. -/
theorem zero_never_told : ¬Permitted (step [meter]) (TickExact [meter]) (start [meter] 0) (readMeter 0) := by
  rintro ⟨-, hrest⟩
  obtain ⟨-, hrest⟩ := hrest _ rfl
  obtain ⟨hexact, -⟩ := hrest _ rfl
  obtain ⟨s', hstep, hmirrored⟩ := hexact meter _ _ rfl rfl
  obtain rfl := Option.some.inj hstep
  have hview := hmirrored.exact _ List.mem_cons_self 0 rfl
  cases hview

end Session

end InfusedModbus.Client
