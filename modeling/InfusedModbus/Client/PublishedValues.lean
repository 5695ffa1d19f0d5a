import InfusedModbus.Client.NodeRun
import InfusedModbus.Client.PollReading

/-! Published values are real. Every value that is published as one, not as null, was read for its
point by an earlier poll response: a point that was never read keeps its placeholder, which the
ticker's tracker takes for published. A rebirth goes past the tracker, so it must find every point
of its machines read. -/

namespace InfusedModbus.Client

open Foundation Foundation.Outcome Protocol Datafs
open Sparkplug (MetricValue Metric)

/-! ### Polling -/

/-- The client's tasks, and every poll response so far with the machine it came from. -/
structure PolledRun where
  node : NodeRun
  answers : List (String × PollAnswer)

/-- A poll that fails does nothing. -/
inductive PolledAction where
  | answer (machineName : String) (answer : PollAnswer)
  | node (action : NodeAction)

namespace PolledRun

section Step

variable (machines : List MachineDescription) (aliases : AliasAllocator) (accepts : ℕ → Bool)

/-- Only polling fills the stores. -/
def step (s : PolledRun) : PolledAction → Option PolledRun
  | .answer machineName answer => do
    let machine ← machines.find? fun machine => machine.name == machineName
    let stores ← s.node.session.stores.get machineName
    if answer.asked machine then
      match answer.apply machine stores with
      | .ok stores =>
        let node ← s.node.step machines aliases accepts (.poll machineName stores)
        pure ⟨node, s.answers ++ [(machineName, answer)]⟩
      | _ => none
    else none
  | .node (.poll _ _) => none
  | .node action => (s.node.step machines aliases accepts action).map fun node => ⟨node, s.answers⟩

end Step

def start (machines : List MachineDescription) (now : UInt64) : PolledRun := ⟨.start machines now, []⟩

/-- Every point of a machine that is born again has been read. -/
def Measured (s : PolledRun) : PolledAction → Prop
  | .node (.handle _) =>
    match s.node.todo with
    | .dbirth machine :: _ => ∀ stores, s.node.session.stores.get machine.name = some stores →
      ∀ point ∈ machinePoints machine, (point.stored stores).isSome
    | _ => True
  | _ => True

end PolledRun

/-! ### What was read -/

/-- The device whose metrics a message carries, and the metrics. -/
def PublishCall.deviceMetrics : PublishCall → Option (String × List Metric)
  | .dbirth deviceId metrics | .ddata deviceId metrics => some (deviceId, metrics)
  | _ => none

/-- Some response read this value for the point. -/
def WasRead (answers : List (String × PollAnswer)) (machine : MachineDescription) (point : MachinePoint)
    (value : MetricValue) : Prop :=
  ∃ answer, (machine.name, answer) ∈ answers ∧ answer.Reads machine point value

/-- A metric of a point of the device, with a value that was read for it. -/
def MetricRead (machines : List MachineDescription) (answers : List (String × PollAnswer)) (deviceId : String)
    (metric : Metric) : Prop :=
  ∃ machine ∈ machines, machine.name = deviceId ∧ ∃ point ∈ machinePoints machine, ∃ now value,
    metric = point.metric machine (.build machines) now false value ∧ WasRead answers machine point value

/-- The metrics that are not null were read. -/
def AllRead (machines : List MachineDescription) (answers : List (String × PollAnswer)) (call : PublishCall) : Prop :=
  ∀ deviceId metrics, call.deviceMetrics = some (deviceId, metrics) → ∀ metric ∈ metrics, metric.isNull = false →
    MetricRead machines answers deviceId metric

/-- What is published is read, and what was never read is only published as null. -/
structure PublishedReal (machines : List MachineDescription) (s : PolledRun) : Prop where
  decoded : ∀ call ∈ s.node.session.calls, AllRead machines s.answers call
  unread : ∀ machine ∈ machines, ∀ point ∈ machinePoints machine, (∀ value, ¬WasRead s.answers machine point value) →
    ∀ call ∈ s.node.session.calls, ∀ metrics, call.deviceMetrics = some (machine.name, metrics) →
      ∀ metric ∈ metrics, metric.name = point.name → metric.isNull = true

section Read

variable {machines : List MachineDescription} {answers : List (String × PollAnswer)}

theorem MetricRead.append {deviceId : String} {metric : Metric} (h : MetricRead machines answers deviceId metric)
    (later : List (String × PollAnswer)) : MetricRead machines (answers ++ later) deviceId metric := by
  obtain ⟨machine, hmachine, hname, point, hpoint, now, value, hmetric, answer, hanswer, hreads⟩ := h
  exact ⟨machine, hmachine, hname, point, hpoint, now, value, hmetric, answer, List.mem_append_left _ hanswer, hreads⟩

end Read

/-! ### Placeholders -/

/-- A placeholder compares equal to itself. -/
theorem eq_placeholder (point : MachinePoint) : point.placeholder.eq point.placeholder = true := by
  cases point with
  | register entry =>
    rw [MachinePoint.placeholder]
    cases entry.dataType <;> decide
  | inputRegister entry =>
    rw [MachinePoint.placeholder]
    cases entry.dataType <;> decide
  | coil => rfl
  | discreteInput => rfl
  | fileRecord => exact beq_self_eq_true _

section Tracking

variable {machines : List MachineDescription} {machine : MachineDescription} {now : UInt64}

/-- For the points that were never read the tracker has the placeholders. -/
def KeepsPlaceholders (machines : List MachineDescription) (machine : MachineDescription) (stores : MachineStores)
    (tracker : ChangeTracker) : Prop :=
  ∀ point ∈ machinePoints machine, point.stored stores = none →
    ∀ metricAlias ∈ (AliasAllocator.build machines).aliasFor machine.name point.name,
      tracker.lastPublished.get metricAlias = some point.placeholder

/-- A new ticker's tracker has them all. -/
theorem keepsPlaceholders_placeholderTracker (hpoints : (metricNames machine).Nodup) (stores : MachineStores) :
    KeepsPlaceholders machines machine stores (placeholderTracker machines machine now) := by
  intro point hpoint _ metricAlias halias
  have hkeys : ((feedEntries (buildMachineMetricsNullPlaceholders machine (.build machines) now)).map Prod.fst).Nodup := by
    rw [buildMachineMetricsNullPlaceholders_eq]
    exact nodup_feedEntries hpoints now true _
  have hentry : (metricAlias, point.placeholder) ∈
      feedEntries (buildMachineMetricsNullPlaceholders machine (.build machines) now) := by
    rw [mem_feedEntries, buildMachineMetricsNullPlaceholders_eq]
    exact ⟨_, List.mem_map_of_mem hpoint, halias, rfl⟩
  rw [placeholderTracker, changes_snd]
  refine Store.get_setAll_of_mem _ ?_ ?_
  · rw [changes_fst hkeys]
    exact hkeys.sublist (List.filter_sublist.map _)
  · rw [changes_fst hkeys]
    exact List.mem_filter.mpr ⟨hentry, rfl⟩

/-- What a tracker with the placeholders lets through was read, and it keeps them. -/
theorem changedMetrics_stored (hmachine : machine ∈ machines) (hpoints : (metricNames machine).Nodup)
    {stores : MachineStores} {tracker tracker' : ChangeTracker} {changed : List Metric}
    (hkeeps : KeepsPlaceholders machines machine stores tracker)
    (h : tracker.changedMetrics (buildMachineMetrics machine (.build machines) now stores) = .ok (changed, tracker')) :
    (∀ metric ∈ changed, ∃ point ∈ machinePoints machine, ∃ value, point.stored stores = some value ∧
      metric = point.metric machine (.build machines) now false value) ∧
      KeepsPlaceholders machines machine stores tracker' := by
  have hbuild := @buildMachineMetrics_eq machine (.build machines) now stores
  have haliases : ∀ metric ∈ buildMachineMetrics machine (.build machines) now stores, metric.metricAlias.isSome := by
    rw [hbuild, List.forall_mem_map]
    intro point hpoint
    exact isSome_metricAlias hmachine hpoint now false _
  have hkeys : ((feedEntries (buildMachineMetrics machine (.build machines) now stores)).map Prod.fst).Nodup := by
    rw [hbuild]
    exact nodup_feedEntries hpoints now false _
  obtain ⟨changed', hsublist, hok, hentries⟩ := changedMetrics_eq haliases tracker
  obtain ⟨rfl, rfl⟩ := Prod.mk.inj (Outcome.ok.inj (h.symm.trans hok))
  rw [changes_fst hkeys] at hentries
  -- the entry of a point that was never read is its placeholder, and is not let through
  have hunread : ∀ point ∈ machinePoints machine, point.stored stores = none →
      ∀ metricAlias ∈ (AliasAllocator.build machines).aliasFor machine.name point.name,
        metricAlias ∉ (feedEntries changed).map Prod.fst := by
    intro point hpoint hnone metricAlias halias hmem
    obtain ⟨entry, hentry, hkey⟩ := List.mem_map.mp hmem
    rw [hentries] at hentry
    obtain ⟨hentry, hnew⟩ := List.mem_filter.mp hentry
    have hown : (metricAlias, point.placeholder) ∈
        feedEntries (buildMachineMetrics machine (.build machines) now stores) := by
      rw [mem_feedEntries, hbuild]
      refine ⟨_, List.mem_map_of_mem hpoint, halias, ?_⟩
      rw [MachinePoint.metric, MachinePoint.value, hnone, Option.getD_none]
      rfl
    obtain rfl := List.inj_on_of_nodup_map hkeys hentry hown hkey
    rw [recorded, hkeeps point hpoint hnone metricAlias halias] at hnew
    dsimp only at hnew
    rw [eq_placeholder] at hnew
    cases hnew
  constructor
  · intro metric hmetric
    have hmem := hsublist.subset hmetric
    rw [hbuild] at hmem
    obtain ⟨point, hpoint, rfl⟩ := List.mem_map.mp hmem
    refine ⟨point, hpoint, point.value stores, ?_, rfl⟩
    obtain ⟨metricAlias, halias⟩ := Option.isSome_iff_exists.mp (isSome_metricAlias hmachine hpoint now false
      (point.value stores))
    cases hstored : point.stored stores with
    | some value => rw [MachinePoint.value, hstored, Option.getD_some]
    | none =>
      refine absurd ?_ (hunread point hpoint hstored metricAlias halias)
      exact List.mem_map.mpr ⟨(metricAlias, point.value stores), mem_feedEntries.mpr ⟨_, hmetric, halias, rfl⟩, rfl⟩
  · intro point hpoint hnone metricAlias halias
    rw [changes_snd, changes_fst hkeys, ← hentries, Store.get_setAll_of_notMem _ (hunread point hpoint hnone _ halias)]
    exact hkeeps point hpoint hnone metricAlias halias

end Tracking

/-! ### One step -/

namespace PolledRun

variable {machines : List MachineDescription} {accepts : ℕ → Bool} {s s' : PolledRun}

/-- What is stored was read, and who was never read has its placeholder in the trackers; what is
held and what is published was read. -/
structure Genuine (machines : List MachineDescription) (s : PolledRun) : Prop where
  sound : s.node.session.Sound machines
  todo : ∀ machine, .dbirth machine ∈ s.node.todo → machine ∈ machines
  stored : ∀ machine ∈ machines, ∀ stores, s.node.session.stores.get machine.name = some stores →
    ∀ point ∈ machinePoints machine, ∀ value, point.stored stores = some value → WasRead s.answers machine point value
  tracked : ∀ task spawned tracker stores, s.node.session.tasks.get task = some spawned →
    spawned.work = .ddataTicker tracker → s.node.session.stores.get spawned.machine.name = some stores →
      KeepsPlaceholders machines spawned.machine stores tracker
  held : ∀ task changed, s.node.held.get task = some changed → ∀ metric ∈ changed,
    ∃ spawned, s.node.session.tasks.get task = some spawned ∧
      MetricRead machines s.answers spawned.machine.name metric
  published : ∀ call ∈ s.node.session.calls, AllRead machines s.answers call

section Step

variable {session : Session} {todo todo' : List HandlerStep} {held : Store ℕ (List Metric)}
  {answers : List (String × PollAnswer)}

/-- A call whose metrics were read. -/
theorem Genuine.called (hgenuine : Genuine machines ⟨⟨session, todo, held⟩, answers⟩) {call : PublishCall}
    (hcall : AllRead machines answers call) (htodo : ∀ machine, .dbirth machine ∈ todo' → .dbirth machine ∈ todo)
    {held' : Store ℕ (List Metric)}
    (hheld : ∀ task changed, held'.get task = some changed → held.get task = some changed) :
    Genuine machines ⟨⟨(session.publish accepts call).2, todo', held'⟩, answers⟩ := by
  obtain ⟨made, hpublish, hmade⟩ := Session.publish_eq accepts session call
  rw [hpublish]
  refine ⟨hgenuine.sound.published _, fun machine hmem => hgenuine.todo machine (htodo machine hmem), hgenuine.stored,
    hgenuine.tracked, fun task changed hget => hgenuine.held task changed (hheld task changed hget), ?_⟩
  intro other hother
  have hother : other ∈ (session.published ++ made).map Prod.fst := hother
  rw [List.map_append, hmade] at hother
  rcases List.mem_append.mp hother with hother | hother
  · exact hgenuine.published other hother
  · split at hother
    · cases hother
    · obtain rfl := List.mem_singleton.mp hother
      exact hcall

theorem Genuine.subscribed (hgenuine : Genuine machines ⟨⟨session, todo, held⟩, answers⟩)
    {machine : MachineDescription} (hmachine : machine ∈ machines) (hpoints : (metricNames machine).Nodup)
    (hinactive : session.active.get machine.name = none) (now : UInt64)
    (htodo : ∀ machine, .dbirth machine ∈ todo' → .dbirth machine ∈ todo) :
    Genuine machines ⟨⟨session.subscribed machine (placeholderTracker machines machine now), todo', held⟩, answers⟩ := by
  refine ⟨hgenuine.sound.subscribed hmachine hinactive _, fun machine hmem => hgenuine.todo machine (htodo machine hmem),
    hgenuine.stored, ?_, ?_, hgenuine.published⟩
  · intro task spawned tracker stores htask hwork hstores
    rcases Session.get_subscribed_cases htask with ⟨-, rfl⟩ | ⟨-, rfl⟩ | htask
    · cases hwork
    · obtain rfl := TaskWork.ddataTicker.inj hwork
      exact keepsPlaceholders_placeholderTracker hpoints stores
    · exact hgenuine.tracked task spawned tracker stores htask hwork hstores
  · intro task changed hheld metric hmetric
    obtain ⟨spawned, htask, hread⟩ := hgenuine.held task changed hheld metric hmetric
    exact ⟨spawned, hgenuine.sound.get_subscribed_of_some htask _ _, hread⟩

theorem Genuine.unsubscribed (hgenuine : Genuine machines ⟨⟨session, todo, held⟩, answers⟩) {machineName : String}
    {tasks : MachineTasks} (hactive : session.active.get machineName = some tasks)
    (htodo : ∀ machine, .dbirth machine ∈ todo' → .dbirth machine ∈ todo) :
    Genuine machines ⟨⟨session.unsubscribed machineName tasks, todo', held⟩, answers⟩ := by
  refine ⟨hgenuine.sound.unsubscribed hactive, fun machine hmem => hgenuine.todo machine (htodo machine hmem), ?_, ?_, ?_,
    ?_⟩
  · intro machine hmachine stores hstores
    rw [Session.stores_unsubscribed] at hstores
    exact hgenuine.stored machine hmachine stores hstores
  · intro task spawned tracker stores htask hwork hstores
    rw [Session.stores_unsubscribed] at hstores
    obtain ⟨before, hbefore, hmachine, hwork', -⟩ := Session.get_unsubscribed_cases htask
    rw [← hmachine] at hstores ⊢
    exact hgenuine.tracked task before tracker stores hbefore (hwork'.trans hwork) hstores
  · intro task changed hheld metric hmetric
    obtain ⟨spawned, htask, hread⟩ := hgenuine.held task changed hheld metric hmetric
    obtain ⟨after, hafter, hmachine⟩ := Session.get_unsubscribed_of_some htask machineName tasks
    exact ⟨after, hafter, hmachine ▸ hread⟩
  · intro call hcall
    rw [Session.calls, Session.published_unsubscribed] at hcall
    exact hgenuine.published call hcall

theorem genuine_handle (hgenuine : s.Genuine machines) (hnames : (machines.map MachineDescription.name).Nodup)
    (hpoints : ∀ machine ∈ machines, (metricNames machine).Nodup) {now : UInt64}
    (hmeasured : s.Measured (.node (.handle now))) {node : NodeRun}
    (h : s.node.handle machines (.build machines) accepts now = .ok node) : Genuine machines ⟨node, s.answers⟩ := by
  obtain ⟨⟨session, todo, held⟩, answers⟩ := s
  obtain ⟨session', todo', held'⟩ := node
  obtain ⟨hheld, htodo, hcases⟩ := NodeRun.handle_cases hgenuine.sound hnames h
  obtain rfl : held' = held := hheld
  rcases hcases with hsame | ⟨call, hcall, hkind⟩ | ⟨machine, hmachine, hinactive, hnew⟩ | ⟨machineName, tasks, hactive, hnew⟩
  · obtain rfl : session' = session := hsame
    exact ⟨hgenuine.sound, fun machine hmem => hgenuine.todo machine (htodo machine hmem), hgenuine.stored,
      hgenuine.tracked, hgenuine.held, hgenuine.published⟩
  · obtain rfl : session' = (session.publish accepts call).2 := hcall
    refine hgenuine.called ?_ htodo fun _ _ hget => hget
    intro deviceId metrics hdevice metric hmetric hnull
    rcases hkind with rfl | ⟨machineName, rfl⟩ | ⟨machine, rest, stores, htodo', hstores, rfl⟩
    · cases hdevice
    · cases hdevice
    · obtain ⟨rfl, rfl⟩ := Prod.mk.inj (Option.some.inj hdevice)
      have htodo' : todo = .dbirth machine :: rest := htodo'
      subst htodo'
      have hmachine := hgenuine.todo machine List.mem_cons_self
      rw [buildMachineMetrics_eq] at hmetric
      obtain ⟨point, hpoint, rfl⟩ := List.mem_map.mp hmetric
      obtain ⟨value, hvalue⟩ := Option.isSome_iff_exists.mp (hmeasured stores hstores point hpoint)
      refine ⟨machine, hmachine, rfl, point, hpoint, now, value, ?_,
        hgenuine.stored machine hmachine stores hstores point hpoint value hvalue⟩
      rw [MachinePoint.value, hvalue, Option.getD_some]
  · obtain rfl : session' = session.subscribed machine (placeholderTracker machines machine now) := hnew
    exact hgenuine.subscribed hmachine (hpoints machine hmachine) hinactive now htodo
  · obtain rfl : session' = session.unsubscribed machineName tasks := hnew
    exact hgenuine.unsubscribed hactive htodo

theorem genuine_tick (hgenuine : Genuine machines ⟨⟨session, todo, held⟩, answers⟩)
    (hpoints : ∀ machine ∈ machines, (metricNames machine).Nodup) {task : ℕ} {now : UInt64} {changed : List Metric}
    {session' : Session} (h : tickMetrics (.build machines) now task session = .ok (changed, session')) :
    Genuine machines ⟨⟨session', todo, held.set task changed⟩, answers⟩ := by
  have hothers : ∀ other changed', other ≠ task → (held.set task changed).get other = some changed' →
      held.get other = some changed' :=
    fun other changed' hne hget => (Store.get_set_of_ne _ _ hne).symm.trans hget
  rcases Session.tickMetrics_cases h with ⟨rfl, rfl⟩ | ⟨machine, tracker, tracker', stores, htask, hstores, hchanged, rfl⟩
  · refine ⟨hgenuine.sound, hgenuine.todo, hgenuine.stored, hgenuine.tracked, ?_, hgenuine.published⟩
    intro other changed' hheld metric hmetric
    by_cases hother : other = task
    · subst hother
      obtain rfl := Option.some.inj ((Store.get_set_self _ _ _).symm.trans hheld)
      exact absurd hmetric List.not_mem_nil
    · exact hgenuine.held other changed' (hothers other changed' hother hheld) metric hmetric
  · have hmachine := hgenuine.sound.described task ⟨machine, .ddataTicker tracker, false⟩ htask
    obtain ⟨hread, hkeeps⟩ := changedMetrics_stored hmachine (hpoints machine hmachine)
      (hgenuine.tracked task _ tracker stores htask rfl hstores) hchanged
    refine ⟨hgenuine.sound.retracked htask tracker', hgenuine.todo, hgenuine.stored, ?_, ?_, hgenuine.published⟩
    · intro other spawned tracker'' stores' hother hwork hstores'
      by_cases heq : other = task
      · subst heq
        obtain rfl := Option.some.inj ((Store.get_set_self _ _ _).symm.trans hother)
        obtain rfl := TaskWork.ddataTicker.inj hwork
        obtain rfl := Option.some.inj (hstores.symm.trans hstores')
        exact hkeeps
      · exact hgenuine.tracked other spawned tracker'' stores' ((Store.get_set_of_ne _ _ heq).symm.trans hother) hwork
          hstores'
    · intro other changed' hheld metric hmetric
      by_cases heq : other = task
      · subst heq
        obtain rfl := Option.some.inj ((Store.get_set_self _ _ _).symm.trans hheld)
        refine ⟨_, Store.get_set_self _ _ _, ?_⟩
        obtain ⟨point, hpoint, value, hvalue, rfl⟩ := hread metric hmetric
        exact ⟨machine, hmachine, rfl, point, hpoint, now, value, rfl,
          hgenuine.stored machine hmachine stores hstores point hpoint value hvalue⟩
      · obtain ⟨spawned, htask', hread'⟩ := hgenuine.held other changed' (hothers other changed' heq hheld) metric hmetric
        exact ⟨spawned, (Store.get_set_of_ne _ _ heq).trans htask', hread'⟩

theorem genuine_handOver (hgenuine : Genuine machines ⟨⟨session, todo, held⟩, answers⟩) {task : ℕ}
    {changed : List Metric} (hheld : held.get task = some changed) :
    Genuine machines ⟨⟨publishDdata accepts task changed session, todo, held.remove task⟩, answers⟩ := by
  have hremoved : ∀ other changed', (held.remove task).get other = some changed' → held.get other = some changed' := by
    intro other changed' hget
    by_cases heq : other = task
    · rw [heq, Store.get_remove_self] at hget
      cases hget
    · exact (Store.get_remove_of_ne _ heq).symm.trans hget
  unfold publishDdata
  split
  · next spawned htask =>
    refine hgenuine.called ?_ (fun _ hmem => hmem) hremoved
    intro deviceId metrics hdevice metric hmetric _
    obtain ⟨rfl, rfl⟩ := Prod.mk.inj (Option.some.inj hdevice)
    obtain ⟨spawned', htask', hread⟩ := hgenuine.held task changed hheld metric hmetric
    obtain rfl := Option.some.inj (htask.symm.trans htask')
    exact hread
  · exact ⟨hgenuine.sound, hgenuine.todo, hgenuine.stored, hgenuine.tracked,
      fun other changed' hget => hgenuine.held other changed' (hremoved other changed' hget), hgenuine.published⟩

/-- A response adds what it reads. -/
theorem genuine_answer (hgenuine : Genuine machines ⟨⟨session, todo, held⟩, answers⟩)
    (hnames : (machines.map MachineDescription.name).Nodup) {machine : MachineDescription} (hmachine : machine ∈ machines)
    {stores stores' : MachineStores} (hstores : session.stores.get machine.name = some stores) {answer : PollAnswer}
    (hanswer : answer.apply machine stores = .ok stores') :
    Genuine machines ⟨⟨{ session with stores := session.stores.set machine.name stores' }, todo, held⟩,
      answers ++ [(machine.name, answer)]⟩ := by
  refine ⟨hgenuine.sound.restocked _ _, hgenuine.todo, ?_, ?_, ?_, ?_⟩
  · intro other hother stores'' hget point hpoint value hvalue
    by_cases hname : other.name = machine.name
    · obtain rfl := List.inj_on_of_nodup_map hnames hother hmachine hname
      obtain rfl := Option.some.inj ((Store.get_set_self _ _ _).symm.trans hget)
      rcases PollAnswer.stored_apply hanswer point with hsame | ⟨value', hvalue', hreads⟩
      · obtain ⟨earlier, hearlier, hreads⟩ :=
          hgenuine.stored other hother stores hstores point hpoint value (hsame.symm.trans hvalue)
        exact ⟨earlier, List.mem_append_left _ hearlier, hreads⟩
      · obtain rfl := Option.some.inj (hvalue'.symm.trans hvalue)
        exact ⟨answer, List.mem_append_right _ (List.mem_singleton_self _), hreads⟩
    · obtain ⟨earlier, hearlier, hreads⟩ := hgenuine.stored other hother stores''
        ((Store.get_set_of_ne _ _ hname).symm.trans hget) point hpoint value hvalue
      exact ⟨earlier, List.mem_append_left _ hearlier, hreads⟩
  · intro task spawned tracker stores'' htask hwork hget point hpoint hnone
    by_cases hname : spawned.machine.name = machine.name
    · have hget : (session.stores.set machine.name stores').get spawned.machine.name = some stores'' := hget
      rw [hname] at hget
      obtain rfl := Option.some.inj ((Store.get_set_self _ _ _).symm.trans hget)
      -- what is not there after the response was not there before it
      refine hgenuine.tracked task spawned tracker stores htask hwork (hname ▸ hstores) point hpoint ?_
      rcases PollAnswer.stored_apply hanswer point with hsame | ⟨value, hvalue, -⟩
      · exact hsame.symm.trans hnone
      · rw [hnone] at hvalue
        cases hvalue
    · exact hgenuine.tracked task spawned tracker stores'' htask hwork ((Store.get_set_of_ne _ _ hname).symm.trans hget)
        point hpoint hnone
  · intro task changed hheld metric hmetric
    obtain ⟨spawned, htask, hread⟩ := hgenuine.held task changed hheld metric hmetric
    exact ⟨spawned, htask, hread.append _⟩
  · intro call hcall deviceId metrics hdevice metric hmetric hnull
    exact (hgenuine.published call hcall deviceId metrics hdevice metric hmetric hnull).append _

theorem genuine_step (hgenuine : s.Genuine machines) (hnames : (machines.map MachineDescription.name).Nodup)
    (hpoints : ∀ machine ∈ machines, (metricNames machine).Nodup) {action : PolledAction}
    (hmeasured : s.Measured action) (h : s.step machines (.build machines) accepts action = some s') :
    s'.Genuine machines := by
  cases action with
  | answer machineName answer =>
    obtain ⟨machine, hfound, h⟩ := Option.bind_eq_some_iff.mp h
    obtain ⟨stores, hstores, h⟩ := Option.bind_eq_some_iff.mp h
    obtain ⟨-, h⟩ := Option.ite_none_right_eq_some.mp h
    have hmachine := List.mem_of_find?_eq_some hfound
    have hname := List.find?_some hfound
    rw [beq_iff_eq] at hname
    subst hname
    split at h
    · next stores' hanswer =>
      obtain ⟨node, hnode, hrest⟩ := Option.bind_eq_some_iff.mp h
      obtain rfl := Option.some.inj hrest
      obtain ⟨-, hnode⟩ := Option.ite_none_right_eq_some.mp hnode
      obtain rfl := Option.some.inj hnode
      exact genuine_answer hgenuine hnames hmachine hstores hanswer
    · cases h
  | node action =>
    cases action with
    | poll => cases h
    | receive payload =>
      obtain ⟨node, hnode, rfl⟩ := Option.map_eq_some_iff.mp h
      obtain ⟨-, hnode⟩ := Option.ite_none_right_eq_some.mp hnode
      obtain rfl := Option.some.inj hnode
      refine ⟨hgenuine.sound, ?_, hgenuine.stored, hgenuine.tracked, hgenuine.held, hgenuine.published⟩
      intro machine hmem
      have hmem : .dbirth machine ∈ handlerSteps machines payload := hmem
      unfold handlerSteps at hmem
      split at hmem
      · simpa using hmem
      · simp at hmem
    | handle now =>
      obtain ⟨node, hnode, rfl⟩ := Option.map_eq_some_iff.mp h
      rw [NodeRun.step] at hnode
      split at hnode
      · next hok =>
        obtain rfl := Option.some.inj hnode
        exact genuine_handle hgenuine hnames hpoints hmeasured hok
      · cases hnode
    | tick task now =>
      obtain ⟨node, hnode, rfl⟩ := Option.map_eq_some_iff.mp h
      obtain ⟨-, hnode⟩ := Option.ite_none_left_eq_some.mp hnode
      split at hnode
      · next hok =>
        obtain rfl := Option.some.inj hnode
        exact genuine_tick hgenuine hpoints hok
      · cases hnode
    | handOver task =>
      obtain ⟨node, hnode, rfl⟩ := Option.map_eq_some_iff.mp h
      obtain ⟨changed, hheld, rfl⟩ := Option.map_eq_some_iff.mp hnode
      exact genuine_handOver hgenuine hheld

end Step

/-! ### Every run -/

/-- At startup every metric is null. -/
theorem genuine_start (machines : List MachineDescription) (now : UInt64) : (start machines now).Genuine machines := by
  refine ⟨Session.sound_start, ?_, ?_, ?_, ?_, ?_⟩
  · intro machine hmem
    cases hmem
  · intro machine _ stores hstores point _ value hvalue
    have hnew : stores = .new := by
      rcases Store.empty.get_setAll_cases (machines.map fun machine => (machine.name, MachineStores.new)) machine.name
        with ⟨stores', hmem, hget⟩ | hget
      · obtain ⟨other, -, heq⟩ := List.mem_map.mp hmem
        obtain rfl := Option.some.inj (hstores.symm.trans hget)
        exact (Prod.mk.inj heq).2.symm
      · cases hstores.symm.trans hget
    subst hnew
    cases point <;> cases hvalue
  · intro task spawned tracker stores htask
    cases htask
  · intro task changed hheld
    cases hheld
  · intro call hcall deviceId metrics hdevice metric hmetric hnull
    rw [Session.calls, start, NodeRun.start, Session.start, List.map_cons, List.map_map] at hcall
    rcases List.mem_cons.mp hcall with rfl | hcall
    · cases hdevice
    · obtain ⟨machine, -, rfl⟩ := List.mem_map.mp hcall
      obtain ⟨rfl, rfl⟩ := Prod.mk.inj (Option.some.inj hdevice)
      rw [buildMachineMetricsNullPlaceholders_eq] at hmetric
      obtain ⟨point, -, rfl⟩ := List.mem_map.mp hmetric
      cases hnull

/-- However polls, commands and ticks interleave, what is published as a value was read before for
its point, and what was never read is published as null. -/
theorem published_values_real (description : DeviceDescription)
    (hpoints : ∀ machine ∈ description.machines, (metricNames machine).Nodup) (accepts : ℕ → Bool) (startup : UInt64)
    {actions : List PolledAction} {s : PolledRun}
    (hmeasured : Permitted (step description.machines (.build description.machines) accepts) Measured
      (start description.machines startup) actions)
    (hrun : execute (step description.machines (.build description.machines) accepts)
      (start description.machines startup) actions = some s) : PublishedReal description.machines s := by
  have hgenuine : s.Genuine description.machines := by
    refine invariant_of_execute ?_ (genuine_start description.machines startup) hmeasured hrun
    intro t action t' hgenuine hmeasured hstep
    exact genuine_step hgenuine description.names_nodup hpoints hmeasured hstep
  refine ⟨hgenuine.published, ?_⟩
  intro machine hmachine point hpoint hunread call hcall metrics hdevice metric hmetric hname
  by_contra hnull
  rw [Bool.not_eq_true] at hnull
  obtain ⟨other, hother, hsame, point', hpoint', now, value, rfl, hread⟩ :=
    hgenuine.published call hcall machine.name metrics hdevice metric hmetric hnull
  obtain rfl := List.inj_on_of_nodup_map description.names_nodup hother hmachine hsame
  have hnodup := hpoints other hmachine
  rw [← map_name_machinePoints] at hnodup
  obtain rfl := List.inj_on_of_nodup_map hnodup hpoint' hpoint hname
  exact hunread value hread

/-- The meter's level as the poll asks for it, and a response of 7. -/
def levelAnswer : PollAnswer := .registers ⟨0, meter.registers, 1⟩ [3, 2, 0, 7]

/-- The meter is subscribed, read, published and born again. -/
def measuredRun : List PolledAction :=
  [.node (.receive subscribeMeter), .node (.handle 1), .answer "meter" levelAnswer, .node (.tick 1 2),
    .node (.handOver 1), .node (.receive rebirth), .node (.handle 3), .node (.handle 3)]

theorem published_values_real_measured : ∃ s,
    execute (step [meter] (.build [meter]) fun _ => true) (start [meter] 0) measuredRun = some s ∧
      PublishedReal [meter] s := by
  refine ⟨_, rfl, @published_values_real ⟨[meter], by simp⟩ (by simp [metricNames, meter]) (fun _ => true) 0
    measuredRun _ ?_ rfl⟩
  refine permitted_cons trivial rfl (permitted_cons trivial rfl (permitted_cons trivial rfl (permitted_cons trivial rfl
    (permitted_cons trivial rfl (permitted_cons trivial rfl (permitted_cons trivial rfl (permitted_cons ?_ rfl
    trivial)))))))
  intro stores hstores point hpoint
  obtain rfl := Option.some.inj hstores
  obtain rfl := List.mem_singleton.mp hpoint
  rfl

/-- A rebirth right after startup publishes a level of 0 that nobody has read. -/
theorem rebirth_before_first_poll : ∃ s,
    execute (step [meter] (.build [meter]) fun _ => true) (start [meter] 0)
      [.node (.receive rebirth), .node (.handle 1), .node (.handle 1)] = some s ∧ ¬PublishedReal [meter] s := by
  refine ⟨_, rfl, ?_⟩
  intro hreal
  obtain ⟨machine, -, -, point, -, now, value, -, answer, hanswer, -⟩ := hreal.decoded
    (.dbirth "meter" (buildMachineMetrics meter (.build [meter]) 1 .new)) (List.mem_of_getElem? (i := 3) rfl) "meter" _ rfl _
    List.mem_cons_self rfl
  cases hanswer

end PolledRun

end InfusedModbus.Client
