import InfusedModbus.Client.SparkplugCommand

/-! What the handler of node commands keeps up. Every active machine has a polling task and a
ticker of its own, nothing else runs, and every machine has stores. From that each command has
one exact effect, and the handler never panics. -/

namespace InfusedModbus.Client

open Foundation Foundation.Outcome Protocol Datafs

/-- A machine's metrics all have an alias. -/
theorem isSome_metricAlias {machines : List MachineDescription} {machine : MachineDescription}
    (hmachine : machine ∈ machines) {point : MachinePoint} (hpoint : point ∈ machinePoints machine) (now : UInt64)
    (isNull : Bool) (value : Sparkplug.MetricValue) :
    (point.metric machine (.build machines) now isNull value).metricAlias.isSome := by
  have hname : point.name ∈ metricNames machine := by
    rw [← map_name_machinePoints]
    exact List.mem_map_of_mem hpoint
  obtain ⟨metricAlias, halias⟩ := AliasAllocator.exists_aliasFor hmachine hname
  exact Option.isSome_iff_exists.mpr ⟨metricAlias, halias⟩

/-- Distinct names have distinct aliases. -/
theorem nodup_feedEntries {machines : List MachineDescription} {machine : MachineDescription}
    (hpoints : (metricNames machine).Nodup) (now : UInt64) (isNull : Bool)
    (value : MachinePoint → Sparkplug.MetricValue) :
    ((feedEntries ((machinePoints machine).map fun point =>
      point.metric machine (.build machines) now isNull (value point))).map Prod.fst).Nodup := by
  have haliases : ((machinePoints machine).map fun point =>
      point.metric machine (.build machines) now isNull (value point)).filterMap Sparkplug.Metric.metricAlias =
      (metricNames machine).filterMap ((AliasAllocator.build machines).aliasFor machine.name) := by
    rw [← map_name_machinePoints, List.filterMap_map, List.filterMap_map]
    rfl
  rw [map_fst_feedEntries, haliases]
  refine List.Nodup.filterMap ?_ hpoints
  intro name name' metricAlias halias halias'
  exact (AliasAllocator.aliasFor_injective halias halias').2

/-- The tracker a new ticker starts with. -/
def placeholderTracker (machines : List MachineDescription) (machine : MachineDescription) (now : UInt64) :
    ChangeTracker :=
  ⟨(changes Sparkplug.MetricValue.eq Store.empty
    (feedEntries (buildMachineMetricsNullPlaceholders machine (.build machines) now))).2⟩

namespace Session

/-! ### The start -/

/-- After startup: stores without values, an NBIRTH, and a DBIRTH of placeholders for every
machine. -/
def start (machines : List MachineDescription) (now : UInt64) : Session where
  stores := Store.empty.setAll (machines.map fun machine => (machine.name, MachineStores.new))
  tasks := .empty
  spawned := 0
  active := .empty
  published := (.nbirth, true) :: machines.map fun machine =>
    (.dbirth machine.name (buildMachineMetricsNullPlaceholders machine (.build machines) now), true)

/-- The tasks of the active machines are all that runs. -/
structure Sound (machines : List MachineDescription) (s : Session) : Prop where
  stocked : ∀ machine ∈ machines, (s.stores.get machine.name).isSome
  fresh : ∀ task, s.spawned ≤ task → s.tasks.get task = none
  described : ∀ task spawned, s.tasks.get task = some spawned → spawned.machine ∈ machines
  pair : ∀ name tasks, s.active.get name = some tasks → ∃ machine ∈ machines, machine.name = name ∧
    s.tasks.get tasks.polling = some ⟨machine, .polling, false⟩ ∧
    ∃ tracker, s.tasks.get tasks.ddataTicker = some ⟨machine, .ddataTicker tracker, false⟩
  running : ∀ task spawned, s.tasks.get task = some spawned → spawned.aborted = false →
    ∃ tasks, s.active.get spawned.machine.name = some tasks ∧ (task = tasks.polling ∨ task = tasks.ddataTicker)

variable {machines : List MachineDescription} {now : UInt64} {accepts : ℕ → Bool} {s : Session}

theorem sound_start : (start machines now).Sound machines := by
  refine ⟨?_, fun _ _ => rfl, ?_, ?_, ?_⟩
  · intro machine hmachine
    have hkey : machine.name ∈ (machines.map fun machine => (machine.name, MachineStores.new)).map Prod.fst :=
      List.mem_map_of_mem (List.mem_map_of_mem hmachine)
    obtain ⟨stores, -, hget⟩ := Store.empty.exists_get_setAll hkey
    exact Option.isSome_iff_exists.mpr ⟨stores, hget⟩
  · intro task spawned h
    cases h
  · intro name tasks h
    cases h
  · intro task spawned h
    cases h

/-! ### Subscribing -/

/-- Two tasks more, and the machine active. -/
def subscribed (s : Session) (machine : MachineDescription) (tracker : ChangeTracker) : Session :=
  { s with
    tasks := (s.tasks.set s.spawned ⟨machine, .polling, false⟩).set (s.spawned + 1) ⟨machine, .ddataTicker tracker, false⟩
    spawned := s.spawned + 2
    active := s.active.set machine.name ⟨s.spawned, s.spawned + 1⟩ }

theorem handleSubscribe_of_active {machineName : String} (h : s.isActive machineName) (aliases : AliasAllocator) :
    handleSubscribe machines aliases now machineName s = .ok s := by
  rw [handleSubscribe, if_pos h]

theorem handleSubscribe_of_unknown {machineName : String} (h : ∀ machine ∈ machines, machine.name ≠ machineName)
    (aliases : AliasAllocator) : handleSubscribe machines aliases now machineName s = .ok s := by
  have hfind : (machines.find? fun machine => machine.name == machineName) = none := by
    rw [List.find?_eq_none]
    intro machine hmachine
    simpa using h machine hmachine
  rw [handleSubscribe, hfind]
  split <;> rfl

theorem handleSubscribe_eq (hsound : s.Sound machines) (hnames : (machines.map MachineDescription.name).Nodup)
    {machine : MachineDescription} (hmachine : machine ∈ machines) (hinactive : s.active.get machine.name = none) :
    handleSubscribe machines (.build machines) now machine.name s =
      .ok (s.subscribed machine (placeholderTracker machines machine now)) := by
  have hfind : (machines.find? fun other => other.name == machine.name) = some machine := by
    cases hfound : machines.find? fun other => other.name == machine.name with
    | none => exact absurd (beq_self_eq_true _) (List.find?_eq_none.mp hfound machine hmachine)
    | some other =>
      have hname := List.find?_some hfound
      rw [beq_iff_eq] at hname
      rw [List.inj_on_of_nodup_map hnames (List.mem_of_find?_eq_some hfound) hmachine hname]
  obtain ⟨stores, hstores⟩ := Option.isSome_iff_exists.mp (hsound.stocked machine hmachine)
  have haliases : ∀ metric ∈ buildMachineMetricsNullPlaceholders machine (.build machines) now,
      metric.metricAlias.isSome := by
    rw [buildMachineMetricsNullPlaceholders_eq, List.forall_mem_map]
    intro point hpoint
    exact isSome_metricAlias hmachine hpoint now true _
  obtain ⟨changed, -, hchanged, -⟩ := changedMetrics_eq haliases .new
  have hinactive' : s.isActive machine.name = false := by rw [isActive, hinactive, Option.isSome_none]
  rw [handleSubscribe, hinactive', hfind]
  dsimp only
  rw [hstores]
  dsimp only [spawn, activate]
  rw [hchanged, ok_bind]
  dsimp only [activate]
  rw [hinactive]
  rfl

/-- A subscribe request does nothing, or it subscribes a machine that is not active. -/
theorem handleSubscribe_cases (hsound : s.Sound machines) (hnames : (machines.map MachineDescription.name).Nodup)
    (machineName : String) :
    handleSubscribe machines (.build machines) now machineName s = .ok s ∨
      ∃ machine ∈ machines, machine.name = machineName ∧ s.active.get machine.name = none ∧
        handleSubscribe machines (.build machines) now machineName s =
          .ok (s.subscribed machine (placeholderTracker machines machine now)) := by
  by_cases hactive : s.isActive machineName = true
  · exact .inl (handleSubscribe_of_active hactive _)
  by_cases hknown : ∃ machine ∈ machines, machine.name = machineName
  · obtain ⟨machine, hmachine, rfl⟩ := hknown
    rw [isActive, Bool.not_eq_true, Option.isSome_eq_false_iff, Option.isNone_iff_eq_none] at hactive
    exact .inr ⟨machine, hmachine, rfl, hactive, handleSubscribe_eq hsound hnames hmachine hactive⟩
  · refine .inl (handleSubscribe_of_unknown ?_ _)
    intro machine hmachine hname
    exact hknown ⟨machine, hmachine, hname⟩

/-- A subscription leaves the tasks that were there. -/
theorem Sound.get_subscribed_of_some (hsound : s.Sound machines) {task : ℕ} {spawned : Task}
    (h : s.tasks.get task = some spawned) (machine : MachineDescription) (tracker : ChangeTracker) :
    (s.subscribed machine tracker).tasks.get task = some spawned := by
  have hne : task ≠ s.spawned ∧ task ≠ s.spawned + 1 := by
    constructor
    · rintro rfl
      rw [hsound.fresh _ (Nat.le_refl _)] at h
      cases h
    · rintro rfl
      rw [hsound.fresh _ (Nat.le_succ _)] at h
      cases h
  exact (Store.get_set_of_ne _ _ hne.2).trans ((Store.get_set_of_ne _ _ hne.1).trans h)

/-- A task is one of the two new ones, or it was there before. -/
theorem get_subscribed_cases {machine : MachineDescription} {tracker : ChangeTracker} {task : ℕ} {spawned : Task}
    (h : (s.subscribed machine tracker).tasks.get task = some spawned) :
    (task = s.spawned ∧ spawned = ⟨machine, .polling, false⟩) ∨
      (task = s.spawned + 1 ∧ spawned = ⟨machine, .ddataTicker tracker, false⟩) ∨ s.tasks.get task = some spawned := by
  by_cases hticker : task = s.spawned + 1
  · subst hticker
    obtain rfl := Option.some.inj ((Store.get_set_self _ _ _).symm.trans h)
    exact .inr (.inl ⟨rfl, rfl⟩)
  · have h : (s.tasks.set s.spawned ⟨machine, .polling, false⟩).get task = some spawned :=
      (Store.get_set_of_ne _ _ hticker).symm.trans h
    by_cases hpolling : task = s.spawned
    · subst hpolling
      obtain rfl := Option.some.inj ((Store.get_set_self _ _ _).symm.trans h)
      exact .inl ⟨rfl, rfl⟩
    · exact .inr (.inr ((Store.get_set_of_ne _ _ hpolling).symm.trans h))

theorem Sound.subscribed (hsound : s.Sound machines) {machine : MachineDescription} (hmachine : machine ∈ machines)
    (hinactive : s.active.get machine.name = none) (tracker : ChangeTracker) :
    (s.subscribed machine tracker).Sound machines := by
  have hkeep : ∀ {task spawned}, s.tasks.get task = some spawned →
      (s.subscribed machine tracker).tasks.get task = some spawned :=
    fun h => hsound.get_subscribed_of_some h machine tracker
  have hself : (s.subscribed machine tracker).active.get machine.name = some ⟨s.spawned, s.spawned + 1⟩ :=
    Store.get_set_self _ _ _
  refine ⟨hsound.stocked, ?_, ?_, ?_, ?_⟩
  · intro task htask
    have htask : s.spawned + 2 ≤ task := htask
    exact (Store.get_set_of_ne _ _ (by omega)).trans
      ((Store.get_set_of_ne _ _ (by omega)).trans (hsound.fresh task (by omega)))
  · intro task spawned h
    rcases get_subscribed_cases h with ⟨-, rfl⟩ | ⟨-, rfl⟩ | h
    · exact hmachine
    · exact hmachine
    · exact hsound.described task spawned h
  · intro name tasks h
    by_cases hname : name = machine.name
    · subst hname
      obtain rfl := Option.some.inj (hself.symm.trans h)
      refine ⟨machine, hmachine, rfl, ?_, tracker, Store.get_set_self _ _ _⟩
      exact (Store.get_set_of_ne _ _ (Nat.ne_of_lt (Nat.lt_succ_self _))).trans (Store.get_set_self _ _ _)
    · obtain ⟨other, hother, hnamed, hpolling, tracker', hticker⟩ :=
        hsound.pair name tasks ((Store.get_set_of_ne _ _ hname).symm.trans h)
      exact ⟨other, hother, hnamed, hkeep hpolling, tracker', hkeep hticker⟩
  · intro task spawned h hrunning
    rcases get_subscribed_cases h with ⟨rfl, rfl⟩ | ⟨rfl, rfl⟩ | h
    · exact ⟨_, hself, .inl rfl⟩
    · exact ⟨_, hself, .inr rfl⟩
    · obtain ⟨tasks, hactive, htask⟩ := hsound.running task spawned h hrunning
      refine ⟨tasks, (Store.get_set_of_ne _ _ ?_).trans hactive, htask⟩
      rintro heq
      rw [heq, hinactive] at hactive
      cases hactive

/-! ### Unsubscribing -/

/-- The two tasks aborted, and the machine not active any more. -/
def unsubscribed (s : Session) (machineName : String) (tasks : MachineTasks) : Session :=
  ({ s with active := s.active.remove machineName } : Session).abortBoth tasks

theorem get_abort (s : Session) (task other : ℕ) :
    (s.abort task).tasks.get other =
      if other = task then (s.tasks.get task).map fun spawned => { spawned with aborted := true }
      else s.tasks.get other := by
  unfold abort
  cases hget : s.tasks.get task with
  | none =>
    dsimp only
    split
    · next heq => rw [heq, hget, Option.map_none]
    · rfl
  | some spawned =>
    dsimp only
    rw [Store.get_set]
    rfl

theorem get_abortBoth (s : Session) (tasks : MachineTasks) (task : ℕ) :
    (s.abortBoth tasks).tasks.get task =
      if task = tasks.polling ∨ task = tasks.ddataTicker then
        (s.tasks.get task).map fun spawned => { spawned with aborted := true }
      else s.tasks.get task := by
  rw [abortBoth, get_abort, get_abort, get_abort]
  by_cases hticker : task = tasks.ddataTicker
  · rw [if_pos hticker, if_pos (Or.inr hticker), ← hticker]
    split
    · next heq =>
      rw [← heq, Option.map_map]
      rfl
    · rfl
  · rw [if_neg hticker]
    by_cases hpolling : task = tasks.polling
    · rw [if_pos hpolling, if_pos (Or.inl hpolling), hpolling]
    · rw [if_neg hpolling, if_neg (by simp [hpolling, hticker])]

@[simp] theorem stores_abort (s : Session) (task : ℕ) : (s.abort task).stores = s.stores := by
  unfold abort
  split <;> rfl

@[simp] theorem spawned_abort (s : Session) (task : ℕ) : (s.abort task).spawned = s.spawned := by
  unfold abort
  split <;> rfl

@[simp] theorem active_abort (s : Session) (task : ℕ) : (s.abort task).active = s.active := by
  unfold abort
  split <;> rfl

@[simp] theorem published_abort (s : Session) (task : ℕ) : (s.abort task).published = s.published := by
  unfold abort
  split <;> rfl

@[simp] theorem stores_unsubscribed (s : Session) (machineName : String) (tasks : MachineTasks) :
    (s.unsubscribed machineName tasks).stores = s.stores := by
  simp [unsubscribed, abortBoth]

@[simp] theorem active_unsubscribed (s : Session) (machineName : String) (tasks : MachineTasks) :
    (s.unsubscribed machineName tasks).active = s.active.remove machineName := by
  simp [unsubscribed, abortBoth]

@[simp] theorem published_unsubscribed (s : Session) (machineName : String) (tasks : MachineTasks) :
    (s.unsubscribed machineName tasks).published = s.published := by
  simp [unsubscribed, abortBoth]

/-- A task was there before, of the same machine and the same work; if it still runs, it ran. -/
theorem get_unsubscribed_cases {machineName : String} {tasks : MachineTasks} {task : ℕ} {spawned : Task}
    (h : (s.unsubscribed machineName tasks).tasks.get task = some spawned) :
    ∃ before, s.tasks.get task = some before ∧ before.machine = spawned.machine ∧ before.work = spawned.work ∧
      (spawned.aborted = false → before.aborted = false ∧ ¬(task = tasks.polling ∨ task = tasks.ddataTicker)) := by
  rw [unsubscribed, get_abortBoth] at h
  split at h
  · obtain ⟨before, hbefore, rfl⟩ := Option.map_eq_some_iff.mp h
    refine ⟨before, hbefore, rfl, rfl, ?_⟩
    intro hrunning
    cases hrunning
  · next hnot => exact ⟨spawned, h, rfl, rfl, fun hrunning => ⟨hrunning, hnot⟩⟩

/-- No task is forgotten. -/
theorem get_unsubscribed_of_some {task : ℕ} {spawned : Task} (h : s.tasks.get task = some spawned)
    (machineName : String) (tasks : MachineTasks) :
    ∃ after, (s.unsubscribed machineName tasks).tasks.get task = some after ∧ after.machine = spawned.machine := by
  rw [unsubscribed, get_abortBoth]
  split
  · exact ⟨_, Option.map_eq_some_iff.mpr ⟨spawned, h, rfl⟩, rfl⟩
  · exact ⟨spawned, h, rfl⟩

theorem Sound.unsubscribed (hsound : s.Sound machines) {machineName : String} {tasks : MachineTasks}
    (hactive : s.active.get machineName = some tasks) : (s.unsubscribed machineName tasks).Sound machines := by
  have hget := get_abortBoth { s with active := s.active.remove machineName } tasks
  obtain ⟨machine, hmachine, hname, hpolling, tracker, hticker⟩ := hsound.pair machineName tasks hactive
  -- only the machine's own two tasks are aborted
  have hother : ∀ name tasks', s.active.get name = some tasks' → name ≠ machineName → ∀ task,
      task = tasks'.polling ∨ task = tasks'.ddataTicker → ¬(task = tasks.polling ∨ task = tasks.ddataTicker) := by
    intro name tasks' hactive' hne task htask htask'
    obtain ⟨other, hother, hname', hpolling', tracker', hticker'⟩ := hsound.pair name tasks' hactive'
    have hspawned : ∃ spawned, s.tasks.get task = some spawned ∧ spawned.machine = machine := by
      rcases htask' with rfl | rfl
      · exact ⟨_, hpolling, rfl⟩
      · exact ⟨_, hticker, rfl⟩
    obtain ⟨spawned, hspawned, hmachine⟩ := hspawned
    rcases htask with rfl | rfl
    · rw [hpolling'] at hspawned
      obtain rfl := Option.some.inj hspawned
      exact hne (hname'.symm.trans ((congrArg MachineDescription.name hmachine).trans hname))
    · rw [hticker'] at hspawned
      obtain rfl := Option.some.inj hspawned
      exact hne (hname'.symm.trans ((congrArg MachineDescription.name hmachine).trans hname))
  refine ⟨?_, ?_, ?_, ?_, ?_⟩
  · rw [stores_unsubscribed]
    exact hsound.stocked
  · intro task htask
    have hspawned : (s.unsubscribed machineName tasks).spawned = s.spawned := by simp [Session.unsubscribed, abortBoth]
    have hnone := hsound.fresh task (hspawned ▸ htask)
    rw [Session.unsubscribed, hget task]
    dsimp only
    rw [hnone]
    split <;> rfl
  · intro task spawned h
    obtain ⟨before, hbefore, hmachine', -, -⟩ := get_unsubscribed_cases h
    exact hmachine' ▸ hsound.described task before hbefore
  · intro name tasks' h
    rw [active_unsubscribed] at h
    have hne : name ≠ machineName := by
      rintro rfl
      rw [Store.get_remove_self] at h
      cases h
    rw [Store.get_remove_of_ne _ hne] at h
    obtain ⟨other, hmem, hname', hpolling', tracker', hticker'⟩ := hsound.pair name tasks' h
    refine ⟨other, hmem, hname', ?_, tracker', ?_⟩
    · rw [Session.unsubscribed, hget, if_neg (hother name tasks' h hne _ (.inl rfl))]
      exact hpolling'
    · rw [Session.unsubscribed, hget, if_neg (hother name tasks' h hne _ (.inr rfl))]
      exact hticker'
  · intro task spawned h hrunning
    obtain ⟨before, hbefore, hmachine', -, hrunning'⟩ := get_unsubscribed_cases h
    obtain ⟨hrunning', hnot⟩ := hrunning' hrunning
    obtain ⟨tasks', hactive', htask⟩ := hsound.running task before hbefore hrunning'
    rw [← hmachine', active_unsubscribed]
    refine ⟨tasks', (Store.get_remove_of_ne _ ?_).trans hactive', htask⟩
    rintro heq
    rw [heq, hactive] at hactive'
    obtain rfl := Option.some.inj hactive'
    exact hnot htask

/-! ### Publishing -/

/-- Publishing makes a call and changes nothing else. -/
theorem publish_eq (accepts : ℕ → Bool) (s : Session) (call : PublishCall) :
    ∃ made, (s.publish accepts call).2 = { s with published := s.published ++ made } ∧
      made.map Prod.fst = if call.isNoop then [] else [call] := by
  unfold publish
  split
  · exact ⟨[], by rw [List.append_nil], rfl⟩
  · exact ⟨_, rfl, rfl⟩

theorem Sound.published (hsound : s.Sound machines) (published : List (PublishCall × Bool)) :
    ({ s with published := published } : Session).Sound machines :=
  ⟨hsound.stocked, hsound.fresh, hsound.described, hsound.pair, hsound.running⟩

/-- Whoever is not active has nothing to be unsubscribed. -/
theorem handleUnsubscribe_of_inactive {machineName : String} (h : s.active.get machineName = none) :
    handleUnsubscribe machines accepts machineName s = s := by
  rw [handleUnsubscribe, deactivate, h]
  split <;> rfl

theorem handleUnsubscribe_eq (hsound : s.Sound machines) {machineName : String} {tasks : MachineTasks}
    (hactive : s.active.get machineName = some tasks) :
    handleUnsubscribe machines accepts machineName s =
      ((s.unsubscribed machineName tasks).publish accepts (.ddeath machineName)).2 := by
  obtain ⟨machine, hmachine, hname, -⟩ := hsound.pair machineName tasks hactive
  have hknown : (machines.any fun machine => machine.name == machineName) = true :=
    List.any_eq_true.mpr ⟨machine, hmachine, beq_iff_eq.mpr hname⟩
  rw [handleUnsubscribe, hknown, deactivate, hactive]
  rfl

/-! ### Ticking -/

/-- A turn of a ticker changes its own tracker only. -/
theorem tickMetrics_cases {task : ℕ} {changed : List Sparkplug.Metric} {s' : Session} {aliases : AliasAllocator}
    (h : tickMetrics aliases now task s = .ok (changed, s')) :
    (changed = [] ∧ s' = s) ∨ ∃ machine tracker tracker' stores,
      s.tasks.get task = some ⟨machine, .ddataTicker tracker, false⟩ ∧ s.stores.get machine.name = some stores ∧
      tracker.changedMetrics (buildMachineMetrics machine aliases now stores) = .ok (changed, tracker') ∧
      s' = { s with tasks := s.tasks.set task ⟨machine, .ddataTicker tracker', false⟩ } := by
  unfold tickMetrics at h
  split at h
  · next machine tracker htask =>
    split at h
    · cases h
      exact .inl ⟨rfl, rfl⟩
    · next stores hstores =>
      obtain ⟨⟨changed', tracker'⟩, hchanged, hrest⟩ := bind_eq_ok.mp h
      obtain ⟨rfl, rfl⟩ := Prod.mk.inj (Outcome.ok.inj hrest)
      exact .inr ⟨machine, tracker, tracker', stores, htask, hstores, hchanged, rfl⟩
  · cases h
    exact .inl ⟨rfl, rfl⟩

/-- A new tracker for a running ticker. -/
theorem Sound.retracked (hsound : s.Sound machines) {task : ℕ} {machine : MachineDescription} {tracker : ChangeTracker}
    (htask : s.tasks.get task = some ⟨machine, .ddataTicker tracker, false⟩) (tracker' : ChangeTracker) :
    ({ s with tasks := s.tasks.set task ⟨machine, .ddataTicker tracker', false⟩ } : Session).Sound machines := by
  have hne : ∀ other, other ≠ task → (s.tasks.set task ⟨machine, .ddataTicker tracker', false⟩).get other =
      s.tasks.get other := fun other hne => Store.get_set_of_ne _ _ hne
  refine ⟨hsound.stocked, ?_, ?_, ?_, ?_⟩
  · intro other hother
    refine (hne other ?_).trans (hsound.fresh other hother)
    rintro rfl
    rw [hsound.fresh _ hother] at htask
    cases htask
  · intro other spawned h
    by_cases heq : other = task
    · subst heq
      obtain rfl := Option.some.inj ((Store.get_set_self _ _ _).symm.trans h)
      exact hsound.described other ⟨machine, .ddataTicker tracker, false⟩ htask
    · exact hsound.described other spawned ((hne other heq).symm.trans h)
  · intro name tasks hactive
    obtain ⟨other, hother, hname, hpolling, tracker'', hticker⟩ := hsound.pair name tasks hactive
    refine ⟨other, hother, hname, (hne _ ?_).trans hpolling, ?_⟩
    · rintro heq
      rw [heq, htask] at hpolling
      cases hpolling
    · by_cases heq : tasks.ddataTicker = task
      · rw [heq, htask] at hticker
        obtain ⟨rfl, -⟩ := Task.mk.inj (Option.some.inj hticker)
        exact ⟨tracker', by rw [heq]; exact Store.get_set_self _ _ _⟩
      · exact ⟨tracker'', (hne _ heq).trans hticker⟩
  · intro other spawned h hrunning
    by_cases heq : other = task
    · subst heq
      obtain rfl := Option.some.inj ((Store.get_set_self _ _ _).symm.trans h)
      exact hsound.running other ⟨machine, .ddataTicker tracker, false⟩ htask rfl
    · exact hsound.running other spawned ((hne other heq).symm.trans h) hrunning

/-- New stores for a machine. -/
theorem Sound.restocked (hsound : s.Sound machines) (machineName : String) (stores : MachineStores) :
    ({ s with stores := s.stores.set machineName stores } : Session).Sound machines := by
  refine ⟨?_, hsound.fresh, hsound.described, hsound.pair, hsound.running⟩
  intro machine hmachine
  rw [Store.get_set]
  split
  · rfl
  · exact hsound.stocked machine hmachine

theorem Sound.publishDdata (hsound : s.Sound machines) (task : ℕ) (changed : List Sparkplug.Metric) :
    (publishDdata accepts task changed s).Sound machines := by
  unfold Client.publishDdata
  split
  · next spawned _ =>
    obtain ⟨made, hpublish, -⟩ := publish_eq accepts s (.ddata spawned.machine.name changed)
    rw [hpublish]
    exact hsound.published _
  · exact hsound

theorem Sound.tick (hsound : s.Sound machines) {aliases : AliasAllocator} {task : ℕ} {s' : Session}
    (h : tick aliases accepts now task s = .ok s') : s'.Sound machines := by
  obtain ⟨⟨changed, ticked⟩, hmetrics, hrest⟩ := bind_eq_ok.mp h
  obtain rfl := Outcome.ok.inj hrest
  rcases tickMetrics_cases hmetrics with ⟨-, rfl⟩ | ⟨machine, tracker, tracker', stores, htask, -, -, rfl⟩
  · exact hsound.publishDdata _ _
  · exact (hsound.retracked htask tracker').publishDdata _ _

/-- The births of a rebirth: one call for each machine. -/
theorem foldl_rebirthMachine (hsound : s.Sound machines) {reborn : List MachineDescription}
    (hreborn : ∀ machine ∈ reborn, machine ∈ machines) (aliases : AliasAllocator) :
    ∃ made, reborn.foldl (rebirthMachine aliases accepts now) s = { s with published := s.published ++ made } ∧
      made.map Prod.fst = reborn.map fun machine => .dbirth machine.name
        (buildMachineMetrics machine aliases now ((s.stores.get machine.name).getD .new)) := by
  induction reborn generalizing s with
  | nil => exact ⟨[], by rw [List.append_nil]; rfl, rfl⟩
  | cons machine reborn ih =>
    obtain ⟨stores, hstores⟩ := Option.isSome_iff_exists.mp
      (hsound.stocked machine (hreborn machine List.mem_cons_self))
    obtain ⟨made, hpublish, hmade⟩ := publish_eq accepts s
      (.dbirth machine.name (buildMachineMetrics machine aliases now stores))
    obtain ⟨rest, hrest, hcalls⟩ := ih (hsound.published (s.published ++ made))
      fun other hother => hreborn other (List.mem_cons_of_mem _ hother)
    refine ⟨made ++ rest, ?_, ?_⟩
    · rw [List.foldl_cons, rebirthMachine, hstores]
      dsimp only
      rw [hpublish, hrest, List.append_assoc]
    · rw [List.map_append, hmade, hcalls, List.map_cons, hstores]
      rfl

end Session

/-! ### A machine of one register -/

/-- A machine for the witnesses and counterexamples. -/
def meter : MachineDescription where
  name := "meter"
  unitId := 1
  registers := [⟨"level", 0, .u16, .readOnly, none⟩]
  coils := []
  discreteInputs := []
  inputRegisters := []
  fileRecords := []
  memLayout := .abcd
  inputRegisterMemLayout := .abcd
  serverId := none

/-- A metric of a command to the node. -/
def commandMetric (name : String) (value : Sparkplug.MetricValue) : Sparkplug.Metric where
  name := name
  metricAlias := none
  timestamp := none
  dataType := .unknown
  isNull := false
  properties := none
  value := value

def command (metrics : List Sparkplug.Metric) : Sparkplug.Payload := ⟨none, metrics, none⟩

def subscribeMeter : Sparkplug.Payload := command [commandMetric subscribeMetricName (.string "meter")]
def unsubscribeMeter : Sparkplug.Payload := command [commandMetric unsubscribeMetricName (.string "meter")]
def rebirth : Sparkplug.Payload := command [commandMetric rebirthMetricName (.boolean true)]

end InfusedModbus.Client
