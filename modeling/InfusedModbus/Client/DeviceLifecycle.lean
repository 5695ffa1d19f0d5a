import InfusedModbus.Client.NodeRun

/-! The life of a device as the host sees it. Data and deaths come from a device that was born and
has not died since, as long as a machine is not subscribed again in its grave, no ticker speaks
during a rebirth before its machine's turn or after its own machine's death, and every birth is
accepted. -/

namespace InfusedModbus.Client

open Foundation Foundation.Outcome Protocol Datafs
open Sparkplug (Metric Payload)

/-! ### Births and deaths -/

/-- A DBIRTH of the device, and since then neither an NBIRTH nor its DDEATH. -/
def Born (deviceId : String) (calls : List PublishCall) : Prop :=
  ∃ before metrics after, calls = before ++ .dbirth deviceId metrics :: after ∧ .nbirth ∉ after ∧
    .ddeath deviceId ∉ after

/-- A DDEATH of the device, and no DBIRTH since. -/
def Buried (deviceId : String) (calls : List PublishCall) : Prop :=
  ∃ before after, calls = before ++ .ddeath deviceId :: after ∧ ∀ metrics, .dbirth deviceId metrics ∉ after

/-- The device whose data or death the message is. -/
def PublishCall.lives : PublishCall → Option String
  | .ddata deviceId _ | .ddeath deviceId => some deviceId
  | _ => none

/-- Data and deaths come from devices that are born. -/
def Ordered (calls : List PublishCall) : Prop :=
  ∀ before call after, calls = before ++ call :: after → ∀ deviceId ∈ call.lives, Born deviceId before

section Births

variable {deviceId : String} {calls : List PublishCall} {call : PublishCall}

theorem born_dbirth (deviceId : String) (calls : List PublishCall) (metrics : List Metric) :
    Born deviceId (calls ++ [.dbirth deviceId metrics]) :=
  ⟨calls, metrics, [], rfl, List.not_mem_nil, List.not_mem_nil⟩

theorem Born.concat (h : Born deviceId calls) (hnbirth : call ≠ .nbirth) (hddeath : call ≠ .ddeath deviceId) :
    Born deviceId (calls ++ [call]) := by
  obtain ⟨before, metrics, after, rfl, hafter, hafter'⟩ := h
  refine ⟨before, metrics, after ++ [call], by simp, ?_, ?_⟩
  · simpa using ⟨hafter, hnbirth.symm⟩
  · simpa using ⟨hafter', hddeath.symm⟩

theorem buried_ddeath (deviceId : String) (calls : List PublishCall) : Buried deviceId (calls ++ [.ddeath deviceId]) :=
  ⟨calls, [], rfl, fun _ => List.not_mem_nil⟩

theorem Buried.concat (h : Buried deviceId calls) (hdbirth : ∀ metrics, call ≠ .dbirth deviceId metrics) :
    Buried deviceId (calls ++ [call]) := by
  obtain ⟨before, after, rfl, hafter⟩ := h
  refine ⟨before, after ++ [call], by simp, ?_⟩
  intro metrics
  simpa using ⟨hafter metrics, (hdbirth metrics).symm⟩

/-- Only its own DDEATH buries a device. -/
theorem Buried.of_concat (h : Buried deviceId (calls ++ [call])) (hddeath : call ≠ .ddeath deviceId) :
    Buried deviceId calls := by
  obtain ⟨before, after, heq, hafter⟩ := h
  rcases List.eq_nil_or_concat after with rfl | ⟨after, last, rfl⟩
  · exact absurd (List.append_inj_right' heq rfl) (by simpa using hddeath)
  · rw [List.concat_eq_append, ← List.cons_append, ← List.append_assoc] at heq
    obtain ⟨rfl, -⟩ := List.append_inj' heq rfl
    exact ⟨before, after, rfl, fun metrics hmem => hafter metrics (by simp [hmem])⟩

/-- Nobody is born in the grave. -/
theorem Born.not_buried (h : Born deviceId calls) : ¬Buried deviceId calls := by
  rintro ⟨before', after', heq, hafter'⟩
  obtain ⟨before, metrics, after, rfl, -, hddeath⟩ := h
  rcases List.append_eq_append_iff.mp heq with ⟨between, -, hsplit⟩ | ⟨between, -, hsplit⟩
  · rcases List.cons_eq_append_iff.mp hsplit with ⟨-, hhead⟩ | ⟨between, -, rfl⟩
    · cases hhead
    · simp at hddeath
  · rcases List.cons_eq_append_iff.mp hsplit with ⟨-, hhead⟩ | ⟨between, -, rfl⟩
    · cases hhead
    · exact hafter' metrics (by simp)

theorem ordered_concat (h : Ordered calls) (hlives : ∀ deviceId ∈ call.lives, Born deviceId calls) :
    Ordered (calls ++ [call]) := by
  intro before other after heq
  rcases List.eq_nil_or_concat after with rfl | ⟨after, last, rfl⟩
  · obtain ⟨rfl, hcall⟩ := List.append_inj' heq rfl
    obtain rfl := List.singleton_inj.mp hcall
    exact hlives
  · rw [List.concat_eq_append, ← List.cons_append, ← List.append_assoc] at heq
    obtain ⟨rfl, -⟩ := List.append_inj' heq rfl
    exact h before other after rfl

end Births

namespace Session

variable {accepts : ℕ → Bool} {s : Session} {call : PublishCall}

/-- What the client accepts grows by the call, or stays. -/
theorem accepted_publish_cases (accepts : ℕ → Bool) (s : Session) (call : PublishCall) :
    (s.publish accepts call).2.accepted = s.accepted ∨
      (s.publish accepts call).2.accepted = s.accepted ++ [call] := by
  unfold publish
  split
  · exact .inl rfl
  · cases haccepted : accepts s.published.length with
    | false => exact .inl (by simp [accepted])
    | true => exact .inr (by simp [accepted])

theorem accepted_publish (hnoop : call.isNoop = false) (haccepts : accepts s.published.length = true) :
    (s.publish accepts call).2.accepted = s.accepted ++ [call] := by
  rw [publish, hnoop]
  simp [accepted, haccepts]

end Session

/-! ### The order in which things may happen -/

namespace NodeRun

variable {machines : List MachineDescription} {accepts : ℕ → Bool} {s s' : NodeRun}

/-- A rebirth has sent its NBIRTH, and the machine's DBIRTH is still to come. -/
def Unborn (s : NodeRun) (machineName : String) : Prop :=
  .nbirth ∉ s.todo ∧ ∃ machine, .dbirth machine ∈ s.todo ∧ machine.name = machineName

/-- Births are accepted, no machine is subscribed in its grave, and no ticker speaks between an
NBIRTH and its machine's DBIRTH, nor, once aborted, after its machine's DDEATH. -/
def Orderly (accepts : ℕ → Bool) (s : NodeRun) : NodeAction → Prop
  | .handle _ =>
    match s.todo with
    | .dbirth _ :: _ => accepts s.session.published.length = true
    | .subscribe machineName :: _ => s.session.isActive machineName = false → ¬Buried machineName s.session.accepted
    | _ => True
  | .handOver task => s.held.get task ≠ some [] → ∀ spawned, s.session.tasks.get task = some spawned →
      (spawned.aborted = true → ¬Buried spawned.machine.name s.session.accepted) ∧ ¬s.Unborn spawned.machine.name
  | _ => True

/-- The handler is in a rebirth, among requests, or at a death. -/
inductive Agenda (machines : List MachineDescription) : List HandlerStep → Prop
  | rebirth : Agenda machines (.nbirth :: machines.map .dbirth)
  | births {reborn : List MachineDescription} (h : reborn ⊆ machines) : Agenda machines (reborn.map .dbirth)
  | requests {subscribes unsubscribes : List String} :
    Agenda machines (subscribes.map .subscribe ++ unsubscribes.map .unsubscribe)
  | death {machineName : String} {unsubscribes : List String} :
    Agenda machines (.ddeath machineName :: unsubscribes.map .unsubscribe)

/-- Every machine is born, buried or about to be born, and whoever dies has been born. -/
structure Lawful (machines : List MachineDescription) (s : NodeRun) : Prop where
  sound : s.session.Sound machines
  ordered : Ordered s.session.accepted
  known : ∀ machine ∈ machines, Born machine.name s.session.accepted ∨ Buried machine.name s.session.accepted ∨
    s.Unborn machine.name
  alive : ∀ name, s.session.isActive name = true → ¬Buried name s.session.accepted
  agenda : Agenda machines s.todo
  dying : ∀ name todo, s.todo = .ddeath name :: todo →
    Born name s.session.accepted ∧ s.session.isActive name = false

/-! ### One step -/

theorem not_unborn {todo : List HandlerStep} (h : ∀ machine, .dbirth machine ∉ todo) (session : Session)
    (held : Store ℕ (List Metric)) (machineName : String) : ¬Unborn ⟨session, todo, held⟩ machineName := by
  rintro ⟨-, machine, hmachine, -⟩
  exact h machine hmachine

/-- A step that publishes nothing. -/
theorem Lawful.quiet (hlawful : s.Lawful machines) (hsound : s'.session.Sound machines)
    (hpublished : s'.session.published = s.session.published)
    (halive : ∀ name, s'.session.isActive name = true → ¬Buried name s.session.accepted)
    (hunborn : ∀ name, s.Unborn name → s'.Unborn name) (hagenda : Agenda machines s'.todo)
    (hdying : ∀ name todo, s'.todo = .ddeath name :: todo →
      Born name s.session.accepted ∧ s'.session.isActive name = false) : s'.Lawful machines := by
  have haccepted : s'.session.accepted = s.session.accepted := by
    rw [Session.accepted, Session.accepted, hpublished]
  refine ⟨hsound, ?_, ?_, ?_, hagenda, ?_⟩ <;> rw [haccepted]
  · exact hlawful.ordered
  · intro machine hmachine
    rcases hlawful.known machine hmachine with h | h | h
    · exact .inl h
    · exact .inr (.inl h)
    · exact .inr (.inr (hunborn machine.name h))
  · exact halive
  · exact hdying

/-- While the handler is among requests, whoever is active is born. -/
theorem Lawful.born (hlawful : s.Lawful machines) {name : String} (hactive : s.session.isActive name = true)
    (hunborn : ¬s.Unborn name) : Born name s.session.accepted := by
  obtain ⟨tasks, htasks⟩ := Option.isSome_iff_exists.mp hactive
  obtain ⟨machine, hmachine, rfl, -⟩ := hlawful.sound.pair name tasks htasks
  rcases hlawful.known machine hmachine with h | h | h
  · exact h
  · exact absurd h (hlawful.alive _ hactive)
  · exact absurd h hunborn

section Step

variable {session : Session} {held : Store ℕ (List Metric)} {todo : List HandlerStep}

/-- A call leaves the tasks and the stores. -/
theorem sound_publish (hsound : session.Sound machines) (call : PublishCall) :
    (session.publish accepts call).2.Sound machines ∧
      (session.publish accepts call).2.isActive = session.isActive := by
  obtain ⟨made, hpublish, -⟩ := Session.publish_eq accepts session call
  rw [hpublish]
  exact ⟨hsound.published _, rfl⟩

theorem lawful_nbirth (hlawful : Lawful machines ⟨session, .nbirth :: machines.map .dbirth, held⟩) :
    Lawful machines ⟨(session.publish accepts .nbirth).2,
      if (session.publish accepts .nbirth).1 then machines.map .dbirth else [], held⟩ := by
  obtain ⟨hsound, hactive⟩ := @sound_publish _ accepts _ hlawful.sound .nbirth
  have hnot : ∀ name, ¬Unborn ⟨session, .nbirth :: machines.map .dbirth, held⟩ name :=
    fun name h => h.1 List.mem_cons_self
  cases haccepts : accepts session.published.length with
  | false =>
    have hfirst : (session.publish accepts .nbirth).1 = false := haccepts
    rw [hfirst, if_neg Bool.false_ne_true]
    have haccepted : (session.publish accepts .nbirth).2.accepted = session.accepted := by
      simp [Session.publish, PublishCall.isNoop, Session.accepted, haccepts]
    refine ⟨hsound, ?_, ?_, ?_, .births (List.nil_subset _), ?_⟩
    · rw [haccepted]
      exact hlawful.ordered
    · rw [haccepted]
      intro machine hmachine
      rcases hlawful.known machine hmachine with h | h | h
      · exact .inl h
      · exact .inr (.inl h)
      · exact absurd h (hnot _)
    · rw [haccepted, hactive]
      exact hlawful.alive
    · intro name todo htodo
      cases htodo
  | true =>
    have hfirst : (session.publish accepts .nbirth).1 = true := haccepts
    rw [hfirst, if_pos rfl]
    have haccepted := @Session.accepted_publish accepts session .nbirth rfl haccepts
    refine ⟨hsound, ?_, ?_, ?_, .births (List.Subset.refl _), ?_⟩
    · rw [haccepted]
      refine ordered_concat hlawful.ordered ?_
      intro deviceId hlives
      cases hlives
    · intro machine hmachine
      refine .inr (.inr ⟨?_, machine, List.mem_map_of_mem hmachine, rfl⟩)
      simp
    · rw [haccepted, hactive]
      intro name hname hburied
      exact hlawful.alive name hname (hburied.of_concat (by simp))
    · intro name todo htodo
      cases hmachines : machines with
      | nil => simp [hmachines] at htodo
      | cons => simp [hmachines] at htodo

theorem lawful_dbirth {machine : MachineDescription} {reborn : List MachineDescription}
    (hlawful : Lawful machines ⟨session, (machine :: reborn).map .dbirth, held⟩)
    (hreborn : machine :: reborn ⊆ machines) (haccepts : accepts session.published.length = true)
    (aliases : AliasAllocator) (now : UInt64) :
    Lawful machines ⟨rebirthMachine aliases accepts now session machine, reborn.map .dbirth, held⟩ := by
  obtain ⟨hmachine, hrest⟩ := List.cons_subset.mp hreborn
  obtain ⟨stores, hstores⟩ := Option.isSome_iff_exists.mp (hlawful.sound.stocked machine hmachine)
  rw [rebirthMachine, hstores]
  dsimp only
  obtain ⟨hsound, hactive⟩ := @sound_publish _ accepts _ hlawful.sound
    (.dbirth machine.name (buildMachineMetrics machine aliases now stores))
  have haccepted := @Session.accepted_publish accepts session
    (.dbirth machine.name (buildMachineMetrics machine aliases now stores)) rfl haccepts
  refine ⟨hsound, ?_, ?_, ?_, .births hrest, ?_⟩
  · rw [haccepted]
    refine ordered_concat hlawful.ordered ?_
    intro deviceId hlives
    cases hlives
  · rw [haccepted]
    intro other hother
    by_cases hname : other.name = machine.name
    · rw [hname]
      exact .inl (born_dbirth _ _ _)
    · rcases hlawful.known other hother with h | h | h
      · exact .inl (h.concat (by simp) (by simp))
      · refine .inr (.inl (h.concat ?_))
        intro metrics heq
        exact hname (PublishCall.dbirth.inj heq).1.symm
      · obtain ⟨hnbirth, unborn, hunborn, heq⟩ := h
        refine .inr (.inr ⟨fun hmem => hnbirth (List.mem_cons_of_mem _ hmem), unborn, ?_, heq⟩)
        rcases List.mem_cons.mp hunborn with hhead | htail
        · rw [← HandlerStep.dbirth.inj hhead] at hname
          exact absurd heq.symm hname
        · exact htail
  · rw [haccepted, hactive]
    intro name hname hburied
    exact hlawful.alive name hname (hburied.of_concat (by simp))
  · intro name todo htodo
    cases reborn with
    | nil => cases htodo
    | cons => cases htodo

theorem lawful_subscribe {machineName : String} {subscribes unsubscribes : List String} {now : UInt64}
    (hlawful : Lawful machines
      ⟨session, (machineName :: subscribes).map .subscribe ++ unsubscribes.map .unsubscribe, held⟩)
    (hnames : (machines.map MachineDescription.name).Nodup)
    (hgrave : session.isActive machineName = false → ¬Buried machineName session.accepted) {session' : Session}
    (h : handleSubscribe machines (.build machines) now machineName session = .ok session') :
    Lawful machines ⟨session', subscribes.map .subscribe ++ unsubscribes.map .unsubscribe, held⟩ := by
  have hnot : ∀ name, ¬Unborn
      ⟨session, (machineName :: subscribes).map .subscribe ++ unsubscribes.map .unsubscribe, held⟩ name :=
    not_unborn (by simp) _ _
  have hdying : ∀ name todo, subscribes.map .subscribe ++ unsubscribes.map .unsubscribe ≠
      HandlerStep.ddeath name :: todo := by
    intro name todo
    cases subscribes with
    | nil => cases unsubscribes <;> simp
    | cons => simp
  rcases Session.handleSubscribe_cases hlawful.sound hnames machineName with hok | ⟨machine, hmachine, rfl, hinactive, hok⟩
  · obtain rfl := Outcome.ok.inj (hok.symm.trans h)
    exact hlawful.quiet hlawful.sound rfl hlawful.alive (fun name hname => absurd hname (hnot name)) .requests
      fun name todo htodo => absurd htodo (hdying name todo)
  · obtain rfl := Outcome.ok.inj (hok.symm.trans h)
    refine hlawful.quiet (hlawful.sound.subscribed hmachine hinactive _) rfl ?_
      (fun name hname => absurd hname (hnot name)) .requests fun name todo htodo => absurd htodo (hdying name todo)
    intro name hname
    by_cases heq : name = machine.name
    · rw [heq]
      exact hgrave (by rw [Session.isActive, hinactive, Option.isSome_none])
    · refine hlawful.alive name ?_
      rwa [Session.isActive, Session.subscribed, Store.get_set_of_ne _ _ heq] at hname

theorem lawful_unsubscribe {machineName : String} {unsubscribes : List String} {now : UInt64}
    (hlawful : Lawful machines ⟨session, (machineName :: unsubscribes).map .unsubscribe, held⟩)
    (aliases : AliasAllocator)
    (h : handle machines aliases accepts now ⟨session, (machineName :: unsubscribes).map .unsubscribe, held⟩ =
      .ok s') : s'.Lawful machines := by
  have hnot : ∀ name, ¬Unborn ⟨session, (machineName :: unsubscribes).map .unsubscribe, held⟩ name :=
    not_unborn (by simp) _ _
  have hrest : Lawful machines ⟨session, unsubscribes.map .unsubscribe, held⟩ := by
    refine hlawful.quiet hlawful.sound rfl hlawful.alive (fun name hname => absurd hname (hnot name))
      (@Agenda.requests _ [] unsubscribes) ?_
    intro name todo htodo
    cases unsubscribes with
    | nil => cases htodo
    | cons => cases htodo
  rw [handle, List.map_cons] at h
  dsimp only at h
  split at h
  · obtain rfl := Outcome.ok.inj h
    exact hrest
  · rw [Session.deactivate] at h
    cases hactive : session.active.get machineName with
    | none =>
      rw [hactive] at h
      obtain rfl := Outcome.ok.inj h
      exact hrest
    | some tasks =>
      rw [hactive] at h
      obtain rfl := Outcome.ok.inj h
      have hactive' : (session.unsubscribed machineName tasks).active = session.active.remove machineName :=
        Session.active_unsubscribed session machineName tasks
      refine hlawful.quiet (hlawful.sound.unsubscribed hactive) (Session.published_unsubscribed _ _ _) ?_
        (fun name hname => absurd hname (hnot name)) .death ?_
      · intro name hname
        have hname : ((session.unsubscribed machineName tasks).active.get name).isSome = true := hname
        rw [hactive'] at hname
        by_cases heq : name = machineName
        · rw [heq, Store.get_remove_self] at hname
          cases hname
        · rw [Store.get_remove_of_ne _ heq] at hname
          exact hlawful.alive name hname
      · intro name todo htodo
        obtain ⟨hhead, -⟩ := List.cons_eq_cons.mp htodo
        obtain rfl := HandlerStep.ddeath.inj hhead
        refine ⟨hlawful.born (by rw [Session.isActive, hactive, Option.isSome_some]) (hnot _), ?_⟩
        have hnone : ((session.unsubscribed machineName tasks).active.get machineName).isSome = false := by
          rw [hactive', Store.get_remove_self, Option.isSome_none]
        exact hnone

theorem lawful_ddeath {machineName : String} {unsubscribes : List String}
    (hlawful : Lawful machines ⟨session, .ddeath machineName :: unsubscribes.map .unsubscribe, held⟩) :
    Lawful machines ⟨(session.publish accepts (.ddeath machineName)).2, unsubscribes.map .unsubscribe, held⟩ := by
  obtain ⟨hsound, hactive⟩ := @sound_publish _ accepts _ hlawful.sound (.ddeath machineName)
  obtain ⟨hborn, hinactive⟩ := hlawful.dying machineName _ rfl
  have hdying : ∀ name todo, unsubscribes.map .unsubscribe ≠ HandlerStep.ddeath name :: todo := by
    intro name todo
    cases unsubscribes <;> simp
  have hnot : ∀ name, ¬Unborn ⟨session, .ddeath machineName :: unsubscribes.map .unsubscribe, held⟩ name :=
    not_unborn (by simp) _ _
  rcases Session.accepted_publish_cases accepts session (.ddeath machineName) with haccepted | haccepted
  all_goals
    refine ⟨hsound, ?_, ?_, ?_, @Agenda.requests _ [] unsubscribes, fun name todo htodo => absurd htodo (hdying name todo)⟩
    all_goals rw [haccepted]
  · exact hlawful.ordered
  · intro machine hmachine
    rcases hlawful.known machine hmachine with h | h | h
    · exact .inl h
    · exact .inr (.inl h)
    · exact absurd h (hnot _)
  · rw [hactive]
    exact hlawful.alive
  · refine ordered_concat hlawful.ordered ?_
    intro deviceId hlives
    obtain rfl := Option.some.inj hlives
    exact hborn
  · intro machine hmachine
    rcases hlawful.known machine hmachine with h | h | h
    · by_cases hname : machine.name = machineName
      · rw [hname]
        exact .inr (.inl (buried_ddeath _ _))
      · refine .inl (h.concat (by simp) ?_)
        intro heq
        exact hname (PublishCall.ddeath.inj heq).symm
    · exact .inr (.inl (h.concat (by simp)))
    · exact absurd h (hnot _)
  · rw [hactive]
    intro name hname hburied
    refine hlawful.alive name hname (hburied.of_concat ?_)
    intro heq
    rw [← PublishCall.ddeath.inj heq, hinactive] at hname
    cases hname

/-- The handler's next step. -/
theorem lawful_handle (hnames : (machines.map MachineDescription.name).Nodup) (hlawful : s.Lawful machines)
    {now : UInt64} (horderly : s.Orderly accepts (.handle now))
    (h : s.handle machines (.build machines) accepts now = .ok s') : s'.Lawful machines := by
  obtain ⟨session, todo, held⟩ := s
  cases hlawful.agenda with
  | rebirth =>
    have hlawful' := @lawful_nbirth _ accepts _ _ hlawful
    rw [handle] at h
    dsimp only at h
    split at h
    all_goals
      next heq =>
      rw [heq] at hlawful'
      obtain rfl := Outcome.ok.inj h
      exact hlawful'
  | @births reborn hreborn =>
    cases reborn with
    | nil =>
      obtain rfl := Outcome.ok.inj h
      exact hlawful
    | cons machine reborn =>
      obtain rfl := Outcome.ok.inj h
      exact lawful_dbirth hlawful hreborn horderly _ now
  | @requests subscribes unsubscribes =>
    cases subscribes with
    | cons machineName subscribes =>
      obtain ⟨session', hok, hrest⟩ := bind_eq_ok.mp h
      obtain rfl := Outcome.ok.inj hrest
      exact lawful_subscribe hlawful hnames horderly hok
    | nil =>
      cases unsubscribes with
      | nil =>
        obtain rfl := Outcome.ok.inj h
        exact hlawful
      | cons machineName unsubscribes => exact lawful_unsubscribe hlawful _ h
  | death =>
    obtain rfl := Outcome.ok.inj h
    exact lawful_ddeath hlawful

theorem lawful_receive (hlawful : Lawful machines ⟨session, [], held⟩) (payload : Payload) :
    Lawful machines ⟨session, handlerSteps machines payload, held⟩ := by
  have hagenda : Agenda machines (handlerSteps machines payload) ∧
      ∀ name todo, handlerSteps machines payload ≠ .ddeath name :: todo := by
    unfold handlerSteps
    split
    · exact ⟨.rebirth, by simp⟩
    · refine ⟨.requests, ?_⟩
      intro name todo
      cases subscribeRequests payload with
      | nil => cases unsubscribeRequests payload <;> simp
      | cons => simp
  refine hlawful.quiet hlawful.sound rfl hlawful.alive ?_ hagenda.1
    fun name todo htodo => absurd htodo (hagenda.2 name todo)
  intro name hname
  exact absurd hname (not_unborn (by simp) _ _ _)

theorem lawful_tick (hlawful : Lawful machines ⟨session, todo, held⟩) {task : ℕ} {now : UInt64}
    {aliases : AliasAllocator} {changed : List Metric} {session' : Session}
    (h : tickMetrics aliases now task session = .ok (changed, session')) (held' : Store ℕ (List Metric)) :
    Lawful machines ⟨session', todo, held'⟩ := by
  rcases Session.tickMetrics_cases h with ⟨-, rfl⟩ | ⟨machine, tracker, tracker', stores, htask, -, -, rfl⟩
  · exact hlawful.quiet hlawful.sound rfl hlawful.alive (fun _ hname => hname) hlawful.agenda hlawful.dying
  · exact hlawful.quiet (hlawful.sound.retracked htask tracker') rfl hlawful.alive (fun _ hname => hname)
      hlawful.agenda hlawful.dying

theorem lawful_handOver (hlawful : Lawful machines ⟨session, todo, held⟩) {task : ℕ} {changed : List Metric}
    (hheld : held.get task = some changed) (horderly : Orderly accepts ⟨session, todo, held⟩ (.handOver task)) :
    Lawful machines ⟨publishDdata accepts task changed session, todo, held.remove task⟩ := by
  have hquiet : Lawful machines ⟨session, todo, held.remove task⟩ :=
    hlawful.quiet hlawful.sound rfl hlawful.alive (fun _ hname => hname) hlawful.agenda hlawful.dying
  unfold publishDdata
  split
  · next spawned htask =>
    by_cases hchanged : changed = []
    · rw [hchanged]
      exact hquiet
    obtain ⟨hsound, hactive⟩ := @sound_publish _ accepts _ hlawful.sound (.ddata spawned.machine.name changed)
    -- the ticker's machine is born: it is active, or its ticker was aborted and speaks before the grave
    have hborn : Born spawned.machine.name session.accepted := by
      obtain ⟨hgrave, hunborn⟩ := horderly (by rw [hheld]; simpa using hchanged) spawned htask
      rcases hlawful.known spawned.machine (hlawful.sound.described task spawned htask) with h | h | h
      · exact h
      · cases haborted : spawned.aborted with
        | true => exact absurd h (hgrave haborted)
        | false =>
          obtain ⟨tasks, hactive', -⟩ := hlawful.sound.running task spawned htask haborted
          exact absurd h (hlawful.alive _ (by rw [Session.isActive, hactive', Option.isSome_some]))
      · exact absurd h hunborn
    rcases Session.accepted_publish_cases accepts session (.ddata spawned.machine.name changed) with haccepted | haccepted
    all_goals
      refine ⟨hsound, ?_, ?_, ?_, hlawful.agenda, ?_⟩
      all_goals rw [haccepted]
    · exact hlawful.ordered
    · exact hlawful.known
    · rw [hactive]
      exact hlawful.alive
    · rw [hactive]
      exact hlawful.dying
    · refine ordered_concat hlawful.ordered ?_
      intro deviceId hlives
      obtain rfl := Option.some.inj hlives
      exact hborn
    · intro machine hmachine
      rcases hlawful.known machine hmachine with h | h | h
      · exact .inl (h.concat (by simp) (by simp))
      · exact .inr (.inl (h.concat (by simp)))
      · exact .inr (.inr h)
    · rw [hactive]
      intro name hname hburied
      exact hlawful.alive name hname (hburied.of_concat (by simp))
    · rw [hactive]
      intro name todo' htodo
      obtain ⟨hborn', hinactive⟩ := hlawful.dying name todo' htodo
      exact ⟨hborn'.concat (by simp) (by simp), hinactive⟩
  · exact hquiet

theorem lawful_step (hnames : (machines.map MachineDescription.name).Nodup) (hlawful : s.Lawful machines)
    {action : NodeAction} (horderly : s.Orderly accepts action)
    (h : s.step machines (.build machines) accepts action = some s') : s'.Lawful machines := by
  cases action with
  | poll machineName stores =>
    obtain ⟨hstores, h⟩ := Option.ite_none_right_eq_some.mp h
    obtain rfl := Option.some.inj h
    exact hlawful.quiet (hlawful.sound.restocked machineName stores) rfl hlawful.alive (fun _ hname => hname)
      hlawful.agenda hlawful.dying
  | receive payload =>
    obtain ⟨htodo, h⟩ := Option.ite_none_right_eq_some.mp h
    obtain rfl := Option.some.inj h
    obtain ⟨session, todo, held⟩ := s
    obtain rfl := List.isEmpty_iff.mp htodo
    exact lawful_receive hlawful payload
  | handle now =>
    rw [step] at h
    split at h
    · next hok =>
      obtain rfl := Option.some.inj h
      exact lawful_handle hnames hlawful horderly hok
    · cases h
  | tick task now =>
    obtain ⟨-, h⟩ := Option.ite_none_left_eq_some.mp h
    split at h
    · next hok =>
      obtain rfl := Option.some.inj h
      exact lawful_tick hlawful hok _
    · cases h
  | handOver task =>
    obtain ⟨changed, hheld, rfl⟩ := Option.map_eq_some_iff.mp h
    exact lawful_handOver hlawful hheld horderly

end Step

/-! ### Every run -/

/-- Startup gives birth to every machine. -/
theorem lawful_start (machines : List MachineDescription) (now : UInt64) : (start machines now).Lawful machines := by
  have haccepted : (start machines now).session.accepted = .nbirth :: machines.map fun machine =>
      .dbirth machine.name (buildMachineMetricsNullPlaceholders machine (.build machines) now) := by
    rw [Session.accepted, start, Session.start, List.filter_eq_self.mpr (by simp), List.map_cons, List.map_map]
    rfl
  refine ⟨Session.sound_start, ?_, ?_, ?_, .births (List.nil_subset _), ?_⟩
  · rw [haccepted]
    intro before call after heq deviceId hlives
    have hmem : call ∈ before ++ call :: after := List.mem_append_right _ List.mem_cons_self
    rw [← heq] at hmem
    rcases List.mem_cons.mp hmem with rfl | hmem
    · cases hlives
    · obtain ⟨machine, -, rfl⟩ := List.mem_map.mp hmem
      cases hlives
  · intro machine hmachine
    obtain ⟨before, after, hsplit⟩ := List.append_of_mem hmachine
    rw [haccepted, hsplit, List.map_append, List.map_cons, ← List.cons_append]
    exact .inl ⟨_, _, _, rfl, by simp, by simp⟩
  · intro name hname
    cases hname
  · intro name todo htodo
    cases htodo

/-- However the handler and the tickers interleave, data and deaths come from devices that are
born. -/
theorem device_lifecycle (description : DeviceDescription) (accepts : ℕ → Bool) (startup : UInt64)
    {actions : List NodeAction} {s : NodeRun}
    (horderly : Permitted (step description.machines (.build description.machines) accepts) (Orderly accepts)
      (start description.machines startup) actions)
    (hrun : execute (step description.machines (.build description.machines) accepts)
      (start description.machines startup) actions = some s) : Ordered s.session.accepted := by
  have hlawful : s.Lawful description.machines := by
    refine invariant_of_execute ?_ (lawful_start description.machines startup) horderly hrun
    intro t action t' hlawful horderly hstep
    exact lawful_step description.names_nodup hlawful horderly hstep
  exact hlawful.ordered

/-- The meter is subscribed and read; its ticker publishes what it read. -/
def metered : List NodeAction :=
  [.receive subscribeMeter, .handle 1, .poll "meter" { MachineStores.new with
    registers := MachineStores.new.registers.set "level" (.u16 7) }, .tick 1 2, .handOver 1]

/-- It is unsubscribed, and reborn before it is subscribed again. -/
def reborn : List NodeAction :=
  metered ++ [NodeAction.receive unsubscribeMeter, .handle 3, .handle 3, .receive rebirth, .handle 4, .handle 4,
    .receive subscribeMeter, .handle 5, .tick 3 6, .handOver 3]

theorem device_lifecycle_reborn : ∃ s,
    execute (step [meter] (.build [meter]) fun _ => true) (start [meter] 0) reborn = some s ∧
      Ordered s.session.accepted := by
  refine ⟨_, rfl, @device_lifecycle ⟨[meter], by simp⟩ (fun _ => true) 0 reborn _ ?_ rfl⟩
  have hrunning : ∀ {s : NodeRun} {task : ℕ} {spawned : Task}, s.todo = [] → s.session.tasks.get task = some spawned →
      spawned.aborted = false → s.Orderly (fun _ => true) (.handOver task) := by
    rintro ⟨session, _, held⟩ task spawned rfl hspawned haborted - other hother
    obtain rfl := Option.some.inj (hspawned.symm.trans hother)
    exact ⟨fun h => absurd (haborted.symm.trans h) Bool.false_ne_true, not_unborn (by simp) _ _ _⟩
  have hborn : ∀ {calls : List PublishCall} {before : List PublishCall} {metrics : List Metric},
      calls = before ++ [.dbirth "meter" metrics] → ¬Buried "meter" calls := by
    rintro _ before metrics rfl
    exact (born_dbirth "meter" before metrics).not_buried
  refine permitted_cons trivial rfl (permitted_cons ?_ rfl (permitted_cons trivial rfl (permitted_cons trivial rfl
    (permitted_cons ?_ rfl (permitted_cons trivial rfl (permitted_cons trivial rfl (permitted_cons trivial rfl
    (permitted_cons trivial rfl (permitted_cons trivial rfl (permitted_cons rfl rfl (permitted_cons trivial rfl
    (permitted_cons ?_ rfl (permitted_cons trivial rfl (permitted_cons ?_ rfl trivial))))))))))))))
  · intro _
    exact @hborn _ [.nbirth] _ rfl
  · exact hrunning rfl rfl rfl
  · intro _
    exact @hborn _ [.nbirth, .dbirth "meter" _, .ddata "meter" _, .ddeath "meter", .nbirth] _ rfl
  · exact hrunning rfl rfl rfl

/-- Subscribed again without a rebirth, the meter sends data from its grave. -/
theorem data_from_the_grave : ∃ s,
    execute (step [meter] (.build [meter]) fun _ => true) (start [meter] 0) (metered ++
      [.receive unsubscribeMeter, .handle 3, .handle 3, .receive subscribeMeter, .handle 4, .tick 3 5, .handOver 3]) =
        some s ∧ ¬Ordered s.session.accepted := by
  refine ⟨_, rfl, ?_⟩
  intro hordered
  have hborn := hordered [.nbirth, .dbirth "meter" _, .ddata "meter" _, .ddeath "meter"] (.ddata "meter" _) [] rfl
    "meter" rfl
  exact hborn.not_buried (buried_ddeath "meter" [.nbirth, .dbirth "meter" _, .ddata "meter" _])

end NodeRun

end InfusedModbus.Client
