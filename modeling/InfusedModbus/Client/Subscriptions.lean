import InfusedModbus.Client.SparkplugSession
import Mathlib.Data.Finset.Basic

/-! Subscriptions follow the commands. For every payload the machines it subscribes are added,
then those it unsubscribes are removed; every active machine has one polling task and one ticker
that run, no other machine has any, and a DDEATH goes out for each removal. So it is as long as
no payload asks for a rebirth and for something else at once: of such a payload only the rebirth
is looked at. -/

namespace InfusedModbus.Client

open Foundation Foundation.Outcome Protocol Datafs
open Sparkplug (Payload)

/-! ### What the commands say -/

section Commands

variable (machines : List MachineDescription)

def knownNames : Finset String := (machines.map MachineDescription.name).toFinset

/-- The known machines a payload subscribes. -/
def subscribedBy (payload : Payload) : Finset String := (subscribeRequests payload).toFinset ∩ knownNames machines

def unsubscribedBy (payload : Payload) : Finset String := (unsubscribeRequests payload).toFinset

def activeAfter (active : Finset String) (payload : Payload) : Finset String :=
  (active ∪ subscribedBy machines payload) \ unsubscribedBy payload

/-- The active machines after some payloads. -/
def commanded (payloads : List Payload) : Finset String := payloads.foldl (activeAfter machines) ∅

/-- How often a machine is removed. -/
def removals (machineName : String) : Finset String → List Payload → ℕ
  | _, [] => 0
  | active, payload :: payloads =>
    (if machineName ∈ (active ∪ subscribedBy machines payload) ∩ unsubscribedBy payload then 1 else 0) +
      removals machineName (activeAfter machines active payload) payloads

/-- A payload that asks for nothing but what is so already. -/
def AsksNothing (active : Finset String) (payload : Payload) : Prop :=
  subscribedBy machines payload ⊆ active ∧ Disjoint active (unsubscribedBy payload)

/-- A payload that asks for a rebirth asks for nothing else. -/
def RebirthsAlone : Finset String → List Payload → Prop
  | _, [] => True
  | active, payload :: payloads =>
    (isRebirthRequest payload → AsksNothing machines active payload) ∧
      RebirthsAlone (activeAfter machines active payload) payloads

end Commands

/-! ### What the handler does -/

namespace Session

variable {machines : List MachineDescription} {now : UInt64} {accepts : ℕ → Bool} {s : Session}

/-- The machines that are active. -/
def Actives (s : Session) (active : Finset String) : Prop := ∀ name, (s.active.get name).isSome ↔ name ∈ active

/-- How often a machine's DDEATH was handed to the client. -/
def deaths (s : Session) (machineName : String) : ℕ := s.calls.count (.ddeath machineName)

theorem deaths_published (s : Session) (made : List (PublishCall × Bool)) (machineName : String) :
    deaths { s with published := s.published ++ made } machineName =
      s.deaths machineName + (made.map Prod.fst).count (.ddeath machineName) := by
  rw [deaths, calls, List.map_append, List.count_append]
  rfl

/-- A subscribe request adds its machine, if there is one of that name. -/
theorem handleSubscribe_spec (hsound : s.Sound machines) (hnames : (machines.map MachineDescription.name).Nodup)
    {active : Finset String} (hactive : s.Actives active) (machineName : String) :
    ∃ s', handleSubscribe machines (.build machines) now machineName s = .ok s' ∧ s'.Sound machines ∧
      s'.Actives (active ∪ ({machineName} ∩ knownNames machines)) ∧ s'.published = s.published := by
  rcases @handleSubscribe_cases _ now _ hsound hnames machineName with hok | ⟨machine, hmachine, rfl, hinactive, hok⟩
  · refine ⟨s, hok, hsound, ?_, rfl⟩
    -- nothing happens only if the machine is active or unknown
    have hsubset : {machineName} ∩ knownNames machines ⊆ active := by
      intro name hname
      obtain ⟨hname, hknown⟩ := Finset.mem_inter.mp hname
      obtain rfl := Finset.mem_singleton.mp hname
      obtain ⟨machine, hmachine, rfl⟩ := List.mem_map.mp (List.mem_toFinset.mp hknown)
      by_contra hinactive
      rw [← hactive, Option.not_isSome_iff_eq_none] at hinactive
      rw [handleSubscribe_eq hsound hnames hmachine hinactive] at hok
      have hself : (s.subscribed machine (placeholderTracker machines machine now)).active.get machine.name =
          some ⟨s.spawned, s.spawned + 1⟩ := Store.get_set_self _ _ _
      rw [Outcome.ok.inj hok, hinactive] at hself
      cases hself
    rwa [Finset.union_eq_left.mpr hsubset]
  · refine ⟨_, hok, hsound.subscribed hmachine hinactive _, ?_, rfl⟩
    have hknown : machine.name ∈ knownNames machines := List.mem_toFinset.mpr (List.mem_map_of_mem hmachine)
    intro name
    rw [Finset.inter_eq_left.mpr (Finset.singleton_subset_iff.mpr hknown), Finset.mem_union, Finset.mem_singleton]
    by_cases hname : name = machine.name
    · rw [hname, subscribed, Store.get_set_self]
      simp
    · rw [subscribed, Store.get_set_of_ne _ _ hname, hactive name]
      simp [hname]

theorem foldlM_handleSubscribe (hsound : s.Sound machines) (hnames : (machines.map MachineDescription.name).Nodup)
    {active : Finset String} (hactive : s.Actives active) (requests : List String) :
    ∃ s', requests.foldlM (fun s machineName => handleSubscribe machines (.build machines) now machineName s) s =
        .ok s' ∧ s'.Sound machines ∧ s'.Actives (active ∪ (requests.toFinset ∩ knownNames machines)) ∧
      s'.published = s.published := by
  induction requests generalizing s active with
  | nil =>
    refine ⟨s, rfl, hsound, ?_, rfl⟩
    rwa [List.toFinset_nil, Finset.empty_inter, Finset.union_empty]
  | cons machineName requests ih =>
    obtain ⟨s', hok, hsound', hactive', hpublished⟩ := handleSubscribe_spec hsound hnames hactive machineName
    obtain ⟨s'', hrest, hsound'', hactive'', hpublished'⟩ := ih hsound' hactive'
    refine ⟨s'', ?_, hsound'', ?_, hpublished'.trans hpublished⟩
    · rw [List.foldlM_cons, hok, ok_bind, hrest]
    · rwa [List.toFinset_cons, Finset.insert_eq, Finset.union_inter_distrib_right, ← Finset.union_assoc]

/-- An unsubscribe request removes its machine, with a DDEATH, if it is active. -/
theorem handleUnsubscribe_spec (hsound : s.Sound machines) {active : Finset String} (hactive : s.Actives active)
    (machineName : String) :
    (handleUnsubscribe machines accepts machineName s).Sound machines ∧
      (handleUnsubscribe machines accepts machineName s).Actives (active \ {machineName}) ∧
      ∀ name, (handleUnsubscribe machines accepts machineName s).deaths name =
        s.deaths name + if name ∈ active ∩ {machineName} then 1 else 0 := by
  cases hget : s.active.get machineName with
  | none =>
    have hmem : machineName ∉ active := by
      intro hmem
      have hsome := (hactive machineName).mpr hmem
      rw [hget] at hsome
      cases hsome
    rw [handleUnsubscribe_of_inactive hget, Finset.sdiff_singleton_eq_erase, Finset.erase_eq_of_notMem hmem,
      Finset.inter_singleton_of_notMem hmem]
    exact ⟨hsound, hactive, fun _ => rfl⟩
  | some tasks =>
    have hmem : machineName ∈ active := by
      rw [← hactive machineName, hget]
      rfl
    obtain ⟨made, hpublish, hmade⟩ := publish_eq accepts (s.unsubscribed machineName tasks) (.ddeath machineName)
    rw [handleUnsubscribe_eq hsound hget, hpublish]
    refine ⟨(hsound.unsubscribed hget).published _, ?_, ?_⟩
    · intro name
      rw [active_unsubscribed, Finset.mem_sdiff, Finset.mem_singleton]
      by_cases hname : name = machineName
      · rw [hname, Store.get_remove_self]
        simp
      · rw [Store.get_remove_of_ne _ hname, hactive name]
        simp [hname]
    · intro name
      rw [deaths_published, hmade, Finset.inter_singleton_of_mem hmem, deaths, calls, published_unsubscribed]
      by_cases hname : name = machineName
      · subst hname
        simp [PublishCall.isNoop, deaths, calls]
      · have hne : PublishCall.ddeath machineName ≠ .ddeath name := fun heq => hname (PublishCall.ddeath.inj heq).symm
        simp [PublishCall.isNoop, deaths, calls, hname, hne]

theorem foldl_handleUnsubscribe (hsound : s.Sound machines) {active : Finset String} (hactive : s.Actives active)
    (requests : List String) :
    (requests.foldl (fun s machineName => handleUnsubscribe machines accepts machineName s) s).Sound machines ∧
      (requests.foldl (fun s machineName => handleUnsubscribe machines accepts machineName s) s).Actives
        (active \ requests.toFinset) ∧
      ∀ name, (requests.foldl (fun s machineName => handleUnsubscribe machines accepts machineName s) s).deaths name =
        s.deaths name + if name ∈ active ∩ requests.toFinset then 1 else 0 := by
  induction requests generalizing s active with
  | nil => simpa using ⟨hsound, hactive⟩
  | cons machineName requests ih =>
    obtain ⟨hsound', hactive', hdeaths⟩ := @handleUnsubscribe_spec _ accepts _ hsound _ hactive machineName
    obtain ⟨hsound'', hactive'', hdeaths'⟩ := ih hsound' hactive'
    refine ⟨hsound'', ?_, ?_⟩
    · rwa [List.toFinset_cons, Finset.insert_eq, ← Finset.sup_eq_union, ← sdiff_sdiff_left]
    · intro name
      rw [List.foldl_cons, hdeaths', hdeaths, Nat.add_assoc]
      congr 1
      by_cases hname : name = machineName <;> simp [hname]

/-! ### One payload -/

/-- What a payload should do. -/
structure StepFollows (machines : List MachineDescription) (active : Finset String) (payload : Payload)
    (s s' : Session) : Prop where
  actives : s'.Actives (activeAfter machines active payload)
  deaths : ∀ name, s'.deaths name =
    s.deaths name + if name ∈ (active ∪ subscribedBy machines payload) ∩ unsubscribedBy payload then 1 else 0

theorem Actives.unique {active active' : Finset String} (h : s.Actives active) (h' : s.Actives active') :
    active = active' := by
  ext name
  rw [← h name, h' name]

/-- Asking for nothing means that nothing is to be done. -/
theorem asksNothing_iff {active : Finset String} {payload : Payload} :
    AsksNothing machines active payload ↔ activeAfter machines active payload = active ∧
      (active ∪ subscribedBy machines payload) ∩ unsubscribedBy payload = ∅ := by
  constructor
  · rintro ⟨hsubset, hdisjoint⟩
    rw [activeAfter, Finset.union_eq_left.mpr hsubset]
    exact ⟨Finset.sdiff_eq_self_of_disjoint hdisjoint, Finset.disjoint_iff_inter_eq_empty.mp hdisjoint⟩
  · rintro ⟨hactive, hnone⟩
    have hdisjoint := Finset.disjoint_iff_inter_eq_empty.mpr hnone
    rw [activeAfter, Finset.sdiff_eq_self_of_disjoint hdisjoint] at hactive
    exact ⟨Finset.union_eq_left.mp hactive, hdisjoint.mono_left Finset.subset_union_left⟩

/-- A payload does what it should unless it asks for a rebirth and for something else. -/
theorem handleNcmd_follows_iff (hsound : s.Sound machines) (hnames : (machines.map MachineDescription.name).Nodup)
    {active : Finset String} (hactive : s.Actives active) (payload : Payload) :
    ∃ s', handleNcmd machines (.build machines) accepts now payload s = .ok s' ∧ s'.Sound machines ∧
      (StepFollows machines active payload s s' ↔ (isRebirthRequest payload → AsksNothing machines active payload)) := by
  by_cases hrebirth : isRebirthRequest payload = true
  · -- a rebirth changes neither who is active nor the deaths
    have hkept : ∃ s', handleNcmd machines (.build machines) accepts now payload s = .ok s' ∧ s'.Sound machines ∧
        s'.Actives active ∧ ∀ name, s'.deaths name = s.deaths name := by
      obtain ⟨made, hpublish, hmade⟩ := publish_eq accepts s .nbirth
      rw [handleNcmd, if_pos hrebirth]
      cases hcall : s.publish accepts .nbirth with
      | mk accepted s' =>
        rw [hcall] at hpublish
        dsimp only at hpublish
        have hdeaths : ∀ name, s'.deaths name = s.deaths name := by
          intro name
          rw [hpublish, deaths_published, hmade]
          rfl
        cases accepted with
        | false =>
          refine ⟨s', rfl, ?_, ?_, hdeaths⟩ <;> rw [hpublish]
          · exact hsound.published _
          · exact hactive
        | true =>
          have hsound' : s'.Sound machines := hpublish ▸ hsound.published _
          obtain ⟨births, hbirths, hcalls⟩ :=
            @foldl_rebirthMachine _ now accepts _ hsound' _ (fun _ h => h) (.build machines)
          refine ⟨_, rfl, ?_, ?_, ?_⟩ <;> rw [hbirths]
          · exact hsound'.published _
          · rw [hpublish]
            exact hactive
          · intro name
            rw [deaths_published, hcalls, hdeaths, List.count_eq_zero.mpr, Nat.add_zero]
            intro hmem
            obtain ⟨machine, -, hcall⟩ := List.mem_map.mp hmem
            cases hcall
    obtain ⟨s', hok, hsound', hactive', hdeaths⟩ := hkept
    refine ⟨s', hok, hsound', ?_⟩
    rw [asksNothing_iff]
    constructor
    · intro h _
      refine ⟨h.actives.unique hactive', Finset.eq_empty_of_forall_notMem ?_⟩
      intro name hname
      have hdeath := h.deaths name
      rw [hdeaths, if_pos hname] at hdeath
      omega
    · intro h
      obtain ⟨hsame, hnone⟩ := h hrebirth
      refine ⟨hsame.symm ▸ hactive', ?_⟩
      intro name
      rw [hdeaths, hnone, if_neg (Finset.notMem_empty name), Nat.add_zero]
  · obtain ⟨s₁, hok, hsound₁, hactive₁, hpublished⟩ :=
      @foldlM_handleSubscribe _ now _ hsound hnames _ hactive (subscribeRequests payload)
    obtain ⟨hsound₂, hactive₂, hdeaths⟩ :=
      @foldl_handleUnsubscribe _ accepts _ hsound₁ _ hactive₁ (unsubscribeRequests payload)
    refine ⟨_, ?_, hsound₂, iff_of_true ⟨hactive₂, ?_⟩ fun h => absurd h hrebirth⟩
    · rw [handleNcmd, if_neg hrebirth, hok, ok_bind, pure_eq]
    · intro name
      rw [hdeaths, deaths, deaths, calls, calls, hpublished]
      rfl

/-! ### The tasks -/

/-- A task that polls the machine. -/
def Polls (s : Session) (machineName : String) (task : ℕ) : Prop :=
  ∃ machine, s.tasks.get task = some ⟨machine, .polling, false⟩ ∧ machine.name = machineName

/-- A task that publishes what has changed in the machine. -/
def Ticks (s : Session) (machineName : String) (task : ℕ) : Prop :=
  ∃ machine tracker, s.tasks.get task = some ⟨machine, .ddataTicker tracker, false⟩ ∧ machine.name = machineName

theorem Sound.existsUnique_polls (hsound : s.Sound machines) {machineName : String}
    (h : (s.active.get machineName).isSome) : ∃! task, s.Polls machineName task := by
  obtain ⟨tasks, hactive⟩ := Option.isSome_iff_exists.mp h
  obtain ⟨machine, -, hname, hpolling, tracker, hticker⟩ := hsound.pair machineName tasks hactive
  refine ⟨tasks.polling, ⟨machine, hpolling, hname⟩, ?_⟩
  rintro task ⟨other, hother, rfl⟩
  obtain ⟨tasks', hactive', htask⟩ := hsound.running task _ hother rfl
  obtain rfl := Option.some.inj (hactive.symm.trans hactive')
  rcases htask with rfl | rfl
  · rfl
  · rw [hticker] at hother
    cases hother

theorem Sound.existsUnique_ticks (hsound : s.Sound machines) {machineName : String}
    (h : (s.active.get machineName).isSome) : ∃! task, s.Ticks machineName task := by
  obtain ⟨tasks, hactive⟩ := Option.isSome_iff_exists.mp h
  obtain ⟨machine, -, hname, hpolling, tracker, hticker⟩ := hsound.pair machineName tasks hactive
  refine ⟨tasks.ddataTicker, ⟨machine, tracker, hticker, hname⟩, ?_⟩
  rintro task ⟨other, tracker', hother, rfl⟩
  obtain ⟨tasks', hactive', htask⟩ := hsound.running task _ hother rfl
  obtain rfl := Option.some.inj (hactive.symm.trans hactive')
  rcases htask with rfl | rfl
  · rw [hpolling] at hother
    cases hother
  · rfl

/-- Of a machine that is not active nothing runs. -/
theorem Sound.idle (hsound : s.Sound machines) {machineName : String} (h : ¬(s.active.get machineName).isSome)
    (task : ℕ) : ¬s.Polls machineName task ∧ ¬s.Ticks machineName task := by
  have hnone : ∀ spawned, s.tasks.get task = some spawned → spawned.aborted = false →
      spawned.machine.name ≠ machineName := by
    rintro spawned hget hrunning rfl
    obtain ⟨tasks, hactive, -⟩ := hsound.running task spawned hget hrunning
    exact h (Option.isSome_iff_exists.mpr ⟨tasks, hactive⟩)
  constructor
  · rintro ⟨machine, hget, hname⟩
    exact hnone _ hget rfl hname
  · rintro ⟨machine, tracker, hget, hname⟩
    exact hnone _ hget rfl hname

/-! ### All payloads -/

/-- The payloads that are received, each with the time at which it is handled. -/
def runNcmdHandler (machines : List MachineDescription) (aliases : AliasAllocator) (accepts : ℕ → Bool)
    (received : List (Payload × UInt64)) (s : Session) : Outcome Empty Session :=
  received.foldlM (fun s payload => handleNcmd machines aliases accepts payload.2 payload.1 s) s

/-- Who is active, what runs and who has died is as the payloads command. -/
structure FollowsCommands (machines : List MachineDescription) (payloads : List Payload) (s : Session) : Prop where
  actives : s.Actives (commanded machines payloads)
  tasks : ∀ name ∈ commanded machines payloads, (∃! task, s.Polls name task) ∧ ∃! task, s.Ticks name task
  idle : ∀ name ∉ commanded machines payloads, ∀ task, ¬s.Polls name task ∧ ¬s.Ticks name task
  deaths : ∀ name, s.deaths name = removals machines name ∅ payloads

/-- The active machines are machines of the description. -/
theorem Sound.exists_actives (hsound : s.Sound machines) : ∃ active, s.Actives active := by
  refine ⟨(knownNames machines).filter fun name => (s.active.get name).isSome, ?_⟩
  intro name
  rw [Finset.mem_filter]
  constructor
  · intro hsome
    obtain ⟨tasks, hactive⟩ := Option.isSome_iff_exists.mp hsome
    obtain ⟨machine, hmachine, hname, -⟩ := hsound.pair name tasks hactive
    exact ⟨List.mem_toFinset.mpr (List.mem_map.mpr ⟨machine, hmachine, hname⟩), hsome⟩
  · exact And.right

/-- The handler does not panic, and its tasks stay those of the active machines. -/
theorem Sound.handleNcmd (hsound : s.Sound machines) (hnames : (machines.map MachineDescription.name).Nodup)
    (payload : Payload) :
    ∃ s', handleNcmd machines (.build machines) accepts now payload s = .ok s' ∧ s'.Sound machines := by
  obtain ⟨active, hactive⟩ := hsound.exists_actives
  obtain ⟨s', hok, hsound', -⟩ := handleNcmd_follows_iff hsound hnames hactive payload
  exact ⟨s', hok, hsound'⟩

theorem Sound.runNcmdHandler (hsound : s.Sound machines) (hnames : (machines.map MachineDescription.name).Nodup)
    {received : List (Payload × UInt64)} {s' : Session}
    (h : runNcmdHandler machines (.build machines) accepts received s = .ok s') : s'.Sound machines := by
  induction received generalizing s with
  | nil =>
    obtain rfl := Outcome.ok.inj h
    exact hsound
  | cons payload received ih =>
    obtain ⟨s₁, hok, hsound₁⟩ := hsound.handleNcmd hnames payload.1
    rw [Session.runNcmdHandler, List.foldlM_cons, hok, ok_bind] at h
    exact ih hsound₁ h

/-- From any state, the payloads do what they should just when rebirths are asked for alone. -/
theorem runNcmdHandler_follows_iff (hsound : s.Sound machines) (hnames : (machines.map MachineDescription.name).Nodup)
    {active : Finset String} (hactive : s.Actives active) (received : List (Payload × UInt64)) :
    (∀ handled, handled <+: received → ∃ s', runNcmdHandler machines (.build machines) accepts handled s = .ok s' ∧
      s'.Actives ((handled.map Prod.fst).foldl (activeAfter machines) active) ∧
      ∀ name, s'.deaths name = s.deaths name + removals machines name active (handled.map Prod.fst)) ↔
    RebirthsAlone machines active (received.map Prod.fst) := by
  induction received generalizing s active with
  | nil =>
    refine iff_of_true ?_ trivial
    intro handled hprefix
    obtain rfl := List.prefix_nil.mp hprefix
    exact ⟨s, rfl, hactive, fun _ => rfl⟩
  | cons payload received ih =>
    obtain ⟨s₁, hok, hsound₁, hiff⟩ := @handleNcmd_follows_iff _ payload.2 accepts s hsound hnames active hactive payload.1
    have hrun : ∀ handled, runNcmdHandler machines (.build machines) accepts (payload :: handled) s =
        runNcmdHandler machines (.build machines) accepts handled s₁ := by
      intro handled
      rw [runNcmdHandler, List.foldlM_cons, hok, ok_bind]
      rfl
    rw [List.map_cons, RebirthsAlone, ← hiff]
    constructor
    · intro h
      have hfirst : StepFollows machines active payload.1 s s₁ := by
        obtain ⟨s', hok', hactive', hdeaths⟩ := h [payload] (List.prefix_append [payload] received)
        obtain rfl := Outcome.ok.inj ((hrun []).symm.trans hok')
        exact ⟨hactive', hdeaths⟩
      refine ⟨hfirst, (ih hsound₁ hfirst.actives).mp ?_⟩
      intro handled hprefix
      obtain ⟨s', hok', hactive', hdeaths⟩ := h (payload :: handled) (List.cons_prefix_cons.mpr ⟨rfl, hprefix⟩)
      refine ⟨s', (hrun handled).symm.trans hok', hactive', ?_⟩
      intro name
      rw [hdeaths name, hfirst.deaths name, List.map_cons, removals, Nat.add_assoc]
    · rintro ⟨hfirst, hrest⟩ handled hprefix
      cases handled with
      | nil => exact ⟨s, rfl, hactive, fun _ => rfl⟩
      | cons first handled =>
        obtain ⟨rfl, hhandled⟩ := List.cons_prefix_cons.mp hprefix
        obtain ⟨s', hok', hactive', hdeaths⟩ := (ih hsound₁ hfirst.actives).mpr hrest handled hhandled
        refine ⟨s', (hrun handled).trans hok', hactive', ?_⟩
        intro name
        rw [hdeaths name, hfirst.deaths name, List.map_cons, removals, Nat.add_assoc]

theorem actives_start : (start machines now).Actives ∅ := by
  intro name
  simp [start]

theorem deaths_start (machineName : String) : (start machines now).deaths machineName = 0 := by
  rw [deaths, List.count_eq_zero, calls, start, List.map_cons, List.map_map]
  intro hmem
  rcases List.mem_cons.mp hmem with heq | hmem
  · cases heq
  · obtain ⟨machine, -, heq⟩ := List.mem_map.mp hmem
    cases heq

/-- After every payload the subscriptions are as commanded, if and only if no payload that asks
for a rebirth subscribes a known machine that is not active or unsubscribes an active one. -/
theorem subscriptions_follow_iff (description : DeviceDescription) (accepts : ℕ → Bool) (startup : UInt64)
    (received : List (Payload × UInt64)) :
    (∀ handled, handled <+: received → ∃ s,
      runNcmdHandler description.machines (.build description.machines) accepts handled
        (start description.machines startup) = .ok s ∧
      FollowsCommands description.machines (handled.map Prod.fst) s) ↔
    RebirthsAlone description.machines ∅ (received.map Prod.fst) := by
  have hsound := @sound_start description.machines startup
  rw [← @runNcmdHandler_follows_iff _ accepts _ hsound description.names_nodup _ actives_start]
  constructor
  · intro h handled hprefix
    obtain ⟨s, hok, hfollows⟩ := h handled hprefix
    refine ⟨s, hok, hfollows.actives, ?_⟩
    intro name
    rw [hfollows.deaths name, deaths_start, Nat.zero_add]
  · intro h handled hprefix
    obtain ⟨s, hok, hactive, hdeaths⟩ := h handled hprefix
    have hsound' := hsound.runNcmdHandler description.names_nodup hok
    refine ⟨s, hok, hactive, ?_, ?_, ?_⟩
    · intro name hname
      have hisActive := (hactive name).mpr hname
      exact ⟨hsound'.existsUnique_polls hisActive, hsound'.existsUnique_ticks hisActive⟩
    · intro name hname
      exact hsound'.idle fun hisActive => hname ((hactive name).mp hisActive)
    · intro name
      rw [hdeaths name, deaths_start, Nat.zero_add]

/-- A payload that asks for a rebirth and subscribes a machine. -/
def rebirthAndSubscribe : Payload :=
  command [commandMetric rebirthMetricName (.boolean true), commandMetric subscribeMetricName (.string "meter")]

/-- The machine it subscribes is not active afterwards. -/
theorem rebirth_drops_subscribe : ∃ s,
    runNcmdHandler [meter] (.build [meter]) (fun _ => true) [(rebirthAndSubscribe, 1)] (start [meter] 0) = .ok s ∧
    ¬FollowsCommands [meter] [rebirthAndSubscribe] s := by
  refine ⟨_, rfl, ?_⟩
  intro hfollows
  have hcommanded : "meter" ∈ commanded [meter] [rebirthAndSubscribe] := by decide
  have hactive := (hfollows.actives "meter").mpr hcommanded
  cases hactive

end Session

end InfusedModbus.Client
