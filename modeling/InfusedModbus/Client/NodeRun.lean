import InfusedModbus.Client.SparkplugSession
import InfusedModbus.Foundation.Execution

/-! The client's tasks at the broker. The handler goes through a payload step by step, and between
two steps polling fills the stores and tickers publish; a ticker holds what has changed until it
hands it over, also when it was aborted in between. Left alone, the handler does with a payload
what `handleNcmd` does. -/

namespace InfusedModbus.Client

open Foundation Foundation.Outcome Protocol Datafs
open Sparkplug (Metric Payload)

/-! ### The handler step by step -/

/-- Between two of these the handler awaits. -/
inductive HandlerStep where
  | nbirth
  | dbirth (machine : MachineDescription)
  | subscribe (machineName : String)
  | unsubscribe (machineName : String)
  | ddeath (machineName : String)

def handlerSteps (machines : List MachineDescription) (payload : Payload) : List HandlerStep :=
  if isRebirthRequest payload then .nbirth :: machines.map .dbirth
  else (subscribeRequests payload).map .subscribe ++ (unsubscribeRequests payload).map .unsubscribe

/-- The session, what is left of the payload that is handled, and what the tickers hold. -/
structure NodeRun where
  session : Session
  todo : List HandlerStep
  held : Store ℕ (List Metric)

inductive NodeAction where
  | poll (machineName : String) (stores : MachineStores)
  | receive (payload : Payload)
  | handle (now : UInt64)
  | tick (task : ℕ) (now : UInt64)
  | handOver (task : ℕ)

namespace NodeRun

section Step

variable (machines : List MachineDescription) (aliases : AliasAllocator) (accepts : ℕ → Bool)

/-- The handler's next step. -/
def handle (now : UInt64) (s : NodeRun) : Outcome Empty NodeRun :=
  match s.todo with
  | [] => .ok s
  | .nbirth :: todo =>
    match s.session.publish accepts .nbirth with
    | (true, session) => .ok { s with session := session, todo := todo }
    | (false, session) => .ok { s with session := session, todo := [] }
  | .dbirth machine :: todo =>
    .ok { s with session := rebirthMachine aliases accepts now s.session machine, todo := todo }
  | .subscribe machineName :: todo => do
    let session ← handleSubscribe machines aliases now machineName s.session
    pure { s with session := session, todo := todo }
  | .unsubscribe machineName :: todo =>
    if !machines.any fun machine => machine.name == machineName then .ok { s with todo := todo }
    else
      match s.session.deactivate machineName with
      | (false, session) => .ok { s with session := session, todo := todo }
      | (true, session) => .ok { s with session := session, todo := .ddeath machineName :: todo }
  | .ddeath machineName :: todo =>
    .ok { s with session := (s.session.publish accepts (.ddeath machineName)).2, todo := todo }

/-- A ticker holds what has changed until it hands it over. -/
def step (s : NodeRun) : NodeAction → Option NodeRun
  | .poll machineName stores =>
    if (s.session.stores.get machineName).isSome then
      some { s with session := { s.session with stores := s.session.stores.set machineName stores } }
    else none
  | .receive payload => if s.todo.isEmpty then some { s with todo := handlerSteps machines payload } else none
  | .handle now =>
    match s.handle machines aliases accepts now with
    | .ok s' => some s'
    | _ => none
  | .tick task now =>
    if (s.held.get task).isSome then none
    else
      match tickMetrics aliases now task s.session with
      | .ok (changed, session) => some { s with session := session, held := s.held.set task changed }
      | _ => none
  | .handOver task => (s.held.get task).map fun changed =>
      { s with session := publishDdata accepts task changed s.session, held := s.held.remove task }

end Step

def start (machines : List MachineDescription) (now : UInt64) : NodeRun := ⟨.start machines now, [], .empty⟩

/-! ### The handler alone -/

section Handled

variable {machines : List MachineDescription} {aliases : AliasAllocator} {accepts : ℕ → Bool} {now : UInt64}
variable {session session' : Session} {held : Store ℕ (List Metric)}

/-- The handler goes from one state to the other without anyone in between. -/
def Handled (machines : List MachineDescription) (aliases : AliasAllocator) (accepts : ℕ → Bool) (now : UInt64)
    (s s' : NodeRun) : Prop :=
  ∃ count, execute (step machines aliases accepts) s (List.replicate count (.handle now)) = some s'

theorem Handled.of_handle {s s' s'' : NodeRun} (h : s.handle machines aliases accepts now = .ok s')
    (hrest : Handled machines aliases accepts now s' s'') : Handled machines aliases accepts now s s'' := by
  obtain ⟨count, hcount⟩ := hrest
  refine ⟨count + 1, execute_cons_eq_some.mpr ⟨s', ?_, hcount⟩⟩
  rw [step, h]

theorem Handled.trans {s s' s'' : NodeRun} (h : Handled machines aliases accepts now s s')
    (h' : Handled machines aliases accepts now s' s'') : Handled machines aliases accepts now s s'' := by
  obtain ⟨count, hcount⟩ := h
  obtain ⟨count', hcount'⟩ := h'
  refine ⟨count + count', ?_⟩
  rw [← List.replicate_append_replicate]
  exact execute_append.mpr ⟨s', hcount, hcount'⟩

theorem handled_births (reborn : List MachineDescription) : Handled machines aliases accepts now
    ⟨session, reborn.map .dbirth, held⟩ ⟨reborn.foldl (rebirthMachine aliases accepts now) session, [], held⟩ := by
  induction reborn generalizing session with
  | nil => exact ⟨0, rfl⟩
  | cons machine reborn ih => exact .of_handle rfl ih

theorem handled_subscribes {names : List String} (todo : List HandlerStep)
    (h : names.foldlM (fun s machineName => handleSubscribe machines aliases now machineName s) session =
      .ok session') :
    Handled machines aliases accepts now ⟨session, names.map .subscribe ++ todo, held⟩ ⟨session', todo, held⟩ := by
  induction names generalizing session with
  | nil =>
    obtain rfl := Outcome.ok.inj h
    exact ⟨0, rfl⟩
  | cons machineName names ih =>
    obtain ⟨between, hfirst, hrest⟩ := bind_eq_ok.mp h
    have hok : handleSubscribe machines aliases now machineName session = .ok between := hfirst
    refine .of_handle ?_ (ih hrest)
    rw [handle, List.map_cons, List.cons_append]
    dsimp only
    rw [hok]
    rfl

theorem handled_unsubscribes (names : List String) : Handled machines aliases accepts now
    ⟨session, names.map .unsubscribe, held⟩
    ⟨names.foldl (fun s machineName => handleUnsubscribe machines accepts machineName s) session, [], held⟩ := by
  induction names generalizing session with
  | nil => exact ⟨0, rfl⟩
  | cons machineName names ih =>
    rw [List.foldl_cons]
    cases hknown : machines.any fun machine => machine.name == machineName with
    | false =>
      have hkept : handleUnsubscribe machines accepts machineName session = session := by
        rw [handleUnsubscribe, hknown]
        rfl
      rw [hkept]
      refine .of_handle ?_ ih
      rw [handle, List.map_cons]
      dsimp only
      rw [hknown]
      rfl
    | true =>
      cases hdeactivate : session.deactivate machineName with
      | mk wasActive left =>
        cases wasActive with
        | false =>
          have hleft : handleUnsubscribe machines accepts machineName session = left := by
            rw [handleUnsubscribe, hknown, hdeactivate]
            rfl
          rw [hleft]
          refine .of_handle ?_ ih
          rw [handle, List.map_cons]
          dsimp only
          rw [hknown, hdeactivate]
          rfl
        | true =>
          have hleft : handleUnsubscribe machines accepts machineName session =
              (left.publish accepts (.ddeath machineName)).2 := by
            rw [handleUnsubscribe, hknown, hdeactivate]
            rfl
          have hdeath : handle machines aliases accepts now
              ⟨left, .ddeath machineName :: names.map .unsubscribe, held⟩ =
                .ok ⟨(left.publish accepts (.ddeath machineName)).2, names.map .unsubscribe, held⟩ := rfl
          rw [hleft]
          refine .of_handle ?_ (.of_handle hdeath ih)
          rw [handle, List.map_cons]
          dsimp only
          rw [hknown, hdeactivate]
          rfl

/-- Uninterrupted, the steps of a payload are what the handler does with it. -/
theorem handled_handlerSteps {payload : Payload}
    (h : handleNcmd machines aliases accepts now payload session = .ok session') :
    Handled machines aliases accepts now ⟨session, handlerSteps machines payload, held⟩ ⟨session', [], held⟩ := by
  unfold handleNcmd at h
  unfold handlerSteps
  split at h
  · next hrebirth =>
    rw [if_pos hrebirth]
    split at h
    · next left hpublish =>
      obtain rfl := Outcome.ok.inj h
      refine @Handled.of_handle _ _ _ _ _ ⟨left, [], held⟩ _ ?_ ⟨0, rfl⟩
      rw [handle]
      dsimp only
      rw [hpublish]
    · next left hpublish =>
      obtain rfl := Outcome.ok.inj h
      refine @Handled.of_handle _ _ _ _ _ ⟨left, machines.map .dbirth, held⟩ _ ?_ (handled_births machines)
      rw [handle]
      dsimp only
      rw [hpublish]
  · next hrebirth =>
    rw [if_neg hrebirth]
    obtain ⟨between, hsubscribes, hrest⟩ := bind_eq_ok.mp h
    obtain rfl := Outcome.ok.inj hrest
    exact (handled_subscribes _ hsubscribes).trans (handled_unsubscribes _)

end Handled

/-! ### What the handler's next step does -/

section Cases

variable {machines : List MachineDescription} {accepts : ℕ → Bool} {now : UInt64} {s s' : NodeRun}

/-- The machine whose DBIRTH a call is, and the stores it was built from. -/
def Births (machines : List MachineDescription) (now : UInt64) (s : NodeRun) (call : PublishCall) : Prop :=
  ∃ machine todo stores, s.todo = .dbirth machine :: todo ∧ s.session.stores.get machine.name = some stores ∧
    call = .dbirth machine.name (buildMachineMetrics machine (.build machines) now stores)

/-- It does nothing to the session, makes one call, subscribes or unsubscribes. -/
theorem handle_cases (hsound : s.session.Sound machines) (hnames : (machines.map MachineDescription.name).Nodup)
    (h : s.handle machines (.build machines) accepts now = .ok s') :
    s'.held = s.held ∧ (∀ machine, .dbirth machine ∈ s'.todo → .dbirth machine ∈ s.todo) ∧
      (s'.session = s.session ∨
        (∃ call, s'.session = (s.session.publish accepts call).2 ∧
          (call = .nbirth ∨ (∃ machineName, call = .ddeath machineName) ∨ Births machines now s call)) ∨
        (∃ machine ∈ machines, s.session.active.get machine.name = none ∧
          s'.session = s.session.subscribed machine (placeholderTracker machines machine now)) ∨
        ∃ machineName tasks, s.session.active.get machineName = some tasks ∧
          s'.session = s.session.unsubscribed machineName tasks) := by
  have htail : ∀ {step : HandlerStep} {todo : List HandlerStep}, s.todo = step :: todo →
      ∀ machine, .dbirth machine ∈ todo → .dbirth machine ∈ s.todo := by
    intro step todo htodo machine hmem
    rw [htodo]
    exact List.mem_cons_of_mem _ hmem
  unfold handle at h
  split at h
  · obtain rfl := Outcome.ok.inj h
    exact ⟨rfl, fun _ hmem => hmem, .inl rfl⟩
  · next todo htodo =>
    split at h
    · next hcall =>
      obtain rfl := Outcome.ok.inj h
      exact ⟨rfl, htail htodo, .inr (.inl ⟨.nbirth, (congrArg Prod.snd hcall).symm, .inl rfl⟩)⟩
    · next hcall =>
      obtain rfl := Outcome.ok.inj h
      refine ⟨rfl, fun _ hmem => absurd hmem List.not_mem_nil, ?_⟩
      exact .inr (.inl ⟨.nbirth, (congrArg Prod.snd hcall).symm, .inl rfl⟩)
  · next machine todo htodo =>
    obtain rfl := Outcome.ok.inj h
    refine ⟨rfl, htail htodo, ?_⟩
    dsimp only
    unfold rebirthMachine
    split
    · exact .inl rfl
    · next stores hstores => exact .inr (.inl ⟨_, rfl, .inr (.inr ⟨machine, todo, stores, htodo, hstores, rfl⟩)⟩)
  · next machineName todo htodo =>
    obtain ⟨session, hok, hrest⟩ := bind_eq_ok.mp h
    obtain rfl := Outcome.ok.inj hrest
    refine ⟨rfl, htail htodo, ?_⟩
    rcases Session.handleSubscribe_cases hsound hnames machineName with hsame | ⟨machine, hmachine, -, hinactive, hnew⟩
    · exact .inl (Outcome.ok.inj (hok.symm.trans hsame))
    · exact .inr (.inr (.inl ⟨machine, hmachine, hinactive, Outcome.ok.inj (hok.symm.trans hnew)⟩))
  · next machineName todo htodo =>
    split at h
    · obtain rfl := Outcome.ok.inj h
      exact ⟨rfl, htail htodo, .inl rfl⟩
    · rw [Session.deactivate] at h
      cases hactive : s.session.active.get machineName with
      | none =>
        rw [hactive] at h
        obtain rfl := Outcome.ok.inj h
        exact ⟨rfl, htail htodo, .inl rfl⟩
      | some tasks =>
        rw [hactive] at h
        obtain rfl := Outcome.ok.inj h
        refine ⟨rfl, ?_, .inr (.inr (.inr ⟨machineName, tasks, hactive, rfl⟩))⟩
        intro machine hmem
        rcases List.mem_cons.mp hmem with heq | hmem
        · cases heq
        · exact htail htodo machine hmem
  · next machineName todo htodo =>
    obtain rfl := Outcome.ok.inj h
    exact ⟨rfl, htail htodo, .inr (.inl ⟨_, rfl, .inr (.inl ⟨machineName, rfl⟩)⟩)⟩

end Cases

end NodeRun

end InfusedModbus.Client
