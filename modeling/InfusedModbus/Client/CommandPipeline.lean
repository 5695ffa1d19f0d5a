import InfusedModbus.Client.CommandPermission
import InfusedModbus.Foundation.Execution
import InfusedModbus.Sparkplug.Topic

/-! Commands on their way to the devices. Three tasks hand them on: the event loop picks them
out of all that is published, the forwarder decodes them and stages their writes, and the
consumer sends these to the devices and reports on them. Whatever the interleaving, the
commands are carried out in the order in which they came, each of them once. -/

namespace InfusedModbus.Client

open Foundation Foundation.Outcome Protocol Datafs Server
open Sparkplug (MessageType IsLevel LevelIds Payload buildTopic buildTopic_injective buildTopic_dcmd_injective
  decodePayload encodePayload)

/-! ### The event loop -/

/-- What follows a text at the start of another. -/
def stripStart (start text : String) : Option String :=
  if start.toList <+: text.toList then some (String.ofList (text.toList.drop start.toList.length)) else none

/-- The channel a publish goes to. -/
inductive Routed where
  | dcmd (deviceId : String)
  | ncmd
  deriving DecidableEq, Repr

def routeOf (groupId edgeNodeId topic : String) : Option Routed :=
  match stripStart ("spBv1.0/" ++ groupId ++ "/DCMD/" ++ edgeNodeId ++ "/") topic with
  | some deviceId => some (.dcmd deviceId)
  | none => if (buildTopic groupId .ncmd edgeNodeId none).toOption = some topic then some .ncmd else none

theorem stripStart_eq_some {start text rest : String} : stripStart start text = some rest ↔ start ++ rest = text := by
  rw [stripStart]
  constructor
  · intro h
    obtain ⟨hstart, h⟩ := Option.ite_none_right_eq_some.mp h
    obtain ⟨chars, hchars⟩ := hstart
    obtain rfl := Option.some.inj h
    apply String.toList_injective
    rw [String.toList_append, String.toList_ofList, ← hchars, List.drop_left]
  · rintro rfl
    rw [String.toList_append, if_pos (List.prefix_append _ _), List.drop_left, String.ofList_toList]

/-- A publish goes to the commands of a device when its topic is that of a command to it. -/
theorem routeOf_eq_dcmd {groupId edgeNodeId topic deviceId : String} :
    routeOf groupId edgeNodeId topic = some (.dcmd deviceId) ↔
      buildTopic groupId .dcmd edgeNodeId (some deviceId) = .ok topic := by
  have htopic : buildTopic groupId .dcmd edgeNodeId (some deviceId) =
      .ok ("spBv1.0/" ++ groupId ++ "/DCMD/" ++ edgeNodeId ++ "/" ++ deviceId) := by
    simp [buildTopic, MessageType.isDeviceScoped, MessageType.asStr, String.append_assoc]
  rw [routeOf, htopic, Except.ok.injEq, ← stripStart_eq_some]
  split
  · next rest hstrip => simp [hstrip]
  · next hstrip => simp [hstrip]

/-- And to the commands of the node when its topic is theirs. -/
theorem routeOf_eq_ncmd {groupId edgeNodeId topic : String} :
    routeOf groupId edgeNodeId topic = some .ncmd ↔ buildTopic groupId .ncmd edgeNodeId none = .ok topic := by
  have htopic : buildTopic groupId .ncmd edgeNodeId none =
      .ok ("spBv1.0/" ++ groupId ++ "/NCMD/" ++ edgeNodeId) := by
    simp [buildTopic, MessageType.isDeviceScoped, MessageType.asStr, String.append_assoc]
  rw [routeOf, htopic, Except.ok.injEq]
  split
  · next rest hstrip =>
    simp only [Option.some.injEq, reduceCtorEq, false_iff]
    rintro rfl
    -- the topics differ in the first letter after the group
    have hchars := congrArg String.toList (stripStart_eq_some.mp hstrip)
    simp [String.toList_append] at hchars
  · simp [Except.toOption]

/-- The channel of a message by its address. -/
def routeOfMessage (messageType : MessageType) (deviceId : Option String) : Option Routed :=
  match messageType, deviceId with
  | .dcmd, some deviceId => some (.dcmd deviceId)
  | .ncmd, none => some .ncmd
  | _, _ => none

/-- Of all messages of all nodes a node is given the commands to itself and to its devices,
each with the device it is for, and nothing else. -/
theorem own_commands_received {groupId edgeNodeId : String} (hgroup : IsLevel groupId) (hnode : IsLevel edgeNodeId)
    {groupId' edgeNodeId' : String} {messageType : MessageType} {deviceId : Option String}
    (hids : LevelIds groupId' edgeNodeId' deviceId) {topic : String}
    (htopic : buildTopic groupId' messageType edgeNodeId' deviceId = .ok topic) :
    routeOf groupId edgeNodeId topic =
      if groupId' = groupId ∧ edgeNodeId' = edgeNodeId then routeOfMessage messageType deviceId else none := by
  -- a route that is found is that of a message with the same topic
  have hfound : ∀ routed, routeOf groupId edgeNodeId topic = some routed →
      (groupId' = groupId ∧ edgeNodeId' = edgeNodeId) ∧ routeOfMessage messageType deviceId = some routed := by
    intro routed hrouted
    cases routed with
    | dcmd device =>
      obtain ⟨rfl, rfl, rfl, rfl⟩ := buildTopic_dcmd_injective hgroup hnode hids (routeOf_eq_dcmd.mp hrouted) htopic
      exact ⟨⟨rfl, rfl⟩, rfl⟩
    | ncmd =>
      obtain ⟨rfl, rfl, rfl, rfl⟩ := buildTopic_injective hids ⟨hgroup, hnode, by simp⟩ htopic
        (routeOf_eq_ncmd.mp hrouted)
      exact ⟨⟨rfl, rfl⟩, rfl⟩
  have hback : ∀ routed, groupId' = groupId ∧ edgeNodeId' = edgeNodeId →
      routeOfMessage messageType deviceId = some routed → routeOf groupId edgeNodeId topic = some routed := by
    rintro routed ⟨rfl, rfl⟩ hrouted
    unfold routeOfMessage at hrouted
    split at hrouted
    · obtain rfl := Option.some.inj hrouted
      exact routeOf_eq_dcmd.mpr htopic
    · obtain rfl := Option.some.inj hrouted
      exact routeOf_eq_ncmd.mpr htopic
    · cases hrouted
  apply Option.ext
  intro routed
  rw [Option.ite_none_right_eq_some]
  exact ⟨hfound routed, fun h => hback routed h.1 h.2⟩

/-- Of two nodes that share a device's name each is given its own commands. -/
theorem own_commands_received_pump :
    routeOf "plant" "edge" "spBv1.0/plant/DCMD/edge/pump" = some (.dcmd "pump") ∧
      routeOf "plant" "edge" "spBv1.0/plant/DCMD/other/pump" = none := by
  have hids : ∀ edgeNodeId, IsLevel edgeNodeId → LevelIds "plant" edgeNodeId (some "pump") := by
    intro edgeNodeId hnode
    refine ⟨by decide, hnode, fun device hdevice => ?_⟩
    obtain rfl := Option.some.inj hdevice
    decide
  have hreceived : ∀ edgeNodeId topic, IsLevel edgeNodeId →
      buildTopic "plant" .dcmd edgeNodeId (some "pump") = .ok topic →
      routeOf "plant" "edge" topic =
        if "plant" = "plant" ∧ edgeNodeId = "edge" then routeOfMessage .dcmd (some "pump") else none := by
    intro edgeNodeId topic hnode htopic
    exact own_commands_received (by decide) (by decide) (hids edgeNodeId hnode) htopic
  constructor
  · exact hreceived "edge" "spBv1.0/plant/DCMD/edge/pump" (by decide) rfl
  · exact hreceived "other" "spBv1.0/plant/DCMD/other/pump" (by decide) rfl

/-! ### The three tasks -/

/-- What the three tasks are given. -/
structure CommandPath (σ : Type) where
  usizeBits : ℕ
  groupId : String
  edgeNodeId : String
  machines : List MachineDescription
  aliases : AliasAllocator
  request : Exchange σ

/-- The configuration of every machine under its name. -/
def CommandPath.machineTransactionConfigs {σ : Type} (path : CommandPath σ) : Store String MachineTransactionConfig :=
  Store.empty.setAll (path.machines.map fun machine => (machine.name, .ofDescription machine))

/-- A map of staged writes, with the order in which it gives them out. The payload that they
were decoded from is not sent along; it stands here to be referred to. -/
structure CommandedTransaction where
  machineName : String
  payload : Payload
  writes : List (String × StagedValue)

/-- A transaction that was sent, and the report after it. -/
structure CarriedOut extends CommandedTransaction where
  report : WriteReport

/-- The channels between the tasks, what the consumer talks to and reports to, and what it
has done. -/
structure CommandPipeline (σ : Type) where
  dcmds : List (String × Bytes)
  ncmds : List Bytes
  transactions : List CommandedTransaction
  connection : σ
  reports : Store String WriteReport
  carriedOut : List CarriedOut

/-- A publish arrives, or one of the other tasks takes a turn. -/
inductive CommandAction where
  | publish (topic : String) (payload : Bytes)
  | forward (writes : List (String × StagedValue))
  | consume

namespace CommandPipeline

variable {σ : Type} (path : CommandPath σ)

def start (connection : σ) : CommandPipeline σ := ⟨[], [], [], connection, .empty, []⟩

/-- A turn of the event loop. -/
def receive (s : CommandPipeline σ) (topic : String) (payload : Bytes) : CommandPipeline σ :=
  match routeOf path.groupId path.edgeNodeId topic with
  | some (.dcmd deviceId) => { s with dcmds := s.dcmds ++ [(deviceId, payload)] }
  | some .ncmd => { s with ncmds := s.ncmds ++ [payload] }
  | none => s

/-- A turn of `run_dcmd_forwarder`, when the map gives out the writes in this order. -/
def forwardDcmd (s : CommandPipeline σ) (writes : List (String × StagedValue)) : Option (CommandPipeline σ) :=
  match s.dcmds with
  | [] => none
  | (deviceId, payloadBytes) :: dcmds =>
    match decodePayload path.usizeBits payloadBytes with
    | .ok payload =>
      match path.machines.find? fun machine => machine.name == deviceId with
      | some _ =>
        if writes.isEmpty then some { s with dcmds := dcmds }
        else some { s with dcmds := dcmds, transactions := s.transactions ++ [⟨deviceId, payload, writes⟩] }
      | none => some { s with dcmds := dcmds }
    | .err _ => some { s with dcmds := dcmds }
    | .panic => none

/-- A turn of `run_transaction_consumer`. -/
def consume (s : CommandPipeline σ) : Option (CommandPipeline σ) :=
  match s.transactions with
  | [] => none
  | transaction :: transactions =>
    match path.machineTransactionConfigs.get transaction.machineName with
    | none => some { s with transactions := transactions }
    | some config =>
      match processTransaction path.request config transaction.writes s.connection
          ((s.reports.get transaction.machineName).getD .empty) with
      | .ok (connection, report) =>
        some { s with
          transactions := transactions
          connection := connection
          reports := s.reports.set transaction.machineName report
          carriedOut := s.carriedOut ++ [⟨transaction, report⟩] }
      | .err e => e.elim
      | .panic => none

def step (s : CommandPipeline σ) : CommandAction → Option (CommandPipeline σ)
  | .publish topic payload => some (s.receive path topic payload)
  | .forward writes => s.forwardDcmd path writes
  | .consume => s.consume path

/-- What the forwarder forwards is what is staged for the command. -/
def Staged (s : CommandPipeline σ) : CommandAction → Prop
  | .forward writes => ∀ message ∈ s.dcmds.head?, ∀ payload, decodePayload path.usizeBits message.2 = .ok payload →
      ∀ machine ∈ path.machines.find? (fun machine => machine.name == message.1),
        Enumerates writes (decodeDcmdMetrics machine path.aliases payload)
  | _ => True

/-! ### What is to be carried out -/

/-- A metric of the payload stages a write. -/
def stagesAny (machine : MachineDescription) (aliases : AliasAllocator) (payload : Payload) : Bool :=
  payload.metrics.any fun metric =>
    match commandedName machine aliases metric with
    | some name => (metricValueToStagedValue machine name metric.value).toOption.isSome
    | none => false

/-- The command a message is: to a machine that there is, and with a write to it. -/
def commandOf (message : String × Bytes) : Option (String × Payload) :=
  match decodePayload path.usizeBits message.2, path.machines.find? fun machine => machine.name == message.1 with
  | .ok payload, some machine => if stagesAny machine path.aliases payload then some (message.1, payload) else none
  | _, _ => none

/-- The commands among the publishes, in order. -/
def commandsOf (actions : List CommandAction) : List (String × Payload) :=
  actions.filterMap fun action =>
    match action with
    | .publish topic payload =>
      match routeOf path.groupId path.edgeNodeId topic with
      | some (.dcmd deviceId) => commandOf path (deviceId, payload)
      | _ => none
    | _ => none

/-- The commands a pipeline has carried out, and those it still holds. -/
def commands (s : CommandPipeline σ) : List (String × Payload) :=
  s.carriedOut.map (fun transaction => (transaction.machineName, transaction.payload)) ++
    s.transactions.map (fun transaction => (transaction.machineName, transaction.payload)) ++
    s.dcmds.filterMap (commandOf path)

/-- A transaction is what is staged for its payload at its machine. -/
def StagedFor (transaction : CommandedTransaction) : Prop :=
  ∃ machine, path.machines.find? (fun machine => machine.name == transaction.machineName) = some machine ∧
    Enumerates transaction.writes (decodeDcmdMetrics machine path.aliases transaction.payload)

variable {path} {s s' : CommandPipeline σ}

/-- There is something to write when a metric stages something. -/
theorem isEmpty_writes {machine : MachineDescription} {aliases : AliasAllocator} {payload : Payload}
    {writes : List (String × StagedValue)} (h : Enumerates writes (decodeDcmdMetrics machine aliases payload)) :
    writes.isEmpty = !stagesAny machine aliases payload := by
  have hstages : stagesAny machine aliases payload = true ↔ ∃ entry, entry ∈ writes := by
    rw [stagesAny, List.any_eq_true]
    constructor
    · rintro ⟨metric, hmetric, hsome⟩
      split at hsome
      · next name hname =>
        obtain ⟨staged, hstaged⟩ := Option.isSome_iff_exists.mp hsome
        have hunder : stagedUnder machine aliases name metric = some staged := by
          rw [stagedUnder, if_pos hname, hstaged]
        have hmem : (metric, staged) ∈ payload.metrics.filterMap fun metric =>
            (stagedUnder machine aliases name metric).map fun staged => (metric, staged) :=
          List.mem_filterMap.mpr ⟨metric, hmetric, by rw [hunder]; rfl⟩
        obtain ⟨last, hlast⟩ := Option.isSome_iff_exists.mp
          (List.getLast?_isSome.mpr (List.ne_nil_of_mem hmem))
        exact ⟨(name, last.2), (mem_transaction_iff h).mpr ⟨last.1, hlast⟩⟩
      · cases hsome
    · rintro ⟨⟨name, staged⟩, hentry⟩
      obtain ⟨metric, hcommander⟩ := (mem_transaction_iff h).mp hentry
      obtain ⟨other, hmem, hother⟩ := List.mem_filterMap.mp (List.mem_of_getLast? hcommander)
      obtain ⟨value, hunder, -⟩ := Option.map_eq_some_iff.mp hother
      refine ⟨other, hmem, ?_⟩
      rw [stagedUnder] at hunder
      obtain ⟨hname, hvalue⟩ := Option.ite_none_right_eq_some.mp hunder
      rw [hname]
      exact Option.isSome_iff_exists.mpr ⟨value, hvalue⟩
  rw [Bool.eq_iff_iff, List.isEmpty_iff, Bool.not_eq_true', ← Bool.not_eq_true, hstages, List.eq_nil_iff_forall_not_mem,
    not_exists]

/-- A turn of the forwarder takes one message, and forwards it if it is a command. -/
theorem forwardDcmd_cases {writes : List (String × StagedValue)} (hstaged : s.Staged path (.forward writes))
    (h : s.forwardDcmd path writes = some s') :
    ∃ message dcmds, s.dcmds = message :: dcmds ∧
      s' = { s with
        dcmds := dcmds
        transactions := s.transactions ++
          ((commandOf path message).map fun command => ⟨command.1, command.2, writes⟩).toList } ∧
      ∀ command ∈ commandOf path message, StagedFor path ⟨command.1, command.2, writes⟩ := by
  unfold forwardDcmd at h
  split at h
  · cases h
  · next deviceId payloadBytes dcmds hdcmds =>
    refine ⟨(deviceId, payloadBytes), dcmds, hdcmds, ?_⟩
    have hdropped : commandOf path (deviceId, payloadBytes) = none → s' = { s with dcmds := dcmds } →
        s' = { s with
          dcmds := dcmds
          transactions := s.transactions ++ ((commandOf path (deviceId, payloadBytes)).map fun command =>
            ⟨command.1, command.2, writes⟩).toList } ∧
        ∀ command ∈ commandOf path (deviceId, payloadBytes), StagedFor path ⟨command.1, command.2, writes⟩ := by
      intro hnone hs'
      simp [hnone, hs']
    split at h
    · next payload hpayload =>
      split at h
      · next machine hfind =>
        have hwrites : Enumerates writes (decodeDcmdMetrics machine path.aliases payload) := by
          apply hstaged (deviceId, payloadBytes)
          · rw [hdcmds]
            rfl
          · exact hpayload
          · exact hfind
        have hcommand : commandOf path (deviceId, payloadBytes) =
            if writes.isEmpty then none else some (deviceId, payload) := by
          rw [commandOf, hpayload, hfind, isEmpty_writes hwrites]
          dsimp only
          cases stagesAny machine path.aliases payload <;> rfl
        split at h
        · next hempty =>
          apply hdropped
          · rw [hcommand, if_pos hempty]
          · exact (Option.some.inj h).symm
        · next hempty =>
          rw [hcommand, if_neg hempty]
          refine ⟨(Option.some.inj h).symm, fun command hmem => ?_⟩
          obtain rfl := Option.some.inj hmem
          exact ⟨machine, hfind, hwrites⟩
      · next hfind =>
        apply hdropped
        · rw [commandOf, hpayload, hfind]
        · exact (Option.some.inj h).symm
    · next error hpayload =>
      apply hdropped
      · rw [commandOf, hpayload]
      · exact (Option.some.inj h).symm
    · cases h

/-- A turn of the consumer takes one transaction. -/
theorem consume_cases (h : s.consume path = some s') :
    ∃ transaction transactions, s.transactions = transaction :: transactions ∧
      (path.machineTransactionConfigs.get transaction.machineName = none ∧
        s' = { s with transactions := transactions } ∨
        ∃ config connection report, path.machineTransactionConfigs.get transaction.machineName = some config ∧
          processTransaction path.request config transaction.writes s.connection
            ((s.reports.get transaction.machineName).getD .empty) = .ok (connection, report) ∧
          s' = { s with
            transactions := transactions
            connection := connection
            reports := s.reports.set transaction.machineName report
            carriedOut := s.carriedOut ++ [⟨transaction, report⟩] }) := by
  unfold consume at h
  split at h
  · cases h
  · next transaction transactions htransactions =>
    refine ⟨transaction, transactions, htransactions, ?_⟩
    split at h
    · next hconfig => exact .inl ⟨hconfig, (Option.some.inj h).symm⟩
    · next config hconfig =>
      split at h
      · next connection report hprocess =>
        exact .inr ⟨config, connection, report, hconfig, hprocess, (Option.some.inj h).symm⟩
      · next e _ => exact e.elim
      · cases h

/-- Every machine has a configuration. -/
theorem isSome_machineTransactionConfigs {machine : MachineDescription} (h : machine ∈ path.machines) :
    ∃ config, path.machineTransactionConfigs.get machine.name = some config := by
  rw [CommandPath.machineTransactionConfigs]
  generalize Store.empty = configs
  generalize path.machines = machines at h ⊢
  induction machines generalizing configs with
  | nil => exact absurd h List.not_mem_nil
  | cons first machines ih =>
    rw [List.map_cons, Store.setAll_cons]
    rcases List.mem_cons.mp h with rfl | h
    · rcases Store.get_setAll_cases (configs.set machine.name (.ofDescription machine))
          (machines.map fun machine => (machine.name, MachineTransactionConfig.ofDescription machine)) machine.name with
        ⟨config, -, hget⟩ | hget
      · exact ⟨config, hget⟩
      · exact ⟨_, hget.trans (Store.get_set_self _ _ _)⟩
    · exact ih _ h

/-- Nothing is lost, repeated or put before something else in a step. -/
theorem commands_step {action : CommandAction} (hqueued : ∀ transaction ∈ s.transactions, StagedFor path transaction)
    (hstaged : s.Staged path action) (h : s.step path action = some s') :
    s'.commands path = s.commands path ++ commandsOf path [action] ∧
      ∀ transaction ∈ s'.transactions, StagedFor path transaction := by
  cases action with
  | publish topic payload =>
    obtain rfl := Option.some.inj h
    rw [commandsOf, List.filterMap_cons]
    unfold receive
    split
    · next deviceId hroute =>
      refine ⟨?_, hqueued⟩
      simp only [commands, List.filterMap_append, List.append_assoc, List.filterMap_cons, List.filterMap_nil, hroute]
    · next hroute => simpa [commands, hroute] using hqueued
    · next hroute => simpa [commands, hroute] using hqueued
  | forward writes =>
    obtain ⟨message, dcmds, hdcmds, rfl, hvalid⟩ := forwardDcmd_cases hstaged h
    constructor
    · cases hcommand : commandOf path message <;> simp [commands, commandsOf, hdcmds, hcommand]
    · intro transaction htransaction
      rcases List.mem_append.mp htransaction with hmem | hmem
      · exact hqueued transaction hmem
      · obtain ⟨command, hcommand, rfl⟩ := Option.map_eq_some_iff.mp (Option.mem_toList.mp hmem)
        exact hvalid command hcommand
  | consume =>
    obtain ⟨transaction, transactions, htransactions, hcases⟩ := consume_cases h
    rw [htransactions] at hqueued
    obtain ⟨machine, hfind, -⟩ := hqueued transaction List.mem_cons_self
    have hname : machine.name = transaction.machineName := by simpa using List.find?_some hfind
    obtain ⟨config, hconfig⟩ := isSome_machineTransactionConfigs (List.mem_of_find?_eq_some hfind)
    rw [hname] at hconfig
    rcases hcases with ⟨hnone, -⟩ | ⟨config', connection, report, -, -, rfl⟩
    · rw [hnone] at hconfig
      cases hconfig
    · refine ⟨?_, fun other hother => hqueued other (List.mem_cons_of_mem _ hother)⟩
      simp [commands, commandsOf, htransactions]

/-- What a pipeline has carried out and still holds is what it held, and the commands that
came. -/
theorem commands_of_execute {actions : List CommandAction}
    (hqueued : ∀ transaction ∈ s.transactions, StagedFor path transaction)
    (hstaged : Permitted (step path) (Staged path) s actions) (h : execute (step path) s actions = some s') :
    s'.commands path = s.commands path ++ commandsOf path actions := by
  induction actions generalizing s with
  | nil =>
    obtain rfl := Option.some.inj h
    simp [commandsOf]
  | cons action actions ih =>
    obtain ⟨s₁, hstep, hrest⟩ := execute_cons_eq_some.mp h
    obtain ⟨hcommands, hqueued₁⟩ := commands_step hqueued hstaged.1 hstep
    rw [ih hqueued₁ (hstaged.2 s₁ hstep) hrest, hcommands, List.append_assoc, commandsOf, commandsOf, commandsOf,
      ← List.filterMap_append]
    rfl

/-- Whatever the interleaving of the tasks and whatever the devices answer, the commands that
came are those carried out, in the same order, and after them those still on their way. -/
theorem commands_in_order {actions : List CommandAction} {connection : σ}
    (hstaged : Permitted (step path) (Staged path) (start connection) actions)
    (h : execute (step path) (start connection) actions = some s) : s.commands path = commandsOf path actions := by
  apply commands_of_execute _ hstaged h
  intro transaction htransaction
  cases htransaction

/-! ### Commands to two pumps -/

def strokesCommand (strokes : UInt32) : Payload :=
  ⟨none, [⟨"strokes", none, none, .uint32, false, none, .int strokes⟩], none⟩

/-- The pump again, under another name and unit id. -/
def reserve : MachineDescription := { pump with name := "reserve", unitId := 4 }

def pumpsPath {σ : Type} (request : Exchange σ) : CommandPath σ :=
  ⟨64, "plant", "edge", [pump, reserve], .build [pump, reserve], request⟩

/-- A command arrives. -/
def publishStrokes (deviceId : String) (strokes : UInt32) : CommandAction :=
  .publish ("spBv1.0/plant/DCMD/edge/" ++ deviceId) (encodePayload (strokesCommand strokes))

/-- It arrives, is forwarded and is sent. -/
def strokesActions (deviceId : String) (strokes : UInt32) : List CommandAction :=
  [publishStrokes deviceId strokes, .forward [("strokes", .register (.u32 strokes))], .consume]

section Pumps

variable {request : Exchange σ} {t : CommandPipeline σ} {deviceId : String} {strokes : UInt32}

theorem receive_strokes (hdevice : deviceId ∈ ["pump", "reserve"]) :
    s.step (pumpsPath request) (publishStrokes deviceId strokes) =
      some { s with dcmds := s.dcmds ++ [(deviceId, encodePayload (strokesCommand strokes))] } := by
  have hroute : routeOf "plant" "edge" ("spBv1.0/plant/DCMD/edge/" ++ deviceId) = some (.dcmd deviceId) := by
    simp only [List.mem_cons, List.not_mem_nil, or_false] at hdevice
    obtain rfl | rfl := hdevice
    · exact routeOf_eq_dcmd.mpr rfl
    · exact routeOf_eq_dcmd.mpr rfl
  rw [publishStrokes, step, receive, pumpsPath, hroute]

/-- What is staged for a command is what is forwarded. -/
theorem strokesActions_staged (hnone : s.dcmds = []) (hdevice : deviceId ∈ ["pump", "reserve"])
    (hdecode : decodePayload 64 (encodePayload (strokesCommand strokes)) = .ok (strokesCommand strokes)) :
    Permitted (step (pumpsPath request)) (Staged (pumpsPath request)) s (strokesActions deviceId strokes) := by
  refine permitted_cons trivial (receive_strokes hdevice) ⟨?_, fun _ _ => ⟨trivial, fun _ _ => trivial⟩⟩
  intro message hmessage payload hpayload found hfound
  dsimp only at hmessage
  rw [hnone] at hmessage
  obtain rfl := Option.some.inj hmessage
  obtain rfl := ok.inj (hdecode.symm.trans hpayload)
  have hstaged : decodeDcmdMetrics found (.build [pump, reserve]) (strokesCommand strokes) =
      Store.empty.set "strokes" (.register (.u32 strokes)) := by
    simp only [List.mem_cons, List.not_mem_nil, or_false] at hdevice
    obtain rfl | rfl := hdevice
    · obtain rfl := Option.some.inj (show some pump = some found from hfound)
      rfl
    · obtain rfl := Option.some.inj (show some reserve = some found from hfound)
      rfl
  rw [show (pumpsPath request).aliases = .build [pump, reserve] from rfl, hstaged]
  exact enumerates_singleton.mpr rfl

/-- After a command has been sent none is left with the forwarder. -/
theorem dcmds_strokesActions (hnone : s.dcmds = []) (hdevice : deviceId ∈ ["pump", "reserve"])
    (hdecode : decodePayload 64 (encodePayload (strokesCommand strokes)) = .ok (strokesCommand strokes))
    (h : execute (step (pumpsPath request)) s (strokesActions deviceId strokes) = some t) : t.dcmds = [] := by
  have hstaged := @strokesActions_staged _ _ request _ _ hnone hdevice hdecode
  obtain ⟨received, hreceived, hrest⟩ := execute_cons_eq_some.mp h
  obtain ⟨forwarded, hforwarded, hrest⟩ := execute_cons_eq_some.mp hrest
  obtain ⟨consumed, hconsumed, hrest⟩ := execute_cons_eq_some.mp hrest
  obtain rfl := Option.some.inj hrest
  obtain ⟨message, dcmds, hdcmds, rfl, -⟩ := forwardDcmd_cases (hstaged.2 received hreceived).1 hforwarded
  obtain rfl := Option.some.inj ((receive_strokes hdevice).symm.trans hreceived)
  dsimp only at hdcmds
  rw [hnone] at hdcmds
  obtain ⟨transaction, transactions, -, ⟨-, rfl⟩ | ⟨config, connection, report, -, -, rfl⟩⟩ := consume_cases hconsumed
  · exact (List.cons.inj hdcmds).2.symm
  · exact (List.cons.inj hdcmds).2.symm

end Pumps

/-- The command is carried out although nobody answers. -/
theorem commands_in_order_unanswered :
    ∃ s, execute (step (pumpsPath fun _ _ connection => (.err .timedOut, connection))) (start ())
        (strokesActions "pump" 7) = some s ∧
      s.commands (pumpsPath fun _ _ connection => (.err .timedOut, connection)) =
        commandsOf (pumpsPath fun _ _ (connection : Unit) => (.err .timedOut, connection)) (strokesActions "pump" 7) := by
  have hrun : (execute (step (pumpsPath fun _ _ connection => (.err .timedOut, connection))) (start ())
      (strokesActions "pump" 7)).isSome = true := by
    decide +kernel
  obtain ⟨s, hs⟩ := Option.isSome_iff_exists.mp hrun
  exact ⟨s, hs, commands_in_order (@strokesActions_staged _ _ _ "pump" 7 rfl (by decide) (by decide +kernel)) hs⟩

end CommandPipeline

end InfusedModbus.Client
