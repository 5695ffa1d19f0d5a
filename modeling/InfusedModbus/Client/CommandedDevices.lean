import InfusedModbus.Client.CommandPipeline
import InfusedModbus.Client.TransactionReport
import InfusedModbus.Foundation.LastWrite

/-! The devices at the end of the commands' way. A machine holds under every point the value
of the last command's write to it that was reported as written, or what it held before; and
a machine that no command addresses is left alone. -/

namespace InfusedModbus.Client

open Foundation Foundation.Outcome Protocol Datafs Server
open Sparkplug (MetricValue Metric Payload decodePayload decodePayload_ne_panic encodePayload)

/-- Machines that can be told apart, each of them flat. -/
structure WellDescribed (descriptions : List MachineDescription) : Prop where
  names : (descriptions.map MachineDescription.name).Nodup
  unitIds : (descriptions.map MachineDescription.unitId).Nodup
  flat : ∀ description ∈ descriptions, FlatDescription description

/-- A server with all these machines. -/
def Hosts (descriptions : List MachineDescription) (machines : Machines) : Prop :=
  ∀ description ∈ descriptions, ∃ machine, machines.get description.unitId = some machine ∧
    machine.unset = .fresh description

/-- What the machine with the description has for a point. -/
def heldAt (machines : Machines) (description : MachineDescription) (point : Point) : Option StagedValue :=
  (machines.get description.unitId).bind fun machine => pointValue machine point

/-- A transaction of the machine that wrote a value to the point, and reports it. -/
def CarriedOut.Confirms (machineName : String) (point : Point) (transaction : CarriedOut) (staged : StagedValue) :
    Prop :=
  transaction.machineName = machineName ∧ ∃ name, (name, staged) ∈ transaction.writes ∧
    stagedPoint name staged = point ∧ transaction.report.get name = some .ok

section Devices

variable {path : CommandPath Machines} {s s' : CommandPipeline Machines}

/-- A name of the configurations is that of the machine it is found for. -/
theorem machineTransactionConfigs_get (hdescribed : WellDescribed path.machines) {description : MachineDescription}
    (h : description ∈ path.machines) :
    path.machineTransactionConfigs.get description.name = some (.ofDescription description) := by
  rw [CommandPath.machineTransactionConfigs]
  apply Store.get_setAll_of_mem
  · rw [List.map_map]
    exact hdescribed.names
  · exact List.mem_map_of_mem h

/-- What the rounds of a command leave at a point: a value that was written and reported, or
what was there. -/
theorem Rounds.settled {description : MachineDescription} {aliases : AliasAllocator} {payload : Payload}
    {writes : List (String × StagedValue)} {machine : ServerMachineState}
    (hwrites : Enumerates writes (decodeDcmdMetrics description aliases payload))
    (rounds : Rounds (.ofDescription description) writes machine) (report : WriteReport) (point : Point) :
    (∃ name staged, (name, staged) ∈ writes ∧ stagedPoint name staged = point ∧
        (report.setAll rounds.reported).get name = some .ok ∧ pointValue rounds.machineAfter point = some staged) ∨
      (∀ name staged, (name, staged) ∈ writes → stagedPoint name staged = point →
        (report.setAll rounds.reported).get name ≠ some .ok) ∧
      pointValue rounds.machineAfter point = pointValue machine point := by
  by_cases hnone : ∀ name staged, (name, staged) ∈ writes → stagedPoint name staged = point →
      (report.setAll rounds.reported).get name ≠ some .ok
  · exact .inr ⟨hnone, Rounds.point_unchanged hwrites.1 report hnone⟩
  · left
    push Not at hnone
    obtain ⟨name, staged, hmem, rfl, hok⟩ := hnone
    obtain ⟨metric, hcommander⟩ := (mem_transaction_iff hwrites).mp hmem
    cases (commander_eq_some hcommander).2.2 with
    | register register value hfind htype =>
      refine ⟨name, _, hmem, rfl, hok, ?_⟩
      simp only [stagedPoint, pointValue, Rounds.machineAfter, Rounds.register_written hwrites.1 report hmem hok]
      rfl
    | coil coil value hregisters hfind =>
      refine ⟨name, _, hmem, rfl, hok, ?_⟩
      simp only [stagedPoint, pointValue, Rounds.machineAfter, Rounds.coil_written hwrites.1 report hmem hok]
      rfl
    | fileRecord fileNumber recordNumber value hregisters hname =>
      obtain ⟨name', value', hmem', hok', hstored⟩ := Rounds.fileRecord_written hwrites.1 report hmem hok
      refine ⟨name', _, hmem', rfl, hok', ?_⟩
      simp only [stagedPoint, pointValue, Rounds.machineAfter, hstored]
      rfl

variable {serverOptions : ServerOptions} {tomlSource : String} {fc43BulkTransfer : Fc43BulkTransfer}
  {initial : Machines}

/-- What holds while the commands are carried out. -/
structure CommandPipeline.Settled (path : CommandPath Machines) (initial : Machines)
    (s : CommandPipeline Machines) : Prop where
  queued : ∀ transaction ∈ s.transactions, CommandPipeline.StagedFor path transaction
  carried : ∀ transaction ∈ s.carriedOut, CommandPipeline.StagedFor path transaction.toCommandedTransaction
  hosts : Hosts path.machines s.connection
  held : ∀ description ∈ path.machines, ∀ point, LastWritten (CarriedOut.Confirms description.name point)
    (heldAt initial description point) s.carriedOut (heldAt s.connection description point)
  others : ∀ unitId, (∀ description ∈ path.machines, description.unitId ≠ unitId) →
    s.connection.get unitId = initial.get unitId

theorem CommandPipeline.settled_start (hhosts : Hosts path.machines initial) :
    (start initial).Settled path initial where
  queued transaction htransaction := by cases htransaction
  carried transaction htransaction := by cases htransaction
  hosts := hhosts
  held description _ point := lastWritten_nil _
  others unitId _ := rfl

/-- The consumer's turn at the server: four rounds at the machine of the first transaction. -/
theorem CommandPipeline.consume_server
    (hserver : path.request = serverExchange serverOptions tomlSource fc43BulkTransfer)
    (henabled : WritesEnabled serverOptions) (hdescribed : WellDescribed path.machines)
    (hqueued : ∀ transaction ∈ s.transactions, StagedFor path transaction) (hhosts : Hosts path.machines s.connection)
    {transaction : CommandedTransaction} {transactions : List CommandedTransaction}
    (htransactions : s.transactions = transaction :: transactions) :
    ∃ description ∈ path.machines, description.name = transaction.machineName ∧
      Enumerates transaction.writes (decodeDcmdMetrics description path.aliases transaction.payload) ∧
      ∃ (machine : ServerMachineState) (report : WriteReport), s.connection.get description.unitId = some machine ∧
        machine.unset = .fresh description ∧
        ∃ rounds : Rounds (.ofDescription description) transaction.writes machine,
          s.consume path = some { s with
            transactions := transactions
            connection := s.connection.set description.unitId rounds.machineAfter
            reports := s.reports.set transaction.machineName (report.setAll rounds.reported)
            carriedOut := s.carriedOut ++ [⟨transaction, report.setAll rounds.reported⟩] } := by
  obtain ⟨description, hfind, hwrites⟩ := hqueued transaction (by rw [htransactions]; exact List.mem_cons_self)
  have hmem := List.mem_of_find?_eq_some hfind
  have hname : description.name = transaction.machineName := by simpa using List.find?_some hfind
  have hconfig := machineTransactionConfigs_get hdescribed hmem
  obtain ⟨machine, hget, hconfigured⟩ := hhosts description hmem
  obtain ⟨rounds, hrun⟩ := @processTransaction_of_server _ tomlSource fc43BulkTransfer _ _ _ _ henabled hget hconfigured
    (hdescribed.flat description hmem) hwrites.1 ((s.reports.get transaction.machineName).getD .empty)
  refine ⟨description, hmem, hname, hwrites, machine, (s.reports.get transaction.machineName).getD .empty, hget,
    hconfigured, rounds, ?_⟩
  unfold consume
  rw [htransactions]
  dsimp only
  rw [← hname, hconfig]
  dsimp only
  rw [hname, hserver, hrun]

/-- A machine that a step does not address keeps its values. -/
theorem heldAt_set_of_ne {machines : Machines} {description other : MachineDescription} (machine : ServerMachineState)
    (hne : other.unitId ≠ description.unitId) (point : Point) :
    heldAt (machines.set description.unitId machine) other point = heldAt machines other point := by
  rw [heldAt, Store.get_set_of_ne _ _ hne, heldAt]

theorem heldAt_of_get {machines : Machines} {description : MachineDescription} {machine : ServerMachineState}
    (hget : machines.get description.unitId = some machine) (point : Point) :
    heldAt machines description point = pointValue machine point := by
  rw [heldAt, hget]
  rfl

theorem CommandPipeline.settled_consume
    (hserver : path.request = serverExchange serverOptions tomlSource fc43BulkTransfer)
    (henabled : WritesEnabled serverOptions) (hdescribed : WellDescribed path.machines)
    (hsettled : s.Settled path initial) (h : s.consume path = some s') : s'.Settled path initial := by
  obtain ⟨transaction, transactions, htransactions, -⟩ := consume_cases h
  obtain ⟨description, hmem, hname, hwrites, machine, report, hget, hconfigured, rounds, hconsume⟩ :=
    consume_server hserver henabled hdescribed hsettled.queued hsettled.hosts htransactions
  obtain rfl := Option.some.inj (hconsume.symm.trans h)
  have hapart : ∀ other ∈ path.machines, other ≠ description → other.unitId ≠ description.unitId := by
    intro other hother hne hsame
    exact hne (List.inj_on_of_nodup_map hdescribed.unitIds hother hmem hsame)
  constructor
  case queued =>
    intro other hqueued
    exact hsettled.queued other (by rw [htransactions]; exact List.mem_cons_of_mem _ hqueued)
  case carried =>
    intro other hcarried
    rcases List.mem_append.mp hcarried with hcarried | hcarried
    · exact hsettled.carried other hcarried
    · rw [List.mem_singleton.mp hcarried]
      exact hsettled.queued transaction (by rw [htransactions]; exact List.mem_cons_self)
  case hosts =>
    intro other hother
    by_cases hsame : other = description
    · subst hsame
      exact ⟨_, Store.get_set_self _ _ _, hconfigured⟩
    · obtain ⟨machine', hget', hconfigured'⟩ := hsettled.hosts other hother
      exact ⟨machine', by rw [Store.get_set_of_ne _ _ (hapart other hother hsame), hget'], hconfigured'⟩
  case held =>
    intro other hother point
    have hheld := hsettled.held other hother point
    dsimp only
    by_cases hsame : other = description
    · subst hsame
      rw [heldAt_of_get (Store.get_set_self _ _ _)]
      rcases rounds.settled hwrites report point with ⟨name, staged, hstaged, hpoint, hok, hvalue⟩ | ⟨hnone, hvalue⟩
      · rw [hvalue]
        apply LastWritten.written
        exact ⟨hname.symm, name, hstaged, hpoint, hok⟩
      · rw [hvalue, ← heldAt_of_get hget]
        apply hheld.kept
        rintro staged ⟨-, name, hstaged, hpoint, hok⟩
        exact hnone name staged hstaged hpoint hok
    · rw [heldAt_set_of_ne _ (hapart other hother hsame)]
      apply hheld.kept
      rintro staged ⟨hmachine, -⟩
      exact hsame (List.inj_on_of_nodup_map hdescribed.names hother hmem (hmachine.symm.trans hname.symm))
  case others =>
    intro unitId hunitId
    rw [← hsettled.others unitId hunitId]
    exact Store.get_set_of_ne _ _ (hunitId description hmem).symm

theorem CommandPipeline.settled_step {action : CommandAction}
    (hserver : path.request = serverExchange serverOptions tomlSource fc43BulkTransfer)
    (henabled : WritesEnabled serverOptions) (hdescribed : WellDescribed path.machines)
    (hsettled : s.Settled path initial) (hstaged : s.Staged path action) (h : s.step path action = some s') :
    s'.Settled path initial := by
  have hqueued := (commands_step hsettled.queued hstaged h).2
  cases action with
  | publish topic payload =>
    obtain rfl := Option.some.inj h
    unfold receive at hqueued ⊢
    split
    · exact ⟨hsettled.queued, hsettled.carried, hsettled.hosts, hsettled.held, hsettled.others⟩
    · exact ⟨hsettled.queued, hsettled.carried, hsettled.hosts, hsettled.held, hsettled.others⟩
    · exact hsettled
  | forward writes =>
    obtain ⟨message, dcmds, -, rfl, -⟩ := forwardDcmd_cases hstaged h
    exact ⟨hqueued, hsettled.carried, hsettled.hosts, hsettled.held, hsettled.others⟩
  | consume => exact settled_consume hserver henabled hdescribed hsettled h

/-- In every run of the three tasks against the server, a machine holds under each of its
points the value of the last write to it that was reported as written, or what it held at
first; and the machines that are not described are untouched. -/
theorem CommandPipeline.devices_hold_last_confirmed
    (hserver : path.request = serverExchange serverOptions tomlSource fc43BulkTransfer)
    (henabled : WritesEnabled serverOptions) (hdescribed : WellDescribed path.machines)
    (hhosts : Hosts path.machines initial) {actions : List CommandAction}
    (hstaged : Permitted (step path) (Staged path) (start initial) actions)
    (h : execute (step path) (start initial) actions = some s) :
    (∀ description ∈ path.machines, ∀ point, LastWritten (CarriedOut.Confirms description.name point)
      (heldAt initial description point) s.carriedOut (heldAt s.connection description point)) ∧
    ∀ unitId, (∀ description ∈ path.machines, description.unitId ≠ unitId) →
      s.connection.get unitId = initial.get unitId := by
  have hsettled : s.Settled path initial := by
    refine invariant_of_execute ?_ (settled_start hhosts) hstaged h
    intro t action t' hsettled hpermitted hstep
    exact settled_step hserver henabled hdescribed hsettled hpermitted hstep
  exact ⟨hsettled.held, hsettled.others⟩

/-! ### Every command is carried out -/

/-- The map of what is staged gives it out in some order. -/
theorem exists_enumerates (description : MachineDescription) (aliases : AliasAllocator) (payload : Payload) :
    ∃ writes, Enumerates writes (decodeDcmdMetrics description aliases payload) := by
  have hset : ∀ {staged : Store String StagedValue} {name : String} {value : StagedValue},
      (∃ writes, Enumerates writes staged) → ∃ writes, Enumerates writes (staged.set name value) := by
    rintro staged name value ⟨writes, hnodup, hmem⟩
    refine ⟨(name, value) :: writes.filter fun entry => entry.1 ≠ name, ?_, fun name' value' => ?_⟩
    · rw [List.map_cons, List.nodup_cons]
      refine ⟨?_, (List.filter_sublist.map Prod.fst).nodup hnodup⟩
      simp
    · rw [Store.get_set, List.mem_cons, List.mem_filter, hmem]
      by_cases hname : name' = name
      · simp [hname, eq_comm]
      · simp [hname]
  rw [decodeDcmdMetrics_eq]
  have hfold : ∀ (metrics : List Metric) (staged : Store String StagedValue), (∃ writes, Enumerates writes staged) →
      ∃ writes, Enumerates writes (metrics.foldl (stageMetric description aliases) staged) := by
    intro metrics
    induction metrics with
    | nil => exact fun staged hstaged => hstaged
    | cons metric metrics ih =>
      intro staged hstaged
      apply ih
      unfold stageMetric
      split
      · split
        · exact hset hstaged
        · exact hstaged
      · exact hstaged
  exact hfold payload.metrics .empty ⟨[], List.nodup_nil, fun name value => by simp⟩

namespace CommandPipeline

/-- The forwarder can take its turn whenever there is a message for it. -/
theorem exists_forward {message : String × Bytes} {dcmds : List (String × Bytes)}
    (hdcmds : s.dcmds = message :: dcmds) :
    ∃ writes s', s.Staged path (.forward writes) ∧ s.forwardDcmd path writes = some s' := by
  have hturn : ∃ writes, s.Staged path (.forward writes) := by
    cases hpayload : decodePayload path.usizeBits message.2 with
    | ok payload =>
      cases hfind : path.machines.find? (fun machine => machine.name == message.1) with
      | none => exact ⟨[], by simp [Staged, hdcmds, hfind]⟩
      | some description =>
        obtain ⟨writes, hwrites⟩ := exists_enumerates description path.aliases payload
        refine ⟨writes, ?_⟩
        simpa [Staged, hdcmds, hfind, hpayload] using hwrites
    | err error => exact ⟨[], by simp [Staged, hdcmds, hpayload]⟩
    | panic => exact ⟨[], by simp [Staged, hdcmds, hpayload]⟩
  obtain ⟨writes, hwrites⟩ := hturn
  have hsome : (s.forwardDcmd path writes).isSome := by
    unfold forwardDcmd
    rw [hdcmds]
    dsimp only
    split
    · split
      · split <;> rfl
      · rfl
    · rfl
    · next hpayload => exact absurd hpayload (decodePayload_ne_panic message.2)
  obtain ⟨s', hs'⟩ := Option.isSome_iff_exists.mp hsome
  exact ⟨writes, s', hwrites, hs'⟩

/-- Without further publishes the forwarder and the consumer come to an end. -/
theorem exists_drained (hserver : path.request = serverExchange serverOptions tomlSource fc43BulkTransfer)
    (henabled : WritesEnabled serverOptions) (hdescribed : WellDescribed path.machines)
    (hsettled : s.Settled path initial) :
    ∃ actions s', commandsOf path actions = [] ∧ Permitted (step path) (Staged path) s actions ∧
      execute (step path) s actions = some s' ∧ s'.dcmds = [] ∧ s'.transactions = [] := by
  induction hsize : 2 * s.dcmds.length + s.transactions.length using Nat.strong_induction_on generalizing s with
  | _ size ih =>
    have hturn : ∀ action s₁, commandsOf path [action] = [] → s.Staged path action → s.step path action = some s₁ →
        2 * s₁.dcmds.length + s₁.transactions.length < size →
        ∃ actions s', commandsOf path actions = [] ∧ Permitted (step path) (Staged path) s actions ∧
          execute (step path) s actions = some s' ∧ s'.dcmds = [] ∧ s'.transactions = [] := by
      intro action s₁ hsilent hstaged hstep hless
      obtain ⟨actions, s', hnone, hpermitted, hrun, hend⟩ :=
        ih _ hless (settled_step hserver henabled hdescribed hsettled hstaged hstep) rfl
      refine ⟨action :: actions, s', ?_, permitted_cons hstaged hstep hpermitted,
        execute_cons_eq_some.mpr ⟨s₁, hstep, hrun⟩, hend⟩
      rw [commandsOf, ← List.singleton_append, List.filterMap_append, ← commandsOf, ← commandsOf, hsilent, hnone]
      rfl
    cases hdcmds : s.dcmds with
    | cons message dcmds =>
      obtain ⟨writes, s₁, hstaged, hforward⟩ := @exists_forward path s message dcmds hdcmds
      apply hturn (.forward writes) s₁ rfl hstaged hforward
      obtain ⟨message', dcmds', hdcmds', rfl, -⟩ := forwardDcmd_cases hstaged hforward
      obtain ⟨rfl, rfl⟩ := List.cons.inj (hdcmds.symm.trans hdcmds')
      rw [← hsize, hdcmds]
      cases commandOf path message with
      | none =>
        simp
      | some command =>
        simp
        omega
    | nil =>
      cases htransactions : s.transactions with
      | cons transaction transactions =>
        obtain ⟨description, hmem, hname, hwrites, machine, report, hget, hconfigured, rounds, hconsume⟩ :=
          consume_server hserver henabled hdescribed hsettled.queued hsettled.hosts htransactions
        apply hturn .consume _ rfl trivial hconsume
        simp [← hsize, hdcmds, htransactions]
      | nil => exact ⟨[], s, rfl, trivial, rfl, hdcmds, htransactions⟩

/-- Whatever the tasks have done so far, they can go on until every command that came has been
carried out: each of them once, and in the order in which they came. -/
theorem commands_all_carried_out (hserver : path.request = serverExchange serverOptions tomlSource fc43BulkTransfer)
    (henabled : WritesEnabled serverOptions) (hdescribed : WellDescribed path.machines)
    (hhosts : Hosts path.machines initial) {actions : List CommandAction}
    (hstaged : Permitted (step path) (Staged path) (start initial) actions)
    (h : execute (step path) (start initial) actions = some s) :
    ∃ rest s', Permitted (step path) (Staged path) s rest ∧ execute (step path) s rest = some s' ∧
      s'.carriedOut.map (fun transaction => (transaction.machineName, transaction.payload)) =
        commandsOf path actions := by
  have hsettled : s.Settled path initial := by
    refine invariant_of_execute ?_ (settled_start hhosts) hstaged h
    intro t action t' hsettled hpermitted hstep
    exact settled_step hserver henabled hdescribed hsettled hpermitted hstep
  obtain ⟨rest, s', hnone, hpermitted, hrun, hdcmds, htransactions⟩ :=
    exists_drained hserver henabled hdescribed hsettled
  refine ⟨rest, s', hpermitted, hrun, ?_⟩
  have hcame := commands_of_execute (settled_start hhosts).queued hstaged h
  have hwent := commands_of_execute hsettled.queued hpermitted hrun
  rw [hcame, hnone, List.append_nil] at hwent
  simpa [commands, hdcmds, htransactions, start] using hwent

end CommandPipeline

end Devices

/-! ### Commands to the pumps at the server -/

/-- What a transaction did to the strokes. -/
structure StrokesWrite where
  machineName : String
  payload : Payload
  writes : List (String × StagedValue)
  status : Option WriteStatus
  deriving DecidableEq

def CarriedOut.strokes (transaction : CarriedOut) : StrokesWrite :=
  ⟨transaction.machineName, transaction.payload, transaction.writes, transaction.report.get "strokes"⟩

/-- A command to the strokes, carried out. -/
def StrokesWrite.done (machineName : String) (strokes : UInt32) : StrokesWrite :=
  ⟨machineName, CommandPipeline.strokesCommand strokes, [("strokes", .register (.u32 strokes))], some .ok⟩

/-- One write to the strokes that is reported as written confirms this one. -/
theorem CarriedOut.confirms_strokes {transaction : CarriedOut} {machineName : String} {strokes : UInt32}
    (h : transaction.strokes = .done machineName strokes) :
    transaction.Confirms machineName (.register "strokes") (.register (.u32 strokes)) ∧
      ∀ other, transaction.Confirms machineName (.register "strokes") other → other = .register (.u32 strokes) := by
  obtain ⟨hmachine, -, hwrites, hreport⟩ := StrokesWrite.mk.inj h
  constructor
  · refine ⟨hmachine, "strokes", ?_, rfl, hreport⟩
    rw [hwrites]
    exact List.mem_singleton_self _
  · rintro other ⟨-, name, hmem, -⟩
    rw [hwrites] at hmem
    exact (Prod.mk.inj (List.mem_singleton.mp hmem)).2

namespace CommandPipeline

def servedPumps : CommandPath Machines := pumpsPath (serverExchange .allowAll "" ⟨[], ""⟩)

/-- Both pumps, fresh. -/
def pumpHouse : Machines := (Store.empty.set 3 (.fresh pump)).set 4 (.fresh reserve)

theorem servedPumps_described : WellDescribed servedPumps.machines := by
  refine ⟨by decide, by decide, ?_⟩
  have hreserve : FlatDescription reserve :=
    ⟨pump_flat.registers, pump_flat.coils, pump_flat.discreteInputs, pump_flat.inputRegisters, pump_flat.fileRecords⟩
  exact List.forall_mem_cons.mpr ⟨pump_flat, List.forall_mem_singleton.mpr hreserve⟩

theorem pumpHouse_get : ∀ description ∈ servedPumps.machines,
    pumpHouse.get description.unitId = some (.fresh description) := by
  have hpump : pumpHouse.get pump.unitId = some (.fresh pump) := by
    rw [pumpHouse, Store.get_set_of_ne _ _ (by decide)]
    exact Store.get_set_self _ _ _
  exact List.forall_mem_cons.mpr ⟨hpump, List.forall_mem_singleton.mpr (Store.get_set_self _ _ _)⟩

theorem pumpHouse_hosts : Hosts servedPumps.machines pumpHouse :=
  fun description hmem => ⟨_, pumpHouse_get description hmem, rfl⟩

theorem writesEnabled_allowAll : WritesEnabled .allowAll := ⟨rfl, rfl, rfl, rfl, rfl, rfl⟩

/-- A command to each of the pumps, and another one to the first of them. -/
def publishedStrokes : List CommandAction :=
  [publishStrokes "pump" 7, publishStrokes "reserve" 9, publishStrokes "pump" 8]

/-- None of the three has been forwarded yet, and all are carried out. -/
theorem commands_all_carried_out_strokes : ∃ s rest s',
    execute (step servedPumps) (start pumpHouse) publishedStrokes = some s ∧ s.carriedOut = [] ∧
    Permitted (step servedPumps) (Staged servedPumps) s rest ∧ execute (step servedPumps) s rest = some s' ∧
      s'.carriedOut.map (fun transaction => (transaction.machineName, transaction.payload)) =
        [("pump", strokesCommand 7), ("reserve", strokesCommand 9), ("pump", strokesCommand 8)] := by
  have hstaged : Permitted (step servedPumps) (Staged servedPumps) (start pumpHouse) publishedStrokes := by
    apply permitted_of_forall
    exact List.forall_mem_cons.mpr ⟨fun _ => trivial, List.forall_mem_cons.mpr ⟨fun _ => trivial,
      List.forall_mem_singleton.mpr fun _ => trivial⟩⟩
  have hrun : ∃ s, execute (step servedPumps) (start pumpHouse) publishedStrokes = some s ∧ s.carriedOut = [] := by
    have hnone : (execute (step servedPumps) (start pumpHouse) publishedStrokes).map (fun s => s.carriedOut.length) =
        some 0 := by
      decide +kernel
    obtain ⟨s, hs, hlength⟩ := Option.map_eq_some_iff.mp hnone
    exact ⟨s, hs, List.length_eq_zero_iff.mp hlength⟩
  obtain ⟨s, hs, hnone⟩ := hrun
  obtain ⟨rest, s', hpermitted, hrest, hcarried⟩ :=
    commands_all_carried_out rfl writesEnabled_allowAll servedPumps_described pumpHouse_hosts hstaged hs
  have hcame : commandsOf servedPumps publishedStrokes =
      [("pump", strokesCommand 7), ("reserve", strokesCommand 9), ("pump", strokesCommand 8)] := by
    decide +kernel
  exact ⟨s, rest, s', hs, hnone, hpermitted, hrest, hcarried.trans hcame⟩

/-- The same commands, each carried out before the next one comes. -/
def overridingStrokes : List CommandAction :=
  strokesActions "pump" 7 ++ (strokesActions "reserve" 9 ++ strokesActions "pump" 8)

theorem overridingStrokes_staged {s : CommandPipeline Machines}
    (hs : execute (step servedPumps) (start pumpHouse) overridingStrokes = some s) :
    Permitted (step servedPumps) (Staged servedPumps) (start pumpHouse) overridingStrokes := by
  obtain ⟨t, ht, hrest⟩ := execute_append.mp hs
  obtain ⟨u, hu, -⟩ := execute_append.mp hrest
  have hpump : "pump" ∈ ["pump", "reserve"] := List.mem_cons_self
  have hreserve : "reserve" ∈ ["pump", "reserve"] := List.mem_cons_of_mem _ List.mem_cons_self
  have hseven : decodePayload 64 (encodePayload (strokesCommand 7)) = .ok (strokesCommand 7) := by
    decide +kernel
  have hnine : decodePayload 64 (encodePayload (strokesCommand 9)) = .ok (strokesCommand 9) := by
    decide +kernel
  have hnone := dcmds_strokesActions rfl hpump hseven ht
  have hnone' := dcmds_strokesActions hnone hreserve hnine hu
  exact permitted_append (strokesActions_staged rfl hpump hseven) ht (permitted_append
    (strokesActions_staged hnone hreserve hnine) hu (strokesActions_staged hnone' hpump (by decide +kernel)))

theorem exists_overridingRun : ∃ s, execute (step servedPumps) (start pumpHouse) overridingStrokes = some s ∧
    ∃ first second last, s.carriedOut = [first, second, last] ∧
      first.strokes = .done "pump" 7 ∧ second.strokes = .done "reserve" 9 ∧ last.strokes = .done "pump" 8 := by
  have hrun : (execute (step servedPumps) (start pumpHouse) overridingStrokes).map
      (fun s => s.carriedOut.map CarriedOut.strokes) =
        some [.done "pump" 7, .done "reserve" 9, .done "pump" 8] := by
    decide +kernel
  obtain ⟨s, hs, hcarried⟩ := Option.map_eq_some_iff.mp hrun
  obtain ⟨first, rest, hrest, hfirst, hcarried⟩ := List.map_eq_cons_iff.mp hcarried
  obtain ⟨second, rest, rfl, hsecond, hcarried⟩ := List.map_eq_cons_iff.mp hcarried
  obtain ⟨last, rfl, hlast⟩ := List.map_eq_singleton_iff.mp hcarried
  exact ⟨s, hs, first, second, last, hrest, hfirst, hsecond, hlast⟩

/-- The first pump holds what it was told last, and the other one what it was told. -/
theorem devices_hold_last_confirmed_strokes : ∃ s,
    execute (step servedPumps) (start pumpHouse) overridingStrokes = some s ∧
      heldAt s.connection pump (.register "strokes") = some (.register (.u32 8)) ∧
      heldAt s.connection reserve (.register "strokes") = some (.register (.u32 9)) := by
  obtain ⟨s, hs, first, second, last, hcarried, -, hsecond, hlast⟩ := exists_overridingRun
  have hheld := (devices_hold_last_confirmed rfl writesEnabled_allowAll servedPumps_described pumpHouse_hosts
    (overridingStrokes_staged hs) hs).1
  refine ⟨s, hs, ?_, ?_⟩
  · obtain ⟨hconfirms, hunique⟩ := CarriedOut.confirms_strokes hlast
    exact (hheld pump List.mem_cons_self _).eq_of_last (show s.carriedOut = [first, second] ++ [last] from hcarried)
      hconfirms hunique fun later hlater => absurd hlater List.not_mem_nil
  · obtain ⟨hconfirms, hunique⟩ := CarriedOut.confirms_strokes hsecond
    refine (hheld reserve (List.mem_cons_of_mem _ List.mem_cons_self) _).eq_of_last
      (show s.carriedOut = [first] ++ second :: [last] from hcarried) hconfirms hunique fun later hlater other hother => ?_
    -- the last command was to the first pump
    obtain rfl := List.mem_singleton.mp hlater
    exact absurd ((StrokesWrite.mk.inj hlast).1.symm.trans hother.1) (by decide)

end CommandPipeline

end InfusedModbus.Client
