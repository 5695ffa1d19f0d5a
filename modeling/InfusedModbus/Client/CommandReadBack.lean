import InfusedModbus.Client.CommandedDevices
import InfusedModbus.Client.Mirror

/-! The way of a value from a host to a device and back. The value that the last confirmed
command set a register or a coil to is the one that is published for it after the next poll,
as far as it fits the width of the register. -/

namespace InfusedModbus.Client

open Foundation Foundation.Outcome Protocol Datafs Server
open Sparkplug (MetricValue Metric Payload)

/-! ### Types are kept -/

/-- The rounds of a command keep the types of a machine. -/
theorem Rounds.typed {description : MachineDescription} {aliases : AliasAllocator} {payload : Payload}
    {writes : List (String × StagedValue)} {machine : ServerMachineState}
    (hwrites : Enumerates writes (decodeDcmdMetrics description aliases payload))
    (hconfigured : machine.unset = .fresh description) (hflat : FlatDescription description)
    (rounds : Rounds (.ofDescription description) writes machine) (htyped : TypedStores machine) :
    TypedStores rounds.machineAfter := by
  have hregisters : machine.registers = description.registers := congrArg ServerMachineState.registers hconfigured
  have hrecords : machine.fileRecords = description.fileRecords :=
    congrArg ServerMachineState.fileRecords hconfigured
  constructor
  case registers =>
    intro register hregister value hvalue
    have hafter : pointValue rounds.machineAfter (.register register.name) = some (.register value) := by
      rw [pointValue, hvalue]
      rfl
    rcases rounds.settled hwrites .empty (.register register.name) with
      ⟨name, staged, hmem, hpoint, -, hheld⟩ | ⟨-, hkept⟩
    · obtain rfl := Option.some.inj (hheld.symm.trans hafter)
      obtain rfl : name = register.name := Point.register.inj hpoint
      obtain ⟨metric, hcommander⟩ := (mem_transaction_iff hwrites).mp hmem
      cases (commander_eq_some hcommander).2.2 with
      | register found value hfind htype =>
        have hname : found.name = register.name := by simpa using List.find?_some hfind
        rw [htype, List.inj_on_of_nodup_map hflat.registers.names (List.mem_of_find?_eq_some hfind)
          (hregisters ▸ hregister) hname]
    · apply htyped.registers register hregister
      rw [hafter] at hkept
      obtain ⟨value', hvalue', heq⟩ := Option.map_eq_some_iff.mp hkept.symm
      rw [hvalue', StagedValue.register.inj heq]
  case inputRegisters => exact htyped.inputRegisters
  case fileRecords =>
    intro fileRecord hrecord value hvalue
    have hafter : pointValue rounds.machineAfter (.fileRecord fileRecord.fileNumber fileRecord.recordNumber) =
        some (.fileRecord fileRecord.fileNumber fileRecord.recordNumber value) := by
      rw [pointValue, show rounds.machineAfter.fileRecordStore.get (fileRecord.fileNumber, fileRecord.recordNumber) =
        some value from hvalue]
      rfl
    rcases rounds.settled hwrites .empty (.fileRecord fileRecord.fileNumber fileRecord.recordNumber) with
      ⟨name, staged, hmem, hpoint, hok, hheld⟩ | ⟨-, hkept⟩
    · obtain rfl := Option.some.inj (hheld.symm.trans hafter)
      obtain ⟨write, -, hresolves, hwritten⟩ := Rounds.resolves_of_ok hwrites.1 .empty hmem hok
      generalize hfile : fileRecord.fileNumber = fileNumber at hresolves
      generalize hnumber : fileRecord.recordNumber = recordNumber at hresolves
      cases hresolves with
      | refused staged reason => exact absurd rfl (hwritten reason)
      | fileRecord found value hfound hlength =>
        rw [hlength, List.inj_on_of_nodup_map hflat.fileRecords hfound (hrecords ▸ hrecord)
          (Prod.ext hfile.symm hnumber.symm)]
    · apply htyped.fileRecords fileRecord hrecord
      rw [hafter] at hkept
      obtain ⟨value', hvalue', heq⟩ := Option.map_eq_some_iff.mp hkept.symm
      rw [recordKey, hvalue', (StagedValue.fileRecord.inj heq).2.2]

section ReadBack

variable {path : CommandPath Machines} {s s' : CommandPipeline Machines} {initial : Machines}
  {serverOptions : ServerOptions} {tomlSource : String} {fc43BulkTransfer : Fc43BulkTransfer}

/-- The values of all described machines have their types. -/
def AllTyped (descriptions : List MachineDescription) (machines : Machines) : Prop :=
  ∀ description ∈ descriptions, ∀ machine, machines.get description.unitId = some machine → TypedStores machine

theorem CommandPipeline.allTyped_step {action : CommandAction}
    (hserver : path.request = serverExchange serverOptions tomlSource fc43BulkTransfer)
    (henabled : WritesEnabled serverOptions) (hdescribed : WellDescribed path.machines)
    (hsettled : s.Settled path initial) (htyped : AllTyped path.machines s.connection) (hstaged : s.Staged path action)
    (h : s.step path action = some s') : AllTyped path.machines s'.connection := by
  cases action with
  | publish topic payload =>
    obtain rfl := Option.some.inj h
    unfold receive
    split <;> exact htyped
  | forward writes =>
    obtain ⟨message, dcmds, -, rfl, -⟩ := forwardDcmd_cases hstaged h
    exact htyped
  | consume =>
    obtain ⟨transaction, transactions, htransactions, -⟩ := consume_cases h
    obtain ⟨description, hmem, -, hwrites, machine, report, hget, hconfigured, rounds, hconsume⟩ :=
      consume_server hserver henabled hdescribed hsettled.queued hsettled.hosts htransactions
    obtain rfl := Option.some.inj (hconsume.symm.trans h)
    intro other hother machine' hget'
    dsimp only at hget'
    by_cases hsame : other.unitId = description.unitId
    · rw [hsame, Store.get_set_self] at hget'
      obtain rfl := Option.some.inj hget'
      exact rounds.typed hwrites hconfigured (hdescribed.flat description hmem) (htyped description hmem machine hget)
    · rw [Store.get_set_of_ne _ _ hsame] at hget'
      exact htyped other hother machine' hget'

/-! ### What a poll brings back -/

/-- The stores after a poll cycle at the machine. -/
def polledStores (description : MachineDescription) (machine : ServerMachineState) (stores : MachineStores) :
    MachineStores :=
  { stores with
    registers := stores.registers.setAll ((buildReadBatches description.registers).flatMap fun batch =>
      batch.items.map fun register => (register.name, storedValue machine.store register.name register.dataType))
    coils := stores.coils.setAll ((buildCoilReadBatches description.coils).flatMap fun batch =>
      batch.items.map fun coil => (coil.name, ⟨storedBit CoilDescription.name machine.coilStore coil⟩))
    discreteInputs := stores.discreteInputs.setAll
      ((buildDiscreteInputReadBatches description.discreteInputs).flatMap fun batch =>
        batch.items.map fun discreteInput => (discreteInput.name,
          ⟨storedBit DiscreteInputDescription.name machine.discreteInputStore discreteInput⟩))
    inputRegisters := stores.inputRegisters.setAll
      ((buildInputRegisterReadBatches description.inputRegisters).flatMap fun batch =>
        batch.items.map fun register =>
          (register.name, storedValue machine.inputRegisterStore register.name register.dataType))
    fileRecords := stores.fileRecords.setAll (description.fileRecords.flatMap fun fileRecord =>
      [(recordKey fileRecord, storedRecord machine.fileRecordStore fileRecord)]) }

section Poll

variable {machines : Machines} {machine : ServerMachineState} {description : MachineDescription}

theorem pollCycle_of_server (henabled : ReadsEnabled serverOptions)
    (hget : machines.get description.unitId = some machine) (hconfigured : machine.unset = .fresh description)
    (hflat : FlatDescription description)
    (hreadable : ∀ fileRecord ∈ description.fileRecords, RecordReadable serverOptions fileRecord)
    (htyped : TypedStores machine) (stores : MachineStores) (broken : Bool) :
    pollCycle (serverExchange serverOptions tomlSource fc43BulkTransfer) description machines stores broken =
      .ok (machines, polledStores description machine stores, broken) := by
  rw [pollCycle, pollOnce_of_server hflat hget (congrArg ServerMachineState.registers hconfigured)
      (congrArg ServerMachineState.memLayout hconfigured) henabled.registers, ok_bind,
    pollCoilsOnce_of_server hflat hget (congrArg ServerMachineState.coils hconfigured) henabled.coils, ok_bind,
    pollDiscreteInputsOnce_of_server hflat hget (congrArg ServerMachineState.discreteInputs hconfigured)
      henabled.discreteInputs, ok_bind,
    pollInputRegistersOnce_of_server hflat hget (congrArg ServerMachineState.inputRegisters hconfigured)
      (congrArg ServerMachineState.inputRegisterMemLayout hconfigured) henabled.inputRegisters, ok_bind,
    pollFileRecordsOnce_of_server hflat hget (congrArg ServerMachineState.fileRecords hconfigured) hreadable htyped
      henabled.fileRecords, ok_bind]
  rfl

/-- A register that the machine has a value for is fetched as that value. -/
theorem polledStores_register (hflat : FlatDescription description) {register : RegisterDescription}
    (hregister : register ∈ description.registers) {value : RegisterValue}
    (hvalue : machine.store.get register.name = some value) (htype : value.dataType = register.dataType)
    (stores : MachineStores) : (polledStores description machine stores).registers.get register.name = some value := by
  have hstored : storedValue machine.store register.name register.dataType = value := by
    rw [storedValue_of_typed, hvalue]
    · rfl
    · intro other hother
      rw [← Option.some.inj (hvalue.symm.trans hother), htype]
  rw [← hstored]
  apply get_setAll_batches hflat.registers.names
  exact hregister

theorem polledStores_coil (hflat : FlatDescription description) {coil : CoilDescription}
    (hcoil : coil ∈ description.coils) {value : CoilValue} (hvalue : machine.coilStore.get coil.name = some value)
    (stores : MachineStores) : (polledStores description machine stores).coils.get coil.name = some value := by
  have hstored : (⟨storedBit CoilDescription.name machine.coilStore coil⟩ : CoilValue) = value := by
    rw [storedBit_eq, hvalue]
    rfl
  rw [← hstored]
  apply get_setAll_batches hflat.coils.names
  exact hcoil

end Poll

/-- The point of a machine that a command can set and a poll fetches again. -/
def MachinePoint.setpoint : MachinePoint → Option Point
  | .register entry => some (.register entry.name)
  | .coil entry => some (.coil entry.name)
  | _ => none

/-- The value fits the register, if the point is one. -/
def MachinePoint.Fits (point : MachinePoint) (value : MetricValue) : Prop :=
  ∀ entry, point = .register entry → FitsWidth entry.dataType value

theorem staged_of_commander {description : MachineDescription} {aliases : AliasAllocator} {payload : Payload}
    {name : String} {metric : Metric} {staged : StagedValue}
    (h : commander description aliases payload name = some (metric, staged)) :
    metricValueToStagedValue description name metric.value = .ok staged := by
  obtain ⟨other, -, hother⟩ := List.mem_filterMap.mp (List.mem_of_getLast? h)
  obtain ⟨staged', hunder, heq⟩ := Option.map_eq_some_iff.mp hother
  obtain ⟨rfl, rfl⟩ := Prod.mk.inj heq
  rw [stagedUnder] at hunder
  obtain ⟨-, hvalue⟩ := Option.ite_none_right_eq_some.mp hunder
  cases hstaged : metricValueToStagedValue description name other.value with
  | ok value =>
    rw [hstaged] at hvalue
    rw [Option.some.inj hvalue]
  | error reason =>
    rw [hstaged] at hvalue
    cases hvalue

/-- A machine that holds what a metric staged for a point is read as the value of the metric. -/
theorem published_of_held {description : MachineDescription} {machine : ServerMachineState}
    (hflat : FlatDescription description) (stores : MachineStores) {machinePoint : MachinePoint}
    (hmem : machinePoint ∈ machinePoints description) {point : Point}
    (hpoint : machinePoint.setpoint = some point) {value : MetricValue} {staged : StagedValue}
    (hstaged : metricValueToStagedValue description machinePoint.name value = .ok staged)
    (hsame : stagedPoint machinePoint.name staged = point) (hheld : pointValue machine point = some staged)
    (hfits : machinePoint.Fits value) : machinePoint.value (polledStores description machine stores) = value := by
  have hstages := stages_of_ok hstaged
  cases machinePoint with
  | register entry =>
    obtain rfl := Option.some.inj hpoint
    have hentry : entry ∈ description.registers := by simpa [machinePoints] using hmem
    have hfind : description.registers.find? (fun register => register.name == entry.name) = some entry := by
      have hsome : (description.registers.find? fun register => register.name == entry.name).isSome :=
        List.find?_isSome.mpr ⟨entry, hentry, beq_self_eq_true entry.name⟩
      obtain ⟨found, hfound⟩ := Option.isSome_iff_exists.mp hsome
      have hname : found.name = entry.name := by simpa using List.find?_some hfound
      rw [hfound, List.inj_on_of_nodup_map hflat.registers.names (List.mem_of_find?_eq_some hfound) hentry hname]
    cases staged with
    | register registerValue =>
      have hvalue : metricValueToRegisterValue value entry.dataType = .ok registerValue := by
        unfold metricValueToStagedValue at hstaged
        rw [MachinePoint.name, hfind] at hstaged
        dsimp only at hstaged
        cases hconverted : metricValueToRegisterValue value entry.dataType with
        | ok converted =>
          rw [hconverted] at hstaged
          rw [StagedValue.register.inj (Except.ok.inj hstaged)]
        | error reason =>
          rw [hconverted] at hstaged
          cases hstaged
      obtain ⟨stored, hstored, heq⟩ := Option.map_eq_some_iff.mp hheld
      obtain rfl := StagedValue.register.inj heq
      rw [MachinePoint.value, MachinePoint.stored, polledStores_register hflat hentry hstored
        (metricValueToRegisterValue_eq_ok hvalue).1]
      exact (mapRegisterValue_eq_iff hvalue).mpr (hfits entry rfl)
    | maskedRegister andMask orMask => cases hstages
    | coil | discreteInput | inputRegister | fileRecord => cases hsame
  | coil entry =>
    obtain rfl := Option.some.inj hpoint
    have hentry : entry ∈ description.coils := by simpa [machinePoints] using hmem
    cases staged with
    | coil coilValue =>
      have hvalue : value = .boolean coilValue.value := by
        have hany : (description.coils.any fun coil => coil.name == entry.name) = true :=
          List.any_eq_true.mpr ⟨entry, hentry, beq_self_eq_true entry.name⟩
        unfold metricValueToStagedValue at hstaged
        split at hstaged
        · next register hfind =>
          cases hconverted : metricValueToRegisterValue value register.dataType with
          | ok converted =>
            rw [hconverted] at hstaged
            cases hstaged
          | error reason =>
            rw [hconverted] at hstaged
            cases hstaged
        · rw [MachinePoint.name, if_pos hany] at hstaged
          split at hstaged
          · rw [← StagedValue.coil.inj (Except.ok.inj hstaged)]
          · cases hstaged
      obtain ⟨stored, hstored, heq⟩ := Option.map_eq_some_iff.mp hheld
      obtain rfl := StagedValue.coil.inj heq
      rw [MachinePoint.value, MachinePoint.stored, polledStores_coil hflat hentry hstored, hvalue]
      rfl
    | register | discreteInput | inputRegister | maskedRegister | fileRecord => cases hsame
  | discreteInput | inputRegister | fileRecord => cases hpoint

/-- What is staged for the point is staged under its name. -/
theorem MachinePoint.name_of_setpoint {machinePoint : MachinePoint} {point : Point}
    (hpoint : machinePoint.setpoint = some point) {name : String} {staged : StagedValue}
    (hsame : stagedPoint name staged = point) : name = machinePoint.name := by
  subst hsame
  cases machinePoint with
  | register entry => cases staged <;> first | exact (Point.register.inj (Option.some.inj hpoint)).symm | cases hpoint
  | coil entry => cases staged <;> first | exact (Point.coil.inj (Option.some.inj hpoint)).symm | cases hpoint
  | discreteInput | inputRegister | fileRecord => cases hpoint

/-- After a run of the three tasks against the server, the next poll of a machine publishes
for a register or a coil the value of the last command to it that was confirmed. -/
theorem CommandPipeline.commanded_value_comes_back
    (hserver : path.request = serverExchange serverOptions tomlSource fc43BulkTransfer)
    (hwrites : WritesEnabled serverOptions) (hreads : ReadsEnabled serverOptions)
    (hdescribed : WellDescribed path.machines) (hhosts : Hosts path.machines initial)
    (htyped : AllTyped path.machines initial) {actions : List CommandAction}
    (hstaged : Permitted (step path) (Staged path) (start initial) actions)
    (h : execute (step path) (start initial) actions = some s) {description : MachineDescription}
    (hdescription : description ∈ path.machines)
    (hreadable : ∀ fileRecord ∈ description.fileRecords, RecordReadable serverOptions fileRecord)
    {machinePoint : MachinePoint} (hmem : machinePoint ∈ machinePoints description) {point : Point}
    (hpoint : machinePoint.setpoint = some point) {before after : List CarriedOut} {transaction : CarriedOut}
    (hlog : s.carriedOut = before ++ transaction :: after) {metric : Metric} {staged : StagedValue}
    (hconfirms : transaction.Confirms description.name point staged)
    (hafter : ∀ later ∈ after, ∀ other, ¬later.Confirms description.name point other)
    (hcommander : commander description path.aliases transaction.payload machinePoint.name = some (metric, staged))
    (hfits : machinePoint.Fits metric.value) (now : UInt64) (stores : MachineStores) (broken : Bool) :
    ∃ stores', pollCycle path.request description s.connection stores broken = .ok (s.connection, stores', broken) ∧
      ∃ published ∈ buildMachineMetrics description path.aliases now stores', published.name = machinePoint.name ∧
        published.metricAlias = path.aliases.aliasFor description.name machinePoint.name ∧
        published.isNull = false ∧ published.value = metric.value := by
  have hkept : ∀ (t : CommandPipeline Machines) action (t' : CommandPipeline Machines),
      t.Settled path initial ∧ AllTyped path.machines t.connection → t.Staged path action →
      t.step path action = some t' → t'.Settled path initial ∧ AllTyped path.machines t'.connection := by
    rintro t action t' ⟨hsettled, htyped⟩ hpermitted hstep
    exact ⟨settled_step hserver hwrites hdescribed hsettled hpermitted hstep,
      allTyped_step hserver hwrites hdescribed hsettled htyped hpermitted hstep⟩
  obtain ⟨hsettled, htyped'⟩ := @invariant_of_execute _ _ (step path) (Staged path)
    (fun t => t.Settled path initial ∧ AllTyped path.machines t.connection) hkept _ _ ⟨settled_start hhosts, htyped⟩ _
    hstaged h
  obtain ⟨machine, hget, hconfigured⟩ := hsettled.hosts description hdescription
  have hheld : heldAt s.connection description point = some staged := by
    apply (hsettled.held description hdescription point).eq_of_last hlog hconfirms _ hafter
    -- a transaction stages one value under the name of the point
    rintro other ⟨-, name', hmem', hsame', -⟩
    obtain ⟨-, name, hstagedMem, hsame, -⟩ := hconfirms
    obtain ⟨_, _, henumerates⟩ := hsettled.carried transaction (by simp [hlog])
    rw [MachinePoint.name_of_setpoint hpoint hsame'] at hmem'
    rw [MachinePoint.name_of_setpoint hpoint hsame] at hstagedMem
    exact Rounds.staged_unique henumerates.1 hmem' hstagedMem
  rw [heldAt_of_get hget] at hheld
  obtain ⟨-, name, -, hsame, -⟩ := hconfirms
  rw [MachinePoint.name_of_setpoint hpoint hsame] at hsame
  refine ⟨polledStores description machine stores, ?_, machinePoint.metric description path.aliases now false
    (machinePoint.value (polledStores description machine stores)), ?_, rfl, rfl, rfl, ?_⟩
  · rw [hserver]
    exact pollCycle_of_server hreads hget hconfigured (hdescribed.flat description hdescription) hreadable
      (htyped' description hdescription machine hget) stores broken
  · rw [buildMachineMetrics_eq]
    exact List.mem_map_of_mem hmem
  · exact published_of_held (hdescribed.flat description hdescription) stores hmem hpoint
      (staged_of_commander hcommander) hsame hheld hfits

end ReadBack

/-- The strokes that were set last are published after the next poll. -/
theorem CommandPipeline.commanded_value_comes_back_strokes : ∃ s,
    execute (step servedPumps) (start pumpHouse) overridingStrokes = some s ∧
    ∃ stores', pollCycle servedPumps.request pump s.connection .new false = .ok (s.connection, stores', false) ∧
      ∃ published ∈ buildMachineMetrics pump servedPumps.aliases 5 stores', published.name = "strokes" ∧
        published.metricAlias = servedPumps.aliases.aliasFor "pump" "strokes" ∧
        published.isNull = false ∧ published.value = .int 8 := by
  obtain ⟨s, hs, first, second, last, hcarried, -, -, hlast⟩ := exists_overridingRun
  refine ⟨s, hs, ?_⟩
  refine @commanded_value_comes_back servedPumps s pumpHouse .allowAll "" ⟨[], ""⟩ rfl writesEnabled_allowAll
    ⟨rfl, rfl, rfl, rfl, rfl⟩ servedPumps_described pumpHouse_hosts ?_ _ (overridingStrokes_staged hs) hs pump
    List.mem_cons_self ?_ (.register ⟨"strokes", 10, .u32, .readWrite, none⟩) List.mem_cons_self
    (.register "strokes") rfl [first, second] [] last hcarried
    ⟨"strokes", none, none, .uint32, false, none, .int 8⟩ (.register (.u32 8)) (CarriedOut.confirms_strokes hlast).1
    ?_ ?_ ?_ 5 .new false
  · intro description hmem machine hget
    obtain rfl := Option.some.inj ((pumpHouse_get description hmem).symm.trans hget)
    refine ⟨?_, ?_, ?_⟩
    all_goals
      intro _ _ value hvalue
      cases hvalue
  · intro fileRecord hmem
    obtain rfl := List.mem_singleton.mp hmem
    exact ⟨by decide, fun _ => by decide⟩
  · intro later hlater
    cases hlater
  · rw [(StrokesWrite.mk.inj hlast).2.1]
    rfl
  · intro entry hentry
    obtain rfl := MachinePoint.register.inj hentry
    trivial

end InfusedModbus.Client
