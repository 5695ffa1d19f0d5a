import InfusedModbus.Server.Atomicity
import InfusedModbus.Server.Isolation

/-! What the wire cannot do. Discrete inputs and input registers belong to the local side:
they are as if no request had ever come, and so is what the local side learns from its
writes. And nobody, on either side, stores a value for a register that is read-only. -/

namespace InfusedModbus.Server

open Foundation Foundation.Outcome Protocol Datafs

/-- The machine with the stores emptied that a request can write to. -/
def ServerMachineState.inputs (machine : ServerMachineState) : ServerMachineState :=
  { machine with store := .empty, coilStore := .empty, fileRecordStore := .empty }

theorem Served.inputs_eq {pdu : Bytes} {machine machine' : ServerMachineState} {functionCode : UInt8}
    {response : Bytes} (h : Served pdu machine functionCode response machine') : machine'.inputs = machine.inputs := by
  rw [h.changedOnlyAddressed.rest]
  rfl

/-- A local write treats the inputs as it would without the rest of the machine. -/
theorem PointWrite.inputs_apply (machine : ServerMachineState) (point : PointWrite) :
    (point.apply machine).inputs = (point.apply machine.inputs).inputs := by
  cases point <;> rfl

/-- The inputs of all machines. -/
def inputsOf (handle : ServerHandle) : ServerHandle :=
  ⟨fun name => (Store.get handle name).map ServerMachineState.inputs⟩

theorem get_inputsOf (handle : ServerHandle) (name : String) :
    Store.get (inputsOf handle) name = (Store.get handle name).map ServerMachineState.inputs := rfl

theorem inputsOf_set (handle : ServerHandle) (name : String) (machine : ServerMachineState) :
    inputsOf (Store.set handle name machine) = Store.set (inputsOf handle) name machine.inputs := by
  ext1
  funext other
  rw [get_inputsOf, Store.get_set, Store.get_set]
  split <;> rfl

def Event.isLocal (event : Event) : Bool := event.localTo.isSome

namespace ServerProcess

variable {process : ServerProcess}

theorem inputsOf_request (handle : ServerHandle) (unitId : UInt8) (pdu : Bytes) :
    inputsOf (process.step handle (.request unitId pdu)).1 = inputsOf handle := by
  cases hat : process.machineAt unitId with
  | none => rw [step_request_of_nowhere hat]
  | some description =>
    rcases step_request_cases hat pdu with ⟨response, hall⟩ | ⟨functionCode, hmachine⟩
    · rw [hall]
    · obtain ⟨hnone, hsome⟩ := hmachine handle
      cases hget : Store.get handle description.name with
      | none => rw [hnone hget]
      | some machine =>
        obtain ⟨response, machine', -, hserved, hstep⟩ := hsome machine hget
        have hinputs : Store.get (inputsOf handle) description.name = some machine.inputs := by
          rw [get_inputsOf, hget]
          rfl
        rw [hstep, inputsOf_set, hserved.inputs_eq, Store.set_eq_self hinputs]

/-- The inputs are the part of the server that local writes own. -/
theorem isPart_inputs (process : ServerProcess) : IsPart process.step inputsOf Event.isLocal where
  other handle event h := by
    cases event with
    | request unitId pdu => exact inputsOf_request handle unitId pdu
    | set machineName pointName rawValue => cases h
    | setFileRecord machineName fileNumber recordNumber value => cases h
  step handle handle' event hown hview := by
    obtain ⟨machineName, hlocal⟩ := Option.isSome_iff_exists.mp hown
    have hinputs : (Store.get handle machineName).map ServerMachineState.inputs =
        (Store.get handle' machineName).map ServerMachineState.inputs :=
      congrArg (fun store => Store.get store machineName) hview
    have hrel : Option.Rel (fun machine machine' => machine.unset = machine'.unset) (Store.get handle machineName)
        (Store.get handle' machineName) := by
      cases hget : Store.get handle machineName with
      | none =>
        rw [hget, Option.map_none, eq_comm, Option.map_eq_none_iff] at hinputs
        rw [hinputs]
        exact .none
      | some machine =>
        rw [hget, Option.map_some, eq_comm, Option.map_eq_some_iff] at hinputs
        obtain ⟨machine', hget', hsame⟩ := hinputs
        have hunset : machine.inputs.unset = machine'.inputs.unset := by rw [hsame]
        rw [hget']
        exact .some hunset
    rcases @step_local_cases process event machineName hlocal handle handle' hrel with
      ⟨reply, hstep, hstep'⟩ | ⟨point, machine, machine', hget, hget', -, hstep, hstep'⟩
    · rw [hstep, hstep']
      exact ⟨hview, rfl⟩
    · have hsame : machine.inputs = machine'.inputs := by
        rw [hget, hget'] at hinputs
        exact Option.some.inj hinputs
      rw [hstep, hstep']
      refine ⟨?_, rfl⟩
      rw [inputsOf_set, inputsOf_set, hview, point.inputs_apply machine, point.inputs_apply machine', hsame]

/-- Whatever is stored for registers is under the name of one that may be written. -/
def OnlyWritable (_ : MachineDescription) (machine : ServerMachineState) : Prop :=
  ∀ name value, machine.store.get name = some value →
    ∃ register ∈ machine.registers, register.name = name ∧ register.access = .readWrite

theorem OnlyWritable.apply {description : MachineDescription} {machine : ServerMachineState} {point : PointWrite}
    (h : OnlyWritable description machine) (hpermitted : point.Permitted machine) :
    OnlyWritable description (point.apply machine) := by
  cases point with
  | register name value =>
    intro other value' hget
    change (machine.store.set name value).get other = some value' at hget
    rw [Store.get_set] at hget
    split at hget
    · next hother => exact hother ▸ hpermitted
    · exact h other value' hget
  | coil name value => exact h
  | discreteInput name value => exact h
  | inputRegister name value => exact h
  | fileRecord fileNumber recordNumber value => exact h

theorem OnlyWritable.served {description : MachineDescription} {pdu : Bytes} {machine machine' : ServerMachineState}
    {functionCode : UInt8} {response : Bytes} (h : OnlyWritable description machine)
    (hserved : Served pdu machine functionCode response machine') : OnlyWritable description machine' := by
  intro name value hget
  have hchanged := hserved.changedOnlyAddressed
  have hregisters : machine'.registers = machine.registers := (configured_alike hserved.unset_eq).registers
  by_cases hsame : machine'.store.get name = machine.store.get name
  · rw [hregisters]
    exact h name value (hsame.symm.trans hget)
  · obtain ⟨register, hmem, hname, haccess, -⟩ := hchanged.registers name hsame
    exact ⟨register, hregisters ▸ hmem, hname, haccess⟩

theorem everyMachine_onlyWritable (process : ServerProcess) (events : List Event) :
    process.EveryMachine OnlyWritable (process.after events) := by
  refine @everyMachine_after process OnlyWritable (fun _ => True) ?_ ?_ events fun _ _ => trivial
  · intro description _ name value hget
    cases hget
  · intro handle event h _
    cases hlocal : event.localTo with
    | some machineName => exact everyMachine_local h hlocal fun description machine point hP => hP.apply
    | none =>
      cases event with
      | request unitId pdu =>
        exact everyMachine_request h fun description functionCode machine response machine' _ _ _ _ hserved hP =>
          hP.served hserved
      | set machineName pointName rawValue => cases hlocal
      | setFileRecord machineName fileNumber recordNumber value => cases hlocal

end ServerProcess

/-- The discrete inputs and input registers of all machines, and what local writes are told,
are after any events what they are after the local writes among them; and no register has
a stored value unless it may be written. -/
theorem inputs_are_local (process : ServerProcess) (events : List Event) :
    inputsOf (process.after events) = inputsOf (process.after (events.filter Event.isLocal)) ∧
      exchangesOf Event.isLocal events (run process.step process.start events).2 =
        (events.filter Event.isLocal).zip (run process.step process.start (events.filter Event.isLocal)).2 ∧
      ∀ name machine, Store.get (process.after events) name = some machine → ∀ point value,
        machine.store.get point = some value →
          ∃ register ∈ machine.registers, register.name = point ∧ register.access = .readWrite := by
  obtain ⟨hinputs, hanswers⟩ := process.isPart_inputs.run_filter rfl events
  refine ⟨hinputs, hanswers, fun name machine hget => ?_⟩
  obtain ⟨description, -, -, -, honly⟩ := process.everyMachine_onlyWritable events name machine hget
  exact honly

end InfusedModbus.Server
