import InfusedModbus.Foundation.Transducer
import InfusedModbus.Server.Handler
import InfusedModbus.Server.ServerHandle

/-! A running server. Requests and local writes work on the same stores: a local write
names its machine, a request reaches it through its unit id. Whatever the order of
the two, what holds of fresh machines and is kept by each of them holds of every
machine at every moment. -/

namespace InfusedModbus.Server

open Foundation Foundation.Outcome Protocol Datafs

/-- What a server is started with. -/
structure ServerProcess where
  description : DeviceDescription
  serverOptions : ServerOptions
  tomlSource : String
  fc43BulkTransfer : Fc43BulkTransfer
  floats : FloatParser

/-- What reaches a running server: a request from the wire, or a local write. -/
inductive Event where
  | request (unitId : UInt8) (pdu : Bytes)
  | set (machineName pointName rawValue : String)
  | setFileRecord (machineName : String) (fileNumber recordNumber : UInt16) (value : Bytes)

inductive Reply where
  | response (handled : Handled (Option Bytes))
  | written (result : Outcome ServerHandleError Unit)

namespace ServerProcess

variable (process : ServerProcess)

/-- Every machine under its name, nothing stored yet. -/
def start : ServerHandle :=
  Store.empty.setAll (process.description.machines.map fun machine => (machine.name, .fresh machine))

/-- The machine a unit id routes to: the last one described under it. -/
def machineAt (unitId : UInt8) : Option MachineDescription :=
  process.description.machines.reverse.find? fun machine => machine.unitId == unitId

/-- The machines as the wire sees them. -/
def machines (handle : ServerHandle) : Machines :=
  ⟨fun unitId => (process.machineAt unitId).bind fun machine => Store.get handle machine.name⟩

/-- A request leaves its changes in the stores of the machine it was routed to. -/
def writeBack (handle : ServerHandle) (unitId : UInt8) (machines' : Machines) : ServerHandle :=
  match process.machineAt unitId, machines'.get unitId with
  | some machine, some machine' => Store.set handle machine.name machine'
  | _, _ => handle

/-- A local write that fails or panics leaves the stores as they were. -/
def settle (handle : ServerHandle) (result : Outcome ServerHandleError ServerHandle) : ServerHandle × Reply :=
  match result with
  | .ok handle' => (handle', .written (.ok ()))
  | .err e => (handle, .written (.err e))
  | .panic => (handle, .written .panic)

def step (handle : ServerHandle) : Event → ServerHandle × Reply
  | .request unitId pdu =>
    match handleRequest unitId pdu process.serverOptions (process.machines handle) process.tomlSource
      process.fc43BulkTransfer with
    | .ok (response, machines') => (process.writeBack handle unitId machines', .response (.ok response))
    | .err e => e.elim
    | .panic => (handle, .response .panic)
  | .set machineName pointName rawValue =>
    settle handle (ServerHandle.set handle process.floats machineName pointName rawValue)
  | .setFileRecord machineName fileNumber recordNumber value =>
    settle handle (handle.setFileRecord machineName fileNumber recordNumber value)

/-- The machines after some events. -/
def after (events : List Event) : ServerHandle := (run process.step process.start events).1

end ServerProcess

/-- The machine with all its stores emptied. -/
def ServerMachineState.unset (machine : ServerMachineState) : ServerMachineState :=
  { machine with
    store := .empty, coilStore := .empty, discreteInputStore := .empty, inputRegisterStore := .empty,
    fileRecordStore := .empty }

theorem Served.unset_eq {pdu : Bytes} {machine machine' : ServerMachineState} {functionCode : UInt8}
    {response : Bytes} (h : Served pdu machine functionCode response machine') : machine'.unset = machine.unset := by
  cases h <;> rfl

theorem ServerHandle.SetText.unset_eq {floats : FloatParser} {pointName rawValue : String}
    {machine machine' : ServerMachineState} (h : ServerHandle.SetText floats pointName rawValue machine machine') :
    machine'.unset = machine.unset := by
  cases h <;> rfl

namespace ServerProcess

variable {process : ServerProcess}

/-- Every machine of the handle is a described one, under its name, with a property. -/
def EveryMachine (process : ServerProcess) (P : MachineDescription → ServerMachineState → Prop)
    (handle : ServerHandle) : Prop :=
  ∀ name machine, Store.get handle name = some machine →
    ∃ description ∈ process.description.machines, description.name = name ∧
      machine.unset = .fresh description ∧ P description machine

theorem everyMachine_start {P : MachineDescription → ServerMachineState → Prop}
    (hfresh : ∀ description ∈ process.description.machines, P description (.fresh description)) :
    process.EveryMachine P process.start := by
  intro name machine hget
  have hcases := Store.get_setAll_cases Store.empty
    (process.description.machines.map fun machine => (machine.name, ServerMachineState.fresh machine)) name
  rw [show Store.empty.setAll _ = process.start from rfl, hget] at hcases
  rcases hcases with ⟨_, hmem, hvalue⟩ | hempty
  · obtain rfl := Option.some.inj hvalue
    obtain ⟨description, hdescription, heq⟩ := List.mem_map.mp hmem
    obtain ⟨rfl, rfl⟩ := Prod.mk.inj heq
    exact ⟨description, hdescription, rfl, rfl, hfresh description hdescription⟩
  · cases hempty

/-- A property of every machine survives the replacement of one machine that keeps it. -/
theorem EveryMachine.set {P : MachineDescription → ServerMachineState → Prop} {handle : ServerHandle}
    (h : process.EveryMachine P handle) {name : String} {machine machine' : ServerMachineState}
    (hget : Store.get handle name = some machine) (hunset : machine'.unset = machine.unset)
    (hkeep : ∀ description ∈ process.description.machines, description.name = name →
      machine.unset = .fresh description → P description machine → P description machine') :
    process.EveryMachine P (Store.set handle name machine') := by
  intro other machine₀ hother
  rw [Store.get_set] at hother
  split at hother
  · next heq =>
    obtain rfl := Option.some.inj hother
    obtain ⟨description, hmem, hname, hdescription, hP⟩ := h name machine hget
    exact ⟨description, hmem, hname.trans heq.symm, hunset.trans hdescription,
      hkeep description hmem hname hdescription hP⟩
  · exact h other machine₀ hother

/-- Two described machines of one name are one. -/
theorem description_unique {d d' : MachineDescription} (hd : d ∈ process.description.machines)
    (hd' : d' ∈ process.description.machines) (hname : d.name = d'.name) : d = d' :=
  List.inj_on_of_nodup_map process.description.names_nodup hd hd' hname

theorem mem_of_machineAt {unitId : UInt8} {description : MachineDescription}
    (h : process.machineAt unitId = some description) : description ∈ process.description.machines :=
  List.mem_reverse.mp (List.mem_of_find?_eq_some h)

/-- A request that only its machine can serve is a step of that machine. -/
theorem step_request_of_machine {handle : ServerHandle} {unitId functionCode : UInt8} {pdu response : Bytes}
    {description : MachineDescription} {machine machine' : ServerMachineState}
    (hat : process.machineAt unitId = some description) (hget : Store.get handle description.name = some machine)
    (hhead : pdu.head? = some functionCode) (henabled : process.serverOptions.isEnabled functionCode)
    (hidentification : functionCode ≠ functionCodeEncapsulatedInterfaceTransport)
    (hfile : functionCode ≠ functionCodeReadFileRecord)
    (h : handleMachineRequest functionCode pdu machine = .ok (response, machine')) :
    process.step handle (.request unitId pdu) =
      (Store.set handle description.name machine', .response (.ok (some response))) := by
  have hview : (process.machines handle).get unitId = some machine := by
    simp only [machines, hat, Option.bind_some, hget]
  rw [step, handleRequest_of_machine hhead henabled hview hidentification hfile, h, map_ok]
  simp only [writeBack, hat, Store.get_set_self]

/-- The machine that a unit id routes to, as the wire sees it. -/
theorem get_machines {handle : ServerHandle} {unitId : UInt8} {description : MachineDescription}
    (hat : process.machineAt unitId = some description) :
    (process.machines handle).get unitId = Store.get handle description.name := by
  simp only [machines, hat, Option.bind_some]

/-- A request that is answered for its machine, which stays as it is, is no change at all. -/
theorem step_request_of_unchanged {handle : ServerHandle} {unitId : UInt8} {pdu response : Bytes}
    {description : MachineDescription} {machine : ServerMachineState}
    (hat : process.machineAt unitId = some description) (hget : Store.get handle description.name = some machine)
    (h : handleRequest unitId pdu process.serverOptions (process.machines handle) process.tomlSource
      process.fc43BulkTransfer = .ok (some response, (process.machines handle).set unitId machine)) :
    process.step handle (.request unitId pdu) = (handle, .response (.ok (some response))) := by
  rw [step, h]
  simp only [writeBack, hat, Store.get_set_self, Store.set_eq_self hget]

/-! ### Invariants -/

section Invariant

variable {P : MachineDescription → ServerMachineState → Prop} {handle : ServerHandle}

theorem everyMachine_request {unitId : UInt8} {pdu : Bytes} (h : process.EveryMachine P handle)
    (hkeep : ∀ description functionCode machine response machine',
      process.machineAt unitId = some description → pdu.head? = some functionCode →
      process.serverOptions.isEnabled functionCode → machine.unset = .fresh description →
      Served pdu machine functionCode response machine' → P description machine → P description machine') :
    process.EveryMachine P (process.step handle (.request unitId pdu)).1 := by
  obtain ⟨response, machines', heq, hanswered⟩ := handleRequest_answered unitId pdu process.serverOptions
    (process.machines handle) process.tomlSource process.fc43BulkTransfer
  simp only [step, heq]
  cases hat : process.machineAt unitId with
  | none => simpa only [writeBack, hat] using h
  | some description =>
    have hmem := mem_of_machineAt hat
    have hview : (process.machines handle).get unitId = Store.get handle description.name := by
      simp only [machines, hat, Option.bind_some]
    -- only a served request changes the machine; otherwise it is written back as it was
    cases hanswered with
    | silent | rejected | identification | bulkTransfer =>
      cases hget : Store.get handle description.name with
      | none => simpa only [writeBack, hat, hview, hget] using h
      | some machine =>
        simp only [writeBack, hat, hview, hget]
        exact h.set hget rfl fun _ _ _ _ hP => hP
    | served functionCode machine response machine' hhead henabled hget hserved =>
      simp only [writeBack, hat, Store.get_set_self]
      refine h.set (hview.symm.trans hget) hserved.unset_eq fun d hd hname hdescription hP => ?_
      obtain rfl := description_unique hd hmem hname
      exact hkeep d functionCode machine response machine' hat hhead henabled hdescription hserved hP

theorem everyMachine_set {machineName pointName rawValue : String} (h : process.EveryMachine P handle)
    (hkeep : ∀ description machine machine', description ∈ process.description.machines →
      description.name = machineName → machine.unset = .fresh description →
      ServerHandle.SetText process.floats pointName rawValue machine machine' →
      P description machine → P description machine') :
    process.EveryMachine P (process.step handle (.set machineName pointName rawValue)).1 := by
  rw [step]
  cases hset : ServerHandle.set handle process.floats machineName pointName rawValue with
  | err | panic => exact h
  | ok handle' =>
    obtain ⟨machine, machine', hget, rfl, hchange⟩ := ServerHandle.set_eq_ok hset
    exact h.set hget hchange.unset_eq fun d hd hname hdescription hP =>
      hkeep d machine machine' hd hname hdescription hchange hP

theorem everyMachine_setFileRecord {machineName : String} {fileNumber recordNumber : UInt16} {value : Bytes}
    (h : process.EveryMachine P handle)
    (hkeep : ∀ description machine, description ∈ process.description.machines → description.name = machineName →
      machine.unset = .fresh description → P description machine →
      P description
        { machine with fileRecordStore := machine.fileRecordStore.set (fileNumber, recordNumber) value }) :
    process.EveryMachine P (process.step handle (.setFileRecord machineName fileNumber recordNumber value)).1 := by
  rw [step]
  cases hset : handle.setFileRecord machineName fileNumber recordNumber value with
  | err | panic => exact h
  | ok handle' =>
    obtain ⟨machine, hget, rfl⟩ := ServerHandle.setFileRecord_eq_ok hset
    exact h.set hget rfl fun d hd hname hdescription hP => hkeep d machine hd hname hdescription hP

end Invariant

/-- A property of every machine that fresh machines have and good events keep holds
after any good events. -/
theorem everyMachine_after {P : MachineDescription → ServerMachineState → Prop} {good : Event → Prop}
    (hfresh : ∀ description ∈ process.description.machines, P description (.fresh description))
    (hstep : ∀ handle event, process.EveryMachine P handle → good event →
      process.EveryMachine P (process.step handle event).1)
    {events : List Event} (hevents : ∀ event ∈ events, good event) :
    process.EveryMachine P (process.after events) :=
  run_invariant hstep (everyMachine_start hfresh) hevents

end ServerProcess

end InfusedModbus.Server
