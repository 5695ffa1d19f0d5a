import InfusedModbus.Foundation.Purge
import InfusedModbus.Server.Process

/-! Machines behind one server. A request concerns the machine its unit id routes to and
a local write the machine it names; no machine notices what concerns another. The inputs
of the machines are the part of a server that local writes own: no request ever changes
a discrete input or an input register. -/

namespace InfusedModbus.Server

open Foundation Foundation.Outcome Protocol Datafs

/-! ### What a request depends on -/

/-- A request is answered the same by all machines and leaves them as they are, or it is
left to the machine under its unit id. -/
theorem handleRequest_cases (unitId : UInt8) (pdu : Bytes) (serverOptions : ServerOptions) (tomlSource : String)
    (fc43BulkTransfer : Fc43BulkTransfer) :
    (∃ response, ∀ machines,
        handleRequest unitId pdu serverOptions machines tomlSource fc43BulkTransfer = .ok (some response, machines)) ∨
      ∃ functionCode, pdu.head? = some functionCode ∧ ∀ machines,
        handleRequest unitId pdu serverOptions machines tomlSource fc43BulkTransfer =
          handleUnitRequest unitId functionCode pdu machines := by
  unfold handleRequest
  cases hhead : pdu.head? with
  | none => exact .inl ⟨_, fun _ => rfl⟩
  | some functionCode =>
    dsimp only
    split
    · exact .inl ⟨_, fun _ => rfl⟩
    split
    · obtain ⟨response, heq, -⟩ := @handleEncapsulatedInterfaceTransport_answered unitId pdu serverOptions .empty
        tomlSource serverOptions.detectMachineLayout fc43BulkTransfer
      exact .inl ⟨response, fun _ => by rw [heq, map_ok]⟩
    split
    · cases hdec : ReadFileRecordRequest.decode pdu with
      | panic => exact absurd hdec (ReadFileRecordRequest.decode_ne_panic pdu)
      | err e => exact .inr ⟨functionCode, rfl, fun _ => rfl⟩
      | ok request =>
        simp only [letOk_ok]
        split
        · rcases handleReadDeviceDescriptionBulkTransfer_cases request fc43BulkTransfer.compressedToml with
            ⟨code, heq⟩ | ⟨records, -, -, heq⟩
          · exact .inl ⟨_, fun _ => by rw [heq, map_ok]⟩
          · exact .inl ⟨_, fun _ => by rw [heq, map_ok]⟩
        · exact .inr ⟨functionCode, rfl, fun _ => rfl⟩
    · exact .inr ⟨functionCode, rfl, fun _ => rfl⟩

namespace ServerProcess

variable {process : ServerProcess}

/-- A request to a unit id without a machine changes nothing. -/
theorem step_request_of_nowhere {handle : ServerHandle} {unitId : UInt8} {pdu : Bytes}
    (hat : process.machineAt unitId = none) : (process.step handle (.request unitId pdu)).1 = handle := by
  obtain ⟨response, machines', heq, -⟩ := handleRequest_answered unitId pdu process.serverOptions
    (process.machines handle) process.tomlSource process.fc43BulkTransfer
  rw [step, heq]
  simp only [writeBack, hat]

/-- A request answers and leaves everything as it is, or its machine serves it. -/
theorem step_request_cases {unitId : UInt8} {description : MachineDescription}
    (hat : process.machineAt unitId = some description) (pdu : Bytes) :
    (∃ response, ∀ handle, process.step handle (.request unitId pdu) = (handle, .response (.ok (some response)))) ∨
      ∃ functionCode, ∀ handle,
        (Store.get handle description.name = none →
          process.step handle (.request unitId pdu) = (handle, .response (.ok none))) ∧
        ∀ machine, Store.get handle description.name = some machine → ∃ response machine',
          handleMachineRequest functionCode pdu machine = .ok (response, machine') ∧
            Served pdu machine functionCode response machine' ∧
            process.step handle (.request unitId pdu) =
              (Store.set handle description.name machine', .response (.ok (some response))) := by
  rcases handleRequest_cases unitId pdu process.serverOptions process.tomlSource process.fc43BulkTransfer with
    ⟨response, hall⟩ | ⟨functionCode, -, hunit⟩
  · refine .inl ⟨response, fun handle => ?_⟩
    rw [step, hall]
    simp only [writeBack, hat, get_machines hat]
    cases hget : Store.get handle description.name with
    | none => rfl
    | some machine => exact congrArg (·, _) (Store.set_eq_self hget)
  · refine .inr ⟨functionCode, fun handle => ⟨fun hnone => ?_, fun machine hget => ?_⟩⟩
    · have hview : (process.machines handle).get unitId = none := (get_machines hat).trans hnone
      rw [step, hunit, handleUnitRequest, hview]
      simp only [writeBack, hat, hview]
    · have hview : (process.machines handle).get unitId = some machine := (get_machines hat).trans hget
      obtain ⟨response, machine', hserved, hcases⟩ := handleMachineRequest_served pdu machine functionCode
      refine ⟨response, machine', hserved, hcases, ?_⟩
      rw [step, hunit, handleUnitRequest, hview]
      dsimp only
      rw [hserved, map_ok]
      simp only [writeBack, hat, Store.get_set_self]

/-! ### One machine -/

/-- The events that reach the machine of a name. -/
def concerns (process : ServerProcess) (name : String) : Event → Bool
  | .request unitId _ => (process.machineAt unitId).any fun machine => machine.name == name
  | .set machineName _ _ => machineName == name
  | .setFileRecord machineName _ _ _ => machineName == name

theorem get_settle_of_ne {handle : ServerHandle} {result : Outcome ServerHandleError ServerHandle}
    {machineName name : String}
    (hne : machineName ≠ name)
    (h : ∀ handle', result = .ok handle' → ∃ machine', handle' = Store.set handle machineName machine') :
    Store.get (settle handle result).1 name = Store.get handle name := by
  cases result with
  | ok handle' =>
    obtain ⟨machine', rfl⟩ := h handle' rfl
    exact Store.get_set_of_ne _ _ hne.symm
  | err e => rfl
  | panic => rfl

/-- What reaches other machines leaves this one alone. -/
theorem get_step_of_other {handle : ServerHandle} {event : Event} {name : String}
    (h : process.concerns name event = false) :
    Store.get (process.step handle event).1 name = Store.get handle name := by
  cases event with
  | request unitId pdu =>
    cases hat : process.machineAt unitId with
    | none => rw [step_request_of_nowhere hat]
    | some description =>
      have hne : name ≠ description.name := by
        simp only [concerns, hat, Option.any_some, beq_eq_false_iff_ne] at h
        exact h.symm
      rcases step_request_cases hat pdu with ⟨response, hall⟩ | ⟨functionCode, hmachine⟩
      · rw [hall]
      · obtain ⟨hnone, hsome⟩ := hmachine handle
        cases hget : Store.get handle description.name with
        | none => rw [hnone hget]
        | some machine =>
          obtain ⟨response, machine', -, -, hstep⟩ := hsome machine hget
          rw [hstep]
          exact Store.get_set_of_ne _ _ hne
  | set machineName pointName rawValue =>
    refine get_settle_of_ne (beq_eq_false_iff_ne.mp h) fun handle' hset => ?_
    obtain ⟨machine, machine', -, rfl, -⟩ := ServerHandle.set_eq_ok hset
    exact ⟨machine', rfl⟩
  | setFileRecord machineName fileNumber recordNumber value =>
    refine get_settle_of_ne (beq_eq_false_iff_ne.mp h) fun handle' hset => ?_
    obtain ⟨machine, -, rfl⟩ := ServerHandle.setFileRecord_eq_ok hset
    exact ⟨_, rfl⟩

end ServerProcess

/-! ### Local writes -/

/-- One value for one point of a machine. -/
inductive PointWrite where
  | register (name : String) (value : RegisterValue)
  | coil (name : String) (value : CoilValue)
  | discreteInput (name : String) (value : CoilValue)
  | inputRegister (name : String) (value : RegisterValue)
  | fileRecord (fileNumber recordNumber : UInt16) (value : Bytes)

namespace PointWrite

def apply (machine : ServerMachineState) : PointWrite → ServerMachineState
  | .register name value => { machine with store := machine.store.set name value }
  | .coil name value => { machine with coilStore := machine.coilStore.set name value }
  | .discreteInput name value => { machine with discreteInputStore := machine.discreteInputStore.set name value }
  | .inputRegister name value => { machine with inputRegisterStore := machine.inputRegisterStore.set name value }
  | .fileRecord fileNumber recordNumber value =>
    { machine with fileRecordStore := machine.fileRecordStore.set (fileNumber, recordNumber) value }

theorem unset_apply (machine : ServerMachineState) (point : PointWrite) :
    (point.apply machine).unset = machine.unset := by
  cases point <;> rfl

/-- A register is written only where it may be. -/
def Permitted (machine : ServerMachineState) : PointWrite → Prop
  | .register name _ => ∃ register ∈ machine.registers, register.name = name ∧ register.access = .readWrite
  | _ => True

end PointWrite

/-- Two machines with the same points. -/
structure ConfiguredAlike (machine machine' : ServerMachineState) : Prop where
  registers : machine.registers = machine'.registers
  coils : machine.coils = machine'.coils
  discreteInputs : machine.discreteInputs = machine'.discreteInputs
  inputRegisters : machine.inputRegisters = machine'.inputRegisters
  fileRecords : machine.fileRecords = machine'.fileRecords

theorem configured_alike {machine machine' : ServerMachineState} (h : machine.unset = machine'.unset) :
    ConfiguredAlike machine machine' := by
  simp only [ServerMachineState.unset, ServerMachineState.mk.injEq, true_and] at h
  obtain ⟨hregisters, hcoils, hdiscreteInputs, hinputRegisters, hfileRecords, -⟩ := h
  exact ⟨hregisters, hcoils, hdiscreteInputs, hinputRegisters, hfileRecords⟩

namespace ServerHandle

/-- A write to a machine that is configured like that: this alone decides whether it
succeeds and which point gets which value. -/
def SetsPoint (machineName : String) (configured : ServerMachineState)
    (write : ServerHandle → ServerMachineState → Outcome ServerHandleError ServerHandle) : Prop :=
  ∃ written : Outcome ServerHandleError PointWrite, (∀ point, written = .ok point → point.Permitted configured) ∧
    ∀ handle machine, Store.get handle machineName = some machine → machine.unset = configured.unset →
      write handle machine = written.map fun point => Store.set handle machineName (point.apply machine)

/-- A write to the machine of a name, if there is one. -/
structure WritesMachine (machineName : String) (write : ServerHandle → Outcome ServerHandleError ServerHandle) :
    Prop where
  unknown : ∀ handle, Store.get handle machineName = none → write handle = .err (.unknownMachine machineName)
  known : ∀ configured, SetsPoint machineName configured fun handle _ => write handle

section SetsPoint

variable {machineName pointName : String} {configured : ServerMachineState}
  {write write' : ServerHandle → ServerMachineState → Outcome ServerHandleError ServerHandle}

theorem setsPoint_err (e : ServerHandleError) : SetsPoint machineName configured fun _ _ => .err e := by
  refine ⟨.err e, fun point h => ?_, fun _ _ _ _ => rfl⟩
  cases h

theorem setsPoint_ok {point : PointWrite} (h : point.Permitted configured) :
    SetsPoint machineName configured fun handle machine =>
      .ok (Store.set handle machineName (point.apply machine)) := by
  refine ⟨.ok point, fun point' heq => ?_, fun _ _ _ _ => rfl⟩
  obtain rfl := ok.inj heq
  exact h

theorem SetsPoint.congr (h : SetsPoint machineName configured write)
    (heq : ∀ handle machine, ConfiguredAlike machine configured → write' handle machine = write handle machine) :
    SetsPoint machineName configured write' := by
  obtain ⟨written, hpermitted, hwrite⟩ := h
  refine ⟨written, hpermitted, fun handle machine hget hunset => ?_⟩
  rw [heq handle machine (configured_alike hunset), hwrite handle machine hget hunset]

/-- The value may come from a text, or fail to. -/
theorem setsPoint_bind {α : Type}
    {write : α → ServerHandle → ServerMachineState → Outcome ServerHandleError ServerHandle}
    (h : ∀ a, SetsPoint machineName configured (write a)) (value : Outcome ServerHandleError α) :
    SetsPoint machineName configured fun handle machine => value >>= fun a => write a handle machine := by
  cases value with
  | ok a => exact h a
  | err e => exact setsPoint_err e
  | panic =>
    refine ⟨.panic, fun point h => ?_, fun _ _ _ _ => rfl⟩
    cases h

/-- The machine is looked up first. -/
theorem writesMachine_bind (h : ∀ configured, SetsPoint machineName configured write) :
    WritesMachine machineName fun handle => handle.machine machineName >>= write handle where
  unknown handle hnone := by
    rw [machine, hnone]
    rfl
  known configured := by
    obtain ⟨written, hpermitted, hwrite⟩ := h configured
    refine ⟨written, hpermitted, fun handle machine hget hunset => ?_⟩
    dsimp only
    rw [machine_eq_ok.mpr hget, ok_bind, hwrite handle machine hget hunset]

end SetsPoint

section Setters

variable {machineName : String} (pointName : String)

theorem writesMachine_setRegister (value : RegisterValue) :
    WritesMachine machineName fun handle => handle.setRegister machineName pointName value := by
  refine writesMachine_bind fun configured => ?_
  cases hfind : configured.registers.find? fun register => register.name == pointName with
  | none =>
    refine (setsPoint_err (.unknownPoint pointName)).congr fun handle machine halike => ?_
    rw [halike.registers, hfind]
  | some register =>
    by_cases haccess : register.access ≠ .readWrite
    · refine (setsPoint_err (.readOnly pointName)).congr fun handle machine halike => ?_
      rw [← halike.registers] at hfind
      rw [hfind]
      exact if_pos haccess
    · by_cases htype : value.dataType ≠ register.dataType
      · refine (setsPoint_err (.typeMismatch register.dataType value.dataType)).congr fun handle machine halike => ?_
        rw [← halike.registers] at hfind
        rw [hfind]
        exact (if_neg haccess).trans (if_pos htype)
      · have hname : register.name = pointName := by simpa using List.find?_some hfind
        have hpermitted : (PointWrite.register pointName value).Permitted configured :=
          ⟨register, List.mem_of_find?_eq_some hfind, hname, not_not.mp haccess⟩
        refine (setsPoint_ok hpermitted).congr fun handle machine halike => ?_
        rw [← halike.registers] at hfind
        rw [hfind]
        exact (if_neg haccess).trans (if_neg htype)

theorem writesMachine_setCoil (value : CoilValue) :
    WritesMachine machineName fun handle => handle.setCoil machineName pointName value := by
  refine writesMachine_bind fun configured => ?_
  by_cases hany : configured.coils.any fun coil => coil.name == pointName
  · refine (@setsPoint_ok _ _ (.coil pointName value) trivial).congr fun handle machine halike => ?_
    rw [← halike.coils] at hany
    exact if_pos hany
  · refine (setsPoint_err (.unknownPoint pointName)).congr fun handle machine halike => ?_
    rw [← halike.coils] at hany
    exact if_neg hany

theorem writesMachine_setDiscreteInput (value : CoilValue) :
    WritesMachine machineName fun handle => handle.setDiscreteInput machineName pointName value := by
  refine writesMachine_bind fun configured => ?_
  by_cases hany : configured.discreteInputs.any fun entry => entry.name == pointName
  · refine (@setsPoint_ok _ _ (.discreteInput pointName value) trivial).congr fun handle machine halike => ?_
    rw [← halike.discreteInputs] at hany
    exact if_pos hany
  · refine (setsPoint_err (.unknownPoint pointName)).congr fun handle machine halike => ?_
    rw [← halike.discreteInputs] at hany
    exact if_neg hany

theorem writesMachine_setInputRegister (value : RegisterValue) :
    WritesMachine machineName fun handle => handle.setInputRegister machineName pointName value := by
  refine writesMachine_bind fun configured => ?_
  cases hfind : configured.inputRegisters.find? fun entry => entry.name == pointName with
  | none =>
    refine (setsPoint_err (.unknownPoint pointName)).congr fun handle machine halike => ?_
    rw [halike.inputRegisters, hfind]
  | some entry =>
    by_cases htype : value.dataType ≠ entry.dataType
    · refine (setsPoint_err (.typeMismatch entry.dataType value.dataType)).congr fun handle machine halike => ?_
      rw [← halike.inputRegisters] at hfind
      rw [hfind]
      exact if_pos htype
    · refine (@setsPoint_ok _ _ (.inputRegister pointName value) trivial).congr fun handle machine halike => ?_
      rw [← halike.inputRegisters] at hfind
      rw [hfind]
      exact if_neg htype

theorem writesMachine_setFileRecord (fileNumber recordNumber : UInt16) (value : Bytes) :
    WritesMachine machineName fun handle => handle.setFileRecord machineName fileNumber recordNumber value := by
  refine writesMachine_bind fun configured => ?_
  cases hfind : findFileRecord configured.fileRecords fileNumber recordNumber with
  | none =>
    refine (setsPoint_err (.unknownPoint (toString fileNumber ++ ":" ++ toString recordNumber))).congr
      fun handle machine halike => ?_
    rw [halike.fileRecords, hfind]
  | some description =>
    refine (@setsPoint_ok _ _ (.fileRecord fileNumber recordNumber value) trivial).congr fun handle machine halike => ?_
    rw [← halike.fileRecords] at hfind
    rw [hfind]
    rfl

/-- The text setter, kind of point by kind of point. -/
theorem writesMachine_set (floats : FloatParser) (rawValue : String) :
    WritesMachine machineName fun handle => handle.set floats machineName pointName rawValue := by
  refine writesMachine_bind fun configured => ?_
  cases hregister : configured.registers.find? fun register => register.name == pointName with
  | some register =>
    refine (setsPoint_bind (fun value => (writesMachine_setRegister pointName value).known configured)
      (parsed rawValue (parseRegisterValue floats register.dataType rawValue))).congr fun handle machine halike => ?_
    rw [halike.registers, hregister]
  | none =>
  by_cases hcoil : configured.coils.any fun coil => coil.name == pointName
  · refine (setsPoint_bind (fun value => (writesMachine_setCoil pointName value).known configured)
      (parsed rawValue (parseCoilValue rawValue))).congr fun handle machine halike => ?_
    rw [halike.registers, hregister, halike.coils]
    exact if_pos hcoil
  by_cases hdiscreteInput : configured.discreteInputs.any fun entry => entry.name == pointName
  · refine (setsPoint_bind (fun value => (writesMachine_setDiscreteInput pointName value).known configured)
      (parsed rawValue (parseCoilValue rawValue))).congr fun handle machine halike => ?_
    rw [halike.registers, hregister, halike.coils, halike.discreteInputs]
    exact (if_neg hcoil).trans (if_pos hdiscreteInput)
  cases hinputRegister : configured.inputRegisters.find? fun entry => entry.name == pointName with
  | some entry =>
    refine (setsPoint_bind (fun value => (writesMachine_setInputRegister pointName value).known configured)
      (parsed rawValue (parseRegisterValue floats entry.dataType rawValue))).congr fun handle machine halike => ?_
    rw [halike.registers, hregister, halike.coils, halike.discreteInputs, halike.inputRegisters, hinputRegister]
    exact (if_neg hcoil).trans (if_neg hdiscreteInput)
  | none =>
  cases hrecord : (parseFileRecordName pointName).filter fun p =>
      (findFileRecord configured.fileRecords p.1 p.2).isSome with
  | some p =>
    refine (setsPoint_bind (fun value => (writesMachine_setFileRecord p.1 p.2 value).known configured)
      ((parseFileRecordValue rawValue).mapErr fun _ => .invalidValue rawValue)).congr fun handle machine halike => ?_
    rw [halike.registers, hregister, halike.coils, halike.discreteInputs, halike.inputRegisters, hinputRegister,
      halike.fileRecords, hrecord]
    exact (if_neg hcoil).trans (if_neg hdiscreteInput)
  | none =>
    refine (setsPoint_err (.unknownPoint pointName)).congr fun handle machine halike => ?_
    rw [halike.registers, hregister, halike.coils, halike.discreteInputs, halike.inputRegisters, hinputRegister,
      halike.fileRecords, hrecord]
    exact (if_neg hcoil).trans (if_neg hdiscreteInput)

end Setters

end ServerHandle

/-- A local write, and the machine it names. -/
def Event.localTo : Event → Option String
  | .request _ _ => none
  | .set machineName _ _ => some machineName
  | .setFileRecord machineName _ _ _ => some machineName

namespace ServerProcess

variable {process : ServerProcess}

theorem step_local {event : Event} {machineName : String} (h : event.localTo = some machineName) :
    ∃ write, ServerHandle.WritesMachine machineName write ∧
      ∀ handle, process.step handle event = settle handle (write handle) := by
  cases event with
  | request unitId pdu => cases h
  | set name pointName rawValue =>
    obtain rfl := Option.some.inj h
    exact ⟨_, ServerHandle.writesMachine_set pointName process.floats rawValue, fun _ => rfl⟩
  | setFileRecord name fileNumber recordNumber value =>
    obtain rfl := Option.some.inj h
    exact ⟨_, ServerHandle.writesMachine_setFileRecord fileNumber recordNumber value, fun _ => rfl⟩

/-- A local write to two servers whose machine is configured alike: it fails in both in the
same way, or sets the same point in both. -/
theorem step_local_cases {event : Event} {machineName : String} (hlocal : event.localTo = some machineName)
    {handle handle' : ServerHandle}
    (h : Option.Rel (fun machine machine' => machine.unset = machine'.unset) (Store.get handle machineName)
      (Store.get handle' machineName)) :
    (∃ reply, process.step handle event = (handle, reply) ∧ process.step handle' event = (handle', reply)) ∨
      ∃ point : PointWrite, ∃ machine machine', Store.get handle machineName = some machine ∧
        Store.get handle' machineName = some machine' ∧ point.Permitted machine ∧
        process.step handle event = (Store.set handle machineName (point.apply machine), .written (.ok ())) ∧
        process.step handle' event = (Store.set handle' machineName (point.apply machine'), .written (.ok ())) := by
  obtain ⟨write, hwrites, hstep⟩ := @step_local process event machineName hlocal
  rw [hstep, hstep]
  cases hget : Store.get handle machineName with
  | none =>
    cases hget' : Store.get handle' machineName with
    | none =>
      rw [hwrites.unknown handle hget, hwrites.unknown handle' hget']
      exact .inl ⟨_, rfl, rfl⟩
    | some machine' =>
      rw [hget, hget'] at h
      cases h
  | some machine =>
    cases hget' : Store.get handle' machineName with
    | none =>
      rw [hget, hget'] at h
      cases h
    | some machine' =>
      have hunset : machine.unset = machine'.unset := by
        rw [hget, hget'] at h
        cases h with
        | some hunset => exact hunset
      obtain ⟨written, hpermitted, hwrite⟩ := hwrites.known machine
      have hwrite' := hwrite handle' machine' hget' hunset.symm
      replace hwrite := hwrite handle machine hget rfl
      dsimp only at hwrite hwrite'
      rw [hwrite, hwrite']
      cases written with
      | ok point => exact .inr ⟨point, machine, machine', rfl, rfl, hpermitted point rfl, rfl, rfl⟩
      | err e => exact .inl ⟨_, rfl, rfl⟩
      | panic => exact .inl ⟨_, rfl, rfl⟩

/-- A property of every machine that a permitted write of one point keeps. -/
theorem everyMachine_local {P : MachineDescription → ServerMachineState → Prop} {handle : ServerHandle}
    (h : process.EveryMachine P handle) {event : Event} {machineName : String}
    (hlocal : event.localTo = some machineName)
    (hkeep : ∀ description machine point, P description machine → PointWrite.Permitted machine point →
      P description (point.apply machine)) : process.EveryMachine P (process.step handle event).1 := by
  have hrel : Option.Rel (fun machine machine' => machine.unset = machine'.unset) (Store.get handle machineName)
      (Store.get handle machineName) := by
    cases Store.get handle machineName with
    | none => exact .none
    | some machine => exact .some rfl
  rcases @step_local_cases process event machineName hlocal handle handle hrel with
    ⟨reply, hstep, -⟩ | ⟨point, machine, machine', hget, -, hpermitted, hstep, -⟩
  · rw [hstep]
    exact h
  · rw [hstep]
    exact h.set hget (point.unset_apply machine) fun description _ _ _ hP =>
      hkeep description machine point hP hpermitted

/-- A machine is a part of the server. -/
theorem isPart_machine (process : ServerProcess) (name : String) :
    IsPart process.step (fun handle => Store.get handle name) (process.concerns name) where
  other _ _ h := get_step_of_other h
  step handle handle' event hown hview := by
    have hlocal : event.localTo = some name → Store.get (process.step handle event).1 name =
        Store.get (process.step handle' event).1 name ∧
      (process.step handle event).2 = (process.step handle' event).2 := by
      intro hname
      have hrel : Option.Rel (fun machine machine' => machine.unset = machine'.unset) (Store.get handle name)
          (Store.get handle' name) := by
        rw [show Store.get handle' name = Store.get handle name from hview.symm]
        cases Store.get handle name with
        | none => exact .none
        | some machine => exact .some rfl
      rcases @step_local_cases process event name hname handle handle' hrel with
        ⟨reply, hstep, hstep'⟩ | ⟨point, machine, machine', hget, hget', -, hstep, hstep'⟩
      · rw [hstep, hstep']
        exact ⟨hview, rfl⟩
      · obtain rfl := Option.some.inj (hget.symm.trans (hview.trans hget'))
        rw [hstep, hstep', Store.get_set_self, Store.get_set_self]
        exact ⟨rfl, rfl⟩
    cases event with
    | request unitId pdu =>
      cases hat : process.machineAt unitId with
      | none => simp [concerns, hat] at hown
      | some description =>
        obtain rfl : description.name = name := by simpa [concerns, hat] using hown
        rcases step_request_cases hat pdu with ⟨response, hall⟩ | ⟨functionCode, hmachine⟩
        · rw [hall, hall]
          exact ⟨hview, rfl⟩
        · cases hget : Store.get handle description.name with
          | none =>
            rw [(hmachine handle).1 hget, (hmachine handle').1 (hview.symm.trans hget)]
            exact ⟨hview, rfl⟩
          | some machine =>
            obtain ⟨response, machine', hserved, -, hstep⟩ := (hmachine handle).2 machine hget
            obtain ⟨response', machine'', hserved', -, hstep'⟩ := (hmachine handle').2 machine (hview.symm.trans hget)
            obtain ⟨rfl, rfl⟩ := Prod.mk.inj (ok.inj (hserved.symm.trans hserved'))
            rw [hstep, hstep', Store.get_set_self, Store.get_set_self]
            exact ⟨rfl, rfl⟩
    | set machineName pointName rawValue => exact hlocal (congrArg some (beq_iff_eq.mp hown))
    | setFileRecord machineName fileNumber recordNumber value => exact hlocal (congrArg some (beq_iff_eq.mp hown))

end ServerProcess

/-- After any events a machine is as after those alone that concern it, which were answered
alike, and how the events of different machines come in between each other makes no
difference to the server. -/
theorem machines_isolated (process : ServerProcess) (events : List Event) :
    (∀ name, Store.get (process.after events) name =
      Store.get (process.after (events.filter (process.concerns name))) name ∧
      exchangesOf (process.concerns name) events (run process.step process.start events).2 =
        (events.filter (process.concerns name)).zip
          (run process.step process.start (events.filter (process.concerns name))).2) ∧
      ∀ events', (∀ name, events.filter (process.concerns name) = events'.filter (process.concerns name)) →
        process.after events = process.after events' := by
  constructor
  · intro name
    exact (process.isPart_machine name).run_filter rfl events
  · intro events' hsame
    refine run_eq_of_parts process.isPart_machine (fun handle handle' hviews => ?_) process.start hsame
    ext1
    exact funext hviews

end InfusedModbus.Server
