import InfusedModbus.Datafs.Parse
import InfusedModbus.Server.MachineState
import InfusedModbus.Server.FileRecords

/-! Local access to the stores of a server by machine and point name. A typed setter
checks that the point exists, is writable and has the value's type; the text setter
finds out what kind of point a name means, parses the text for it and calls the typed
setter. A file record takes any number of bytes. -/

namespace InfusedModbus.Server

open Foundation Foundation.Outcome Protocol Datafs

inductive ServerHandleError where
  | unknownMachine (name : String)
  | unknownPoint (name : String)
  | readOnly (name : String)
  | invalidValue (value : String)
  | typeMismatch (expected got : DataType)
  deriving DecidableEq, Repr

/-- The machines of a server under their names. -/
abbrev ServerHandle := Store String ServerMachineState

namespace ServerHandle

variable (handle : ServerHandle)

def machine (machineName : String) : Outcome ServerHandleError ServerMachineState :=
  match Store.get handle machineName with
  | some machine => .ok machine
  | none => .err (.unknownMachine machineName)

def setRegister (machineName pointName : String) (value : RegisterValue) :
    Outcome ServerHandleError ServerHandle := do
  let machine ← handle.machine machineName
  match machine.registers.find? fun register => register.name == pointName with
  | none => .err (.unknownPoint pointName)
  | some register =>
    if register.access ≠ .readWrite then .err (.readOnly pointName)
    else if value.dataType ≠ register.dataType then .err (.typeMismatch register.dataType value.dataType)
    else .ok (Store.set handle machineName { machine with store := machine.store.set pointName value })

def setCoil (machineName pointName : String) (value : CoilValue) : Outcome ServerHandleError ServerHandle := do
  let machine ← handle.machine machineName
  if machine.coils.any fun coil => coil.name == pointName then
    .ok (Store.set handle machineName { machine with coilStore := machine.coilStore.set pointName value })
  else .err (.unknownPoint pointName)

def setDiscreteInput (machineName pointName : String) (value : CoilValue) :
    Outcome ServerHandleError ServerHandle := do
  let machine ← handle.machine machineName
  if machine.discreteInputs.any fun entry => entry.name == pointName then
    .ok (Store.set handle machineName
      { machine with discreteInputStore := machine.discreteInputStore.set pointName value })
  else .err (.unknownPoint pointName)

def setInputRegister (machineName pointName : String) (value : RegisterValue) :
    Outcome ServerHandleError ServerHandle := do
  let machine ← handle.machine machineName
  match machine.inputRegisters.find? fun entry => entry.name == pointName with
  | none => .err (.unknownPoint pointName)
  | some inputRegister =>
    if value.dataType ≠ inputRegister.dataType then .err (.typeMismatch inputRegister.dataType value.dataType)
    else .ok (Store.set handle machineName
      { machine with inputRegisterStore := machine.inputRegisterStore.set pointName value })

/-- Any bytes go: nothing compares their number with the declared length. -/
def setFileRecord (machineName : String) (fileNumber recordNumber : UInt16) (value : Bytes) :
    Outcome ServerHandleError ServerHandle := do
  let machine ← handle.machine machineName
  match findFileRecord machine.fileRecords fileNumber recordNumber with
  | none => .err (.unknownPoint (toString fileNumber ++ ":" ++ toString recordNumber))
  | some _ =>
    .ok (Store.set handle machineName
      { machine with fileRecordStore := machine.fileRecordStore.set (fileNumber, recordNumber) value })

/-- The value of a parsed text, or the error that it is invalid. -/
def parsed {α : Type} (rawValue : String) (value : Option α) : Outcome ServerHandleError α :=
  match value with
  | some value => .ok value
  | none => .err (.invalidValue rawValue)

/-- Set a point from text. The kinds of points are tried in this order. -/
def set (floats : FloatParser) (machineName pointName rawValue : String) :
    Outcome ServerHandleError ServerHandle := do
  let machine ← handle.machine machineName
  match machine.registers.find? fun register => register.name == pointName with
  | some register =>
    let value ← parsed rawValue (parseRegisterValue floats register.dataType rawValue)
    handle.setRegister machineName pointName value
  | none =>
  if machine.coils.any fun coil => coil.name == pointName then
    let value ← parsed rawValue (parseCoilValue rawValue)
    handle.setCoil machineName pointName value
  else if machine.discreteInputs.any fun entry => entry.name == pointName then
    let value ← parsed rawValue (parseCoilValue rawValue)
    handle.setDiscreteInput machineName pointName value
  else
  match machine.inputRegisters.find? fun entry => entry.name == pointName with
  | some inputRegister =>
    let value ← parsed rawValue (parseRegisterValue floats inputRegister.dataType rawValue)
    handle.setInputRegister machineName pointName value
  | none =>
  match (parseFileRecordName pointName).filter fun p => (findFileRecord machine.fileRecords p.1 p.2).isSome with
  | some (fileNumber, recordNumber) =>
    let value ← (parseFileRecordValue rawValue).mapErr fun _ => ServerHandleError.invalidValue rawValue
    handle.setFileRecord machineName fileNumber recordNumber value
  | none => .err (.unknownPoint pointName)

/-! ### What a setter does to its machine -/

/-- A name means a file record only when no other point has it. -/
def NamesFileRecord (machine : ServerMachineState) (pointName : String) (fileNumber recordNumber : UInt16) : Prop :=
  (∀ register ∈ machine.registers, register.name ≠ pointName) ∧ (∀ coil ∈ machine.coils, coil.name ≠ pointName) ∧
    (∀ entry ∈ machine.discreteInputs, entry.name ≠ pointName) ∧
    (∀ entry ∈ machine.inputRegisters, entry.name ≠ pointName) ∧
    parseFileRecordName pointName = some (fileNumber, recordNumber)

/-- What a successful text setter changes: one point, to a value read from the text. -/
inductive SetText (floats : FloatParser) (pointName rawValue : String) (machine : ServerMachineState) :
    ServerMachineState → Prop where
  | register (register : RegisterDescription) (value : RegisterValue)
      (hparse : parseRegisterValue floats register.dataType rawValue = some value) :
      SetText floats pointName rawValue machine { machine with store := machine.store.set pointName value }
  | coil (value : CoilValue) :
      SetText floats pointName rawValue machine { machine with coilStore := machine.coilStore.set pointName value }
  | discreteInput (value : CoilValue) :
      SetText floats pointName rawValue machine
        { machine with discreteInputStore := machine.discreteInputStore.set pointName value }
  | inputRegister (entry : InputRegisterDescription) (value : RegisterValue)
      (hparse : parseRegisterValue floats entry.dataType rawValue = some value) :
      SetText floats pointName rawValue machine
        { machine with inputRegisterStore := machine.inputRegisterStore.set pointName value }
  | fileRecord (fileNumber recordNumber : UInt16) (value : Bytes)
      (hname : NamesFileRecord machine pointName fileNumber recordNumber)
      (hparse : parseFileRecordValue rawValue = .ok value) :
      SetText floats pointName rawValue machine
        { machine with fileRecordStore := machine.fileRecordStore.set (fileNumber, recordNumber) value }

variable {handle} {handle' : ServerHandle} {machineName pointName rawValue : String}

theorem machine_eq_ok {m : ServerMachineState} : handle.machine machineName = .ok m ↔
    Store.get handle machineName = some m := by
  unfold machine
  cases Store.get handle machineName <;> simp

theorem parsed_eq_ok {α : Type} {value : Option α} {a : α} : parsed rawValue value = .ok a ↔ value = some a := by
  cases value <;> simp [parsed]

theorem setFileRecord_eq_ok {fileNumber recordNumber : UInt16} {value : Bytes}
    (h : handle.setFileRecord machineName fileNumber recordNumber value = .ok handle') :
    ∃ m, Store.get handle machineName = some m ∧ handle' = Store.set handle machineName
      { m with fileRecordStore := m.fileRecordStore.set (fileNumber, recordNumber) value } := by
  obtain ⟨m, hm, h⟩ := bind_eq_ok.mp h
  refine ⟨m, machine_eq_ok.mp hm, ?_⟩
  split at h
  · cases h
  · exact (Outcome.ok.inj h).symm

theorem setRegister_eq_ok {value : RegisterValue}
    (h : handle.setRegister machineName pointName value = .ok handle') :
    ∃ m, Store.get handle machineName = some m ∧
      handle' = Store.set handle machineName { m with store := m.store.set pointName value } := by
  obtain ⟨m, hm, h⟩ := bind_eq_ok.mp h
  refine ⟨m, machine_eq_ok.mp hm, ?_⟩
  split at h
  · cases h
  · split at h
    · cases h
    · split at h
      · cases h
      · exact (Outcome.ok.inj h).symm

theorem setInputRegister_eq_ok {value : RegisterValue}
    (h : handle.setInputRegister machineName pointName value = .ok handle') :
    ∃ m, Store.get handle machineName = some m ∧
      handle' = Store.set handle machineName { m with inputRegisterStore := m.inputRegisterStore.set pointName value } := by
  obtain ⟨m, hm, h⟩ := bind_eq_ok.mp h
  refine ⟨m, machine_eq_ok.mp hm, ?_⟩
  split at h
  · cases h
  · split at h
    · cases h
    · exact (Outcome.ok.inj h).symm

theorem setCoil_eq_ok {value : CoilValue} (h : handle.setCoil machineName pointName value = .ok handle') :
    ∃ m, Store.get handle machineName = some m ∧
      handle' = Store.set handle machineName { m with coilStore := m.coilStore.set pointName value } := by
  obtain ⟨m, hm, h⟩ := bind_eq_ok.mp h
  refine ⟨m, machine_eq_ok.mp hm, ?_⟩
  split at h
  · exact (Outcome.ok.inj h).symm
  · cases h

theorem setDiscreteInput_eq_ok {value : CoilValue}
    (h : handle.setDiscreteInput machineName pointName value = .ok handle') :
    ∃ m, Store.get handle machineName = some m ∧
      handle' = Store.set handle machineName { m with discreteInputStore := m.discreteInputStore.set pointName value } := by
  obtain ⟨m, hm, h⟩ := bind_eq_ok.mp h
  refine ⟨m, machine_eq_ok.mp hm, ?_⟩
  split at h
  · exact (Outcome.ok.inj h).symm
  · cases h

theorem set_eq_ok {floats : FloatParser} (h : handle.set floats machineName pointName rawValue = .ok handle') :
    ∃ m m', Store.get handle machineName = some m ∧ handle' = Store.set handle machineName m' ∧
      SetText floats pointName rawValue m m' := by
  obtain ⟨m, hm, h⟩ := bind_eq_ok.mp h
  have hget := machine_eq_ok.mp hm
  split at h
  · next register _ =>
    obtain ⟨value, hvalue, h⟩ := bind_eq_ok.mp h
    obtain ⟨m₁, hm₁, rfl⟩ := setRegister_eq_ok h
    obtain rfl := Option.some.inj (hget.symm.trans hm₁)
    exact ⟨m, _, hget, rfl, .register register value (parsed_eq_ok.mp hvalue)⟩
  next hregisters =>
  split at h
  · obtain ⟨value, hvalue, h⟩ := bind_eq_ok.mp h
    obtain ⟨m₁, hm₁, rfl⟩ := setCoil_eq_ok h
    obtain rfl := Option.some.inj (hget.symm.trans hm₁)
    exact ⟨m, _, hget, rfl, .coil value⟩
  next hcoils =>
  split at h
  · obtain ⟨value, hvalue, h⟩ := bind_eq_ok.mp h
    obtain ⟨m₁, hm₁, rfl⟩ := setDiscreteInput_eq_ok h
    obtain rfl := Option.some.inj (hget.symm.trans hm₁)
    exact ⟨m, _, hget, rfl, .discreteInput value⟩
  next hdiscreteInputs =>
  split at h
  · next entry _ =>
    obtain ⟨value, hvalue, h⟩ := bind_eq_ok.mp h
    obtain ⟨m₁, hm₁, rfl⟩ := setInputRegister_eq_ok h
    obtain rfl := Option.some.inj (hget.symm.trans hm₁)
    exact ⟨m, _, hget, rfl, .inputRegister entry value (parsed_eq_ok.mp hvalue)⟩
  next hinputRegisters =>
  split at h
  · next fileNumber recordNumber hname =>
    obtain ⟨value, hvalue, h⟩ := bind_eq_ok.mp h
    obtain ⟨m₁, hm₁, rfl⟩ := setFileRecord_eq_ok h
    obtain rfl := Option.some.inj (hget.symm.trans hm₁)
    have hparse : parseFileRecordValue rawValue = .ok value := mapErr_eq_ok.mp hvalue
    simp only [List.find?_eq_none, beq_iff_eq] at hregisters hinputRegisters
    simp only [List.any_eq_true, beq_iff_eq, not_exists, not_and] at hcoils hdiscreteInputs
    exact ⟨m, _, hget, rfl, .fileRecord fileNumber recordNumber value
      ⟨hregisters, hcoils, hdiscreteInputs, hinputRegisters, (Option.filter_eq_some_iff.mp hname).1⟩ hparse⟩
  · cases h

end ServerHandle

end InfusedModbus.Server
