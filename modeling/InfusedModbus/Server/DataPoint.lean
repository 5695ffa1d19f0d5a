import InfusedModbus.Server.DataSocket
import InfusedModbus.Server.FlatDescription
import InfusedModbus.Server.Process

/-! The points of a machine, each with the type of its values. A point is read and written
in its own store under its own name, so what was written is read back and every other point
reads as before. A name is resolved section by section; getting or setting by name is
reading or writing the point that the name resolves to. -/

namespace InfusedModbus.Server

open Foundation Foundation.Outcome Protocol Datafs

/-- A point of a machine, by its entry in the description. -/
inductive DataPoint where
  | register (entry : RegisterDescription)
  | coil (entry : CoilDescription)
  | discreteInput (entry : DiscreteInputDescription)
  | inputRegister (entry : InputRegisterDescription)
  | fileRecord (entry : FileRecordDescription)
  deriving DecidableEq, Repr

namespace DataPoint

/-- What the values of a point are. -/
abbrev Value : DataPoint → Type
  | .register _ | .inputRegister _ => RegisterValue
  | .coil _ | .discreteInput _ => CoilValue
  | .fileRecord _ => Bytes

/-- The stored value, or the default of the point when nothing was stored. -/
def read (machine : ServerMachineState) : (point : DataPoint) → point.Value
  | .register entry => (machine.store.get entry.name).getD (defaultRegisterValue entry.dataType)
  | .coil entry => (machine.coilStore.get entry.name).getD ⟨false⟩
  | .discreteInput entry => (machine.discreteInputStore.get entry.name).getD ⟨false⟩
  | .inputRegister entry => (machine.inputRegisterStore.get entry.name).getD (defaultRegisterValue entry.dataType)
  | .fileRecord entry => storedRecord machine.fileRecordStore entry

def write (machine : ServerMachineState) : (point : DataPoint) → point.Value → ServerMachineState
  | .register entry, value => { machine with store := machine.store.set entry.name value }
  | .coil entry, value => { machine with coilStore := machine.coilStore.set entry.name value }
  | .discreteInput entry, value =>
    { machine with discreteInputStore := machine.discreteInputStore.set entry.name value }
  | .inputRegister entry, value =>
    { machine with inputRegisterStore := machine.inputRegisterStore.set entry.name value }
  | .fileRecord entry, value =>
    { machine with fileRecordStore := machine.fileRecordStore.set (recordKey entry) value }

/-- Only a holding register can be closed to writes. -/
def writable : DataPoint → Bool
  | .register entry => entry.access == .readWrite
  | _ => true

/-- The text of a value. -/
def text (display : FloatDisplay) : (point : DataPoint) → point.Value → String
  | .register _, value | .inputRegister _, value => RegisterValue.display display value
  | .coil _, value | .discreteInput _, value => CoilValue.display value
  | .fileRecord _, value => formatHex value

/-- The value of a text. -/
def parse (floats : FloatParser) (rawValue : String) : (point : DataPoint) → Outcome ServerHandleError point.Value
  | .register entry => ServerHandle.parsed rawValue (parseRegisterValue floats entry.dataType rawValue)
  | .coil _ => ServerHandle.parsed rawValue (parseCoilValue rawValue)
  | .discreteInput _ => ServerHandle.parsed rawValue (parseCoilValue rawValue)
  | .inputRegister entry => ServerHandle.parsed rawValue (parseRegisterValue floats entry.dataType rawValue)
  | .fileRecord _ => (parseFileRecordValue rawValue).mapErr fun _ => ServerHandleError.invalidValue rawValue

/-- The point is one of a description's. -/
def Of (description : MachineDescription) : DataPoint → Prop
  | .register entry => entry ∈ description.registers
  | .coil entry => entry ∈ description.coils
  | .discreteInput entry => entry ∈ description.discreteInputs
  | .inputRegister entry => entry ∈ description.inputRegisters
  | .fileRecord entry => entry ∈ description.fileRecords

/-- The names that mean a point: its own, or any spelling of a record's two numbers. -/
def IsNamed (pointName : String) : DataPoint → Prop
  | .register entry => entry.name = pointName
  | .coil entry => entry.name = pointName
  | .discreteInput entry => entry.name = pointName
  | .inputRegister entry => entry.name = pointName
  | .fileRecord entry => parseFileRecordName pointName = some (recordKey entry)

/-! ### Reading what was written -/

section Write

variable {machine : ServerMachineState} {description : MachineDescription} {point other : DataPoint}

@[simp] theorem unset_write (value : point.Value) : (point.write machine value).unset = machine.unset := by
  cases point <;> rfl

theorem read_write_self (value : point.Value) : point.read (point.write machine value) = value := by
  cases point with
  | fileRecord entry =>
    change (Store.get (machine.fileRecordStore.set (recordKey entry) value) (recordKey entry)).getD _ = value
    rw [Store.get_set_self]
    rfl
  | register | coil | discreteInput | inputRegister => simp only [read, write, Store.get_set_self, Option.getD_some]

/-- An entry is not overwritten under the key of another. -/
theorem get_set_of_entry_ne {ρ κ ν : Type} [DecidableEq κ] {key : ρ → κ} {entries : List ρ}
    (hkeys : (entries.map key).Nodup) {entry entry' : ρ} (hentry : entry ∈ entries) (hentry' : entry' ∈ entries)
    (hne : entry' ≠ entry) (store : Store κ ν) (value : ν) :
    (store.set (key entry) value).get (key entry') = store.get (key entry') := by
  apply Store.get_set_of_ne
  intro hkey
  exact hne (List.inj_on_of_nodup_map hkeys hentry' hentry hkey)

/-- Two points of one kind have different names, so one is not written with the other. -/
theorem read_write_of_ne (hflat : FlatDescription description) (hpoint : point.Of description)
    (hother : other.Of description) (hne : other ≠ point) (value : point.Value) :
    other.read (point.write machine value) = other.read machine := by
  cases point with
  | register entry =>
    cases other with
    | register entry' =>
      have hentry : entry' ≠ entry := fun heq => hne (congrArg register heq)
      simp only [read, write, get_set_of_entry_ne hflat.registers.names hpoint hother hentry]
    | _ => rfl
  | coil entry =>
    cases other with
    | coil entry' =>
      have hentry : entry' ≠ entry := fun heq => hne (congrArg coil heq)
      simp only [read, write, get_set_of_entry_ne hflat.coils.names hpoint hother hentry]
    | _ => rfl
  | discreteInput entry =>
    cases other with
    | discreteInput entry' =>
      have hentry : entry' ≠ entry := fun heq => hne (congrArg discreteInput heq)
      simp only [read, write, get_set_of_entry_ne hflat.discreteInputs.names hpoint hother hentry]
    | _ => rfl
  | inputRegister entry =>
    cases other with
    | inputRegister entry' =>
      have hentry : entry' ≠ entry := fun heq => hne (congrArg inputRegister heq)
      simp only [read, write, get_set_of_entry_ne hflat.inputRegisters.names hpoint hother hentry]
    | _ => rfl
  | fileRecord entry =>
    cases other with
    | fileRecord entry' =>
      have hentry : entry' ≠ entry := fun heq => hne (congrArg fileRecord heq)
      change (Store.get (machine.fileRecordStore.set (recordKey entry) value) (recordKey entry')).getD _ = _
      rw [get_set_of_entry_ne hflat.fileRecords hpoint hother hentry]
      rfl
    | _ => rfl

end Write

/-! ### Names -/

/-- The point of a name; the sections are tried in this order. -/
def resolve (machine : ServerMachineState) (pointName : String) : Option DataPoint :=
  ((machine.registers.find? fun entry => entry.name == pointName).map register).or <|
  ((machine.coils.find? fun entry => entry.name == pointName).map coil).or <|
  ((machine.discreteInputs.find? fun entry => entry.name == pointName).map discreteInput).or <|
  ((machine.inputRegisters.find? fun entry => entry.name == pointName).map inputRegister).or <|
  (parseFileRecordName pointName).bind fun key => (findFileRecord machine.fileRecords key.1 key.2).map fileRecord

theorem eq_of_find?_name {ρ κ : Type} [BEq κ] [LawfulBEq κ] {name : ρ → κ} {entries : List ρ} {entry : ρ}
    {pointName : κ} (h : (entries.find? fun other => name other == pointName) = some entry) : name entry = pointName := by
  have hfound := List.find?_some h
  exact eq_of_beq hfound

/-- A name means only what it is resolved to. -/
theorem resolve_eq_some {description : MachineDescription} {pointName : String} {point : DataPoint}
    (h : resolve (.fresh description) pointName = some point) : point.Of description ∧ point.IsNamed pointName := by
  simp only [resolve, Option.or_eq_some_iff, Option.map_eq_some_iff, Option.bind_eq_some_iff] at h
  rcases h with ⟨entry, hfind, rfl⟩ | ⟨-, h⟩
  · exact ⟨List.mem_of_find?_eq_some hfind, eq_of_find?_name hfind⟩
  rcases h with ⟨entry, hfind, rfl⟩ | ⟨-, h⟩
  · exact ⟨List.mem_of_find?_eq_some hfind, eq_of_find?_name hfind⟩
  rcases h with ⟨entry, hfind, rfl⟩ | ⟨-, h⟩
  · exact ⟨List.mem_of_find?_eq_some hfind, eq_of_find?_name hfind⟩
  rcases h with ⟨entry, hfind, rfl⟩ | ⟨-, key, hkey, entry, hfind, rfl⟩
  · exact ⟨List.mem_of_find?_eq_some hfind, eq_of_find?_name hfind⟩
  · obtain ⟨hmem, hfile, hrecord⟩ := findFileRecord_eq_some hfind
    exact ⟨hmem, hkey.trans (congrArg some (Prod.ext hfile.symm hrecord.symm))⟩

/-- The names of all points that have one. -/
def pointNames (description : MachineDescription) : List String :=
  description.registers.map RegisterDescription.name ++ (description.coils.map CoilDescription.name ++
    (description.discreteInputs.map DiscreteInputDescription.name ++
      description.inputRegisters.map InputRegisterDescription.name))

/-- The points of a description are told apart by words that mean no file record. -/
structure DistinctPoints (description : MachineDescription) : Prop where
  flat : FlatDescription description
  names : (pointNames description).Nodup
  plain : ∀ name ∈ pointNames description, ∀ c ∈ name.toList, isWhitespace c = false
  notRecord : ∀ name ∈ pointNames description, parseFileRecordName name = none

section Resolve

variable {ρ κ : Type} [BEq κ] [LawfulBEq κ] {name : ρ → κ} {entries : List ρ}

theorem find?_name_eq_none {pointName : κ} (h : pointName ∉ entries.map name) :
    (entries.find? fun entry => name entry == pointName) = none := by
  rw [List.find?_eq_none]
  intro entry hentry heq
  exact h (List.mem_map.mpr ⟨entry, hentry, eq_of_beq heq⟩)

theorem find?_name_eq_some (hnodup : (entries.map name).Nodup) {entry : ρ} (hentry : entry ∈ entries) :
    (entries.find? fun other => name other == name entry) = some entry := by
  have hsome : (entries.find? fun other => name other == name entry).isSome := by
    rw [List.find?_isSome]
    exact ⟨entry, hentry, beq_self_eq_true _⟩
  obtain ⟨found, hfound⟩ := Option.isSome_iff_exists.mp hsome
  have hname : name found = name entry := eq_of_find?_name hfound
  rw [hfound, List.inj_on_of_nodup_map hnodup (List.mem_of_find?_eq_some hfound) hentry hname]

variable {pointName : String}

/-- Every point is found under every name that means it, a file record under those that are
no other point's. -/
theorem resolve_of_named {description : MachineDescription} (hflat : FlatDescription description)
    (hnames : (pointNames description).Nodup) {point : DataPoint} (hpoint : point.Of description)
    (hnamed : point.IsNamed pointName)
    (hfree : ∀ entry, point = .fileRecord entry → pointName ∉ pointNames description) :
    resolve (.fresh description) pointName = some point := by
  rw [pointNames, List.nodup_append', List.nodup_append', List.nodup_append'] at hnames
  obtain ⟨-, ⟨-, ⟨-, -, hinputs⟩, hcoils⟩, hregisters⟩ := hnames
  rw [List.disjoint_append_right, List.disjoint_append_right] at hregisters
  rw [List.disjoint_append_right] at hcoils
  simp only [resolve, ServerMachineState.fresh]
  cases point with
  | register entry =>
    obtain rfl := hnamed
    rw [find?_name_eq_some hflat.registers.names hpoint]
    rfl
  | coil entry =>
    obtain rfl := hnamed
    have hmem : entry.name ∈ description.coils.map CoilDescription.name := List.mem_map_of_mem hpoint
    rw [find?_name_eq_none (hregisters.1.symm hmem), find?_name_eq_some hflat.coils.names hpoint]
    rfl
  | discreteInput entry =>
    obtain rfl := hnamed
    have hmem : entry.name ∈ description.discreteInputs.map DiscreteInputDescription.name := List.mem_map_of_mem hpoint
    rw [find?_name_eq_none (hregisters.2.1.symm hmem), find?_name_eq_none (hcoils.1.symm hmem),
      find?_name_eq_some hflat.discreteInputs.names hpoint]
    rfl
  | inputRegister entry =>
    obtain rfl := hnamed
    have hmem : entry.name ∈ description.inputRegisters.map InputRegisterDescription.name := List.mem_map_of_mem hpoint
    rw [find?_name_eq_none (hregisters.2.2.symm hmem), find?_name_eq_none (hcoils.2.symm hmem),
      find?_name_eq_none (hinputs.symm hmem), find?_name_eq_some hflat.inputRegisters.names hpoint]
    rfl
  | fileRecord entry =>
    have hno := hfree entry rfl
    simp only [pointNames, List.mem_append, not_or] at hno
    obtain ⟨hno₁, hno₂, hno₃, hno₄⟩ := hno
    rw [find?_name_eq_none hno₁, find?_name_eq_none hno₂, find?_name_eq_none hno₃, find?_name_eq_none hno₄,
      show parseFileRecordName pointName = some (recordKey entry) from hnamed]
    have hfind : findFileRecord description.fileRecords (recordKey entry).1 (recordKey entry).2 = some entry :=
      hflat.findFileRecord_eq hpoint
    simp only [Option.map_none, Option.none_or, Option.bind_some, hfind, Option.map_some]

theorem DistinctPoints.resolve_eq {description : MachineDescription} (h : DistinctPoints description)
    {point : DataPoint} (hpoint : point.Of description) (hnamed : point.IsNamed pointName) :
    resolve (.fresh description) pointName = some point := by
  apply resolve_of_named h.flat h.names hpoint hnamed
  rintro entry rfl hmem
  have hnone := h.notRecord pointName hmem
  rw [show parseFileRecordName pointName = some (recordKey entry) from hnamed] at hnone
  cases hnone

end Resolve

end DataPoint

/-! ### Getting and setting -/

namespace ServerHandle

variable {handle : ServerHandle} {machineName pointName rawValue : String}

/-- Getting by name is reading the point of the name. -/
theorem get_eq (handle : ServerHandle) (display : FloatDisplay) (machineName pointName : String) :
    handle.get display machineName pointName = (do
      let machine ← handle.machine machineName
      match DataPoint.resolve machine pointName with
      | none => .err (.unknownPoint pointName)
      | some point => .ok (point.text display (point.read machine))) := by
  unfold get getRegister getCoil getDiscreteInput getInputRegister getFileRecord DataPoint.resolve
  cases handle.machine machineName with
  | err e => rfl
  | panic => rfl
  | ok machine =>
    simp only [ok_bind, ← List.isSome_find?]
    cases hregister : machine.registers.find? fun entry => entry.name == pointName with
    | some entry =>
      obtain rfl := DataPoint.eq_of_find?_name hregister
      rfl
    | none =>
    cases hcoil : machine.coils.find? fun entry => entry.name == pointName with
    | some entry =>
      obtain rfl := DataPoint.eq_of_find?_name hcoil
      rfl
    | none =>
    cases hinput : machine.discreteInputs.find? fun entry => entry.name == pointName with
    | some entry =>
      obtain rfl := DataPoint.eq_of_find?_name hinput
      rfl
    | none =>
    cases hinputRegister : machine.inputRegisters.find? fun entry => entry.name == pointName with
    | some entry =>
      obtain rfl := DataPoint.eq_of_find?_name hinputRegister
      rfl
    | none =>
    cases hkey : parseFileRecordName pointName with
    | none => rfl
    | some key =>
      cases hfind : findFileRecord machine.fileRecords key.1 key.2 with
      | none => simp [hfind, Option.filter_some]
      | some entry =>
        obtain ⟨-, hfile, hrecord⟩ := findFileRecord_eq_some hfind
        simp [hfind, Option.filter_some, DataPoint.text, DataPoint.read, storedRecord, hfile, hrecord, Nat.mul_comm]

/-- Setting by name is writing the point of the name, if it is open to writes. -/
theorem set_eq (handle : ServerHandle) (floats : FloatParser) (machineName pointName rawValue : String) :
    handle.set floats machineName pointName rawValue = (do
      let machine ← handle.machine machineName
      match DataPoint.resolve machine pointName with
      | none => .err (.unknownPoint pointName)
      | some point => do
        let value ← point.parse floats rawValue
        if point.writable then .ok (Store.set handle machineName (point.write machine value))
        else .err (.readOnly pointName)) := by
  unfold set setRegister setCoil setDiscreteInput setInputRegister setFileRecord DataPoint.resolve
  cases hmachine : handle.machine machineName with
  | err e => rfl
  | panic => rfl
  | ok machine =>
    simp only [ok_bind, ← List.isSome_find?]
    cases hregister : machine.registers.find? fun entry => entry.name == pointName with
    | some entry =>
      obtain rfl := DataPoint.eq_of_find?_name hregister
      simp only [DataPoint.parse, DataPoint.writable, Option.map_some, Option.some_or]
      cases hparse : parseRegisterValue floats entry.dataType rawValue with
      | none => rfl
      | some value =>
        have htype := dataType_of_parseRegisterValue hparse
        by_cases haccess : entry.access = .readWrite <;>
          simp [parsed, haccess, htype, DataPoint.write]
    | none =>
    cases hcoil : machine.coils.find? fun entry => entry.name == pointName with
    | some entry =>
      obtain rfl := DataPoint.eq_of_find?_name hcoil
      rfl
    | none =>
    cases hinput : machine.discreteInputs.find? fun entry => entry.name == pointName with
    | some entry =>
      obtain rfl := DataPoint.eq_of_find?_name hinput
      rfl
    | none =>
    cases hinputRegister : machine.inputRegisters.find? fun entry => entry.name == pointName with
    | some entry =>
      obtain rfl := DataPoint.eq_of_find?_name hinputRegister
      simp only [DataPoint.parse, Option.map_none, Option.map_some, Option.none_or, Option.some_or]
      cases hparse : parseRegisterValue floats entry.dataType rawValue with
      | none => rfl
      | some value =>
        have htype := dataType_of_parseRegisterValue hparse
        simp [parsed, htype, DataPoint.write, DataPoint.writable]
    | none =>
    cases hkey : parseFileRecordName pointName with
    | none => rfl
    | some key =>
      cases hfind : findFileRecord machine.fileRecords key.1 key.2 with
      | none => simp [hfind, Option.filter_some]
      | some entry =>
        obtain ⟨-, hfile, hrecord⟩ := findFileRecord_eq_some hfind
        simp [hfind, Option.filter_some, DataPoint.parse, DataPoint.write, hfile, hrecord, recordKey, DataPoint.writable]

end ServerHandle

/-- A line that gets a name is answered with the value of the point that the name resolves to. -/
theorem handleLine_get {floats : FloatParser} {text : SocketText} {handle : ServerHandle} {line machineName pointName : String}
    {machine : ServerMachineState}
    (hparse : DataCommand.parse text.debugStr (trimEnd line.toList) = .ok (.get machineName pointName))
    (hget : Store.get handle machineName = some machine) :
    handleLine floats text handle line = (handle, .ok (match DataPoint.resolve machine pointName with
      | some point =>
        "OK GET " ++ machineName ++ " " ++ pointName ++ " " ++ point.text text.floats (point.read machine)
      | none => "ERROR GET " ++ machineName ++ " " ++ pointName ++ ": " ++
        (ServerHandleError.unknownPoint pointName).display text.debugStr)) := by
  rw [handleLine, hparse]
  dsimp only [applyCommand]
  rw [ServerHandle.get_eq, ServerHandle.machine_eq_ok.mpr hget, ok_bind]
  cases DataPoint.resolve machine pointName <;> rfl

end InfusedModbus.Server
