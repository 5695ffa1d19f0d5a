import InfusedModbus.Protocol.DeviceDescription
import Mathlib.Data.List.Forall2

/-! From the tables of a TOML source to a description. Every entry gets its address from its
section's base and its own offset; machine names, units and file numbers are checked on the
way. What is accepted is the description of the tables entry by entry. How TOML is read and
which unit codes there are is left to parameters. -/

namespace InfusedModbus.Protocol

/-! ### The tables of a source -/

structure RawRegisterEntry where
  name : String
  offset : UInt16
  dataType : DataType
  access : AccessRight
  unit : Option String := none
  deriving DecidableEq, Repr

structure RawRegisterSection where
  baseAddress : UInt16 := 0
  memLayout : MemLayout := .abcd
  entries : List RawRegisterEntry := []
  deriving DecidableEq, Repr

structure RawInputRegisterEntry where
  name : String
  offset : UInt16
  dataType : DataType
  unit : Option String := none
  deriving DecidableEq, Repr

structure RawInputRegisterSection where
  baseAddress : UInt16 := 0
  memLayout : MemLayout := .abcd
  entries : List RawInputRegisterEntry := []
  deriving DecidableEq, Repr

structure RawBitEntry where
  name : String
  offset : UInt16
  deriving DecidableEq, Repr

structure RawBitSection where
  baseAddress : UInt16 := 0
  entries : List RawBitEntry := []
  deriving DecidableEq, Repr

structure RawFileRecordEntry where
  fileNumber : UInt16
  recordNumber : UInt16
  recordLength : UInt16
  deriving DecidableEq, Repr

/-- A machine's tables; a section that is absent has no entries. -/
structure RawMachine where
  name : String
  unitId : UInt8
  registers : RawRegisterSection := {}
  coils : RawBitSection := {}
  discreteInputs : RawBitSection := {}
  inputRegisters : RawInputRegisterSection := {}
  fileRecords : List RawFileRecordEntry := []
  serverId : Option String := none
  deriving DecidableEq, Repr

structure RawDeviceDescription where
  machines : List RawMachine := []
  deriving DecidableEq, Repr

/-! ### Parsing -/

inductive DeviceDescriptionError (τ : Type) where
  | toml (error : τ)
  | addressOverflow (machine name : String) (baseAddress offset : UInt16)
  | invalidMachineName (name : String)
  | duplicateMachineName (name : String)
  | reservedFileNumber (machine : String) (fileNumber : UInt16)
  | invalidUnitCode (machine name unit : String)
  deriving DecidableEq, Repr

/-- The `Display` text of an error. -/
def DeviceDescriptionError.display {τ : Type} (displayToml : τ → String) : DeviceDescriptionError τ → String
  | .toml error => displayToml error
  | .addressOverflow machine name baseAddress offset =>
    "machine '" ++ machine ++ "': '" ++ name ++ "' address overflows u16: base_address " ++ toString baseAddress ++
      " + offset " ++ toString offset
  | .invalidMachineName name =>
    "invalid machine name '" ++ name ++
      "': must be non-empty and contain only ASCII alphanumeric characters, '_', or '-'"
  | .duplicateMachineName name => "duplicate machine name '" ++ name ++ "'"
  | .reservedFileNumber machine fileNumber =>
    "machine '" ++ machine ++ "': file_number " ++ toString fileNumber ++
      " is reserved for the server's own compressed-description transfer and cannot be used in [[file-records]]"
  | .invalidUnitCode machine name unit =>
    "machine '" ++ machine ++ "': '" ++ name ++ "' has unit '" ++ unit ++
      "', which is not a currently-active UN/ECE Recommendation 20 common code"

section Parse

variable {τ : Type}

/-- A character that a machine's name may have. -/
def isNameCharacter (c : Char) : Bool :=
  ('a' ≤ c && c ≤ 'z') || ('A' ≤ c && c ≤ 'Z') || ('0' ≤ c && c ≤ '9') || c == '_' || c == '-'

def isValidMachineName (name : String) : Bool :=
  !name.toList.isEmpty && name.toList.all isNameCharacter

def validateMachineName (name : String) : Except (DeviceDescriptionError τ) Unit :=
  if isValidMachineName name then .ok () else .error (.invalidMachineName name)

/-- `checked_add` on addresses. -/
def checkedAdd (baseAddress offset : UInt16) : Option UInt16 :=
  if baseAddress.toNat + offset.toNat < 65536 then some (baseAddress + offset) else none

/-- The entries of a section with their addresses. -/
def resolveAddresses {ε : Type} (machineName : String) (baseAddress : UInt16) (entries : List ε)
    (offsetOf : ε → UInt16) (nameOf : ε → String) : Except (DeviceDescriptionError τ) (List (ε × UInt16)) :=
  entries.mapM fun entry =>
    match checkedAdd baseAddress (offsetOf entry) with
    | some address => .ok (entry, address)
    | none => .error (.addressOverflow machineName (nameOf entry) baseAddress (offsetOf entry))

def validateUnitCode (isValidUnitCode : String → Bool) (machineName name : String) (unit : Option String) :
    Except (DeviceDescriptionError τ) Unit :=
  match unit with
  | some code => if isValidUnitCode code then .ok () else .error (.invalidUnitCode machineName name code)
  | none => .ok ()

def resolveMachine (isValidUnitCode : String → Bool) (raw : RawMachine) :
    Except (DeviceDescriptionError τ) MachineDescription := do
  let registers ← resolveAddresses raw.name raw.registers.baseAddress raw.registers.entries
    RawRegisterEntry.offset RawRegisterEntry.name
  registers.forM fun register => validateUnitCode isValidUnitCode raw.name register.1.name register.1.unit
  let coils ← resolveAddresses raw.name raw.coils.baseAddress raw.coils.entries RawBitEntry.offset RawBitEntry.name
  let inputRegisters ← resolveAddresses raw.name raw.inputRegisters.baseAddress raw.inputRegisters.entries
    RawInputRegisterEntry.offset RawInputRegisterEntry.name
  inputRegisters.forM fun register => validateUnitCode isValidUnitCode raw.name register.1.name register.1.unit
  let discreteInputs ← resolveAddresses raw.name raw.discreteInputs.baseAddress raw.discreteInputs.entries
    RawBitEntry.offset RawBitEntry.name
  raw.fileRecords.forM fun entry =>
    if entry.fileNumber = reservedDeviceDescriptionFileNumber then
      .error (.reservedFileNumber raw.name entry.fileNumber)
    else .ok ()
  .ok {
    name := raw.name
    unitId := raw.unitId
    registers := registers.map fun p => ⟨p.1.name, p.2, p.1.dataType, p.1.access, p.1.unit⟩
    coils := coils.map fun p => ⟨p.1.name, p.2⟩
    discreteInputs := discreteInputs.map fun p => ⟨p.1.name, p.2⟩
    inputRegisters := inputRegisters.map fun p => ⟨p.1.name, p.2, p.1.dataType, p.1.unit⟩
    fileRecords := raw.fileRecords.map fun entry => ⟨entry.fileNumber, entry.recordNumber, entry.recordLength⟩
    memLayout := raw.registers.memLayout
    inputRegisterMemLayout := raw.inputRegisters.memLayout
    serverId := raw.serverId }

/-- The loop over the machines, next to the names it has seen. -/
def resolveMachines (isValidUnitCode : String → Bool) (seenNames : List String) :
    List RawMachine → Except (DeviceDescriptionError τ) (List MachineDescription)
  | [] => .ok []
  | raw :: machines => do
    validateMachineName raw.name
    if raw.name ∈ seenNames then .error (.duplicateMachineName raw.name)
    else do
      let machine ← resolveMachine isValidUnitCode raw
      let rest ← resolveMachines isValidUnitCode (raw.name :: seenNames) machines
      .ok (machine :: rest)

/-! ### What is accepted -/

/-- An entry's address as a number. -/
def addressOf (baseAddress offset : UInt16) : ℕ := baseAddress.toNat + offset.toNat

/-- A machine whose addresses exist, whose units are known and whose records are its own. -/
structure RawMachine.Resolvable (isValidUnitCode : String → Bool) (raw : RawMachine) : Prop where
  registers : ∀ entry ∈ raw.registers.entries, addressOf raw.registers.baseAddress entry.offset < 65536
  registerUnits : ∀ entry ∈ raw.registers.entries, ∀ code ∈ entry.unit, isValidUnitCode code
  coils : ∀ entry ∈ raw.coils.entries, addressOf raw.coils.baseAddress entry.offset < 65536
  inputRegisters : ∀ entry ∈ raw.inputRegisters.entries,
    addressOf raw.inputRegisters.baseAddress entry.offset < 65536
  inputRegisterUnits : ∀ entry ∈ raw.inputRegisters.entries, ∀ code ∈ entry.unit, isValidUnitCode code
  discreteInputs : ∀ entry ∈ raw.discreteInputs.entries,
    addressOf raw.discreteInputs.baseAddress entry.offset < 65536
  fileRecords : ∀ entry ∈ raw.fileRecords, entry.fileNumber ≠ reservedDeviceDescriptionFileNumber

/-- The description of a machine's tables, entry by entry. -/
def RawMachine.described (raw : RawMachine) : MachineDescription where
  name := raw.name
  unitId := raw.unitId
  registers := raw.registers.entries.map fun entry =>
    ⟨entry.name, raw.registers.baseAddress + entry.offset, entry.dataType, entry.access, entry.unit⟩
  coils := raw.coils.entries.map fun entry => ⟨entry.name, raw.coils.baseAddress + entry.offset⟩
  discreteInputs := raw.discreteInputs.entries.map fun entry =>
    ⟨entry.name, raw.discreteInputs.baseAddress + entry.offset⟩
  inputRegisters := raw.inputRegisters.entries.map fun entry =>
    ⟨entry.name, raw.inputRegisters.baseAddress + entry.offset, entry.dataType, entry.unit⟩
  fileRecords := raw.fileRecords.map fun entry => ⟨entry.fileNumber, entry.recordNumber, entry.recordLength⟩
  memLayout := raw.registers.memLayout
  inputRegisterMemLayout := raw.inputRegisters.memLayout
  serverId := raw.serverId

theorem except_bind_eq_ok {ε α β : Type} {x : Except ε α} {f : α → Except ε β} {b : β} :
    (x >>= f) = .ok b ↔ ∃ a, x = .ok a ∧ f a = .ok b := by
  cases x with
  | error e => exact ⟨fun h => (nomatch h), fun ⟨_, h, _⟩ => (nomatch h)⟩
  | ok a => exact ⟨fun h => ⟨a, rfl, h⟩, fun ⟨_, h, hf⟩ => by cases h; exact hf⟩

/-- A loop that maps each good element and stops at a bad one. -/
theorem mapM_eq_ok {ε α β : Type} {f : α → Except ε β} {good : α → Prop} {g : α → β}
    (hf : ∀ a b, f a = .ok b ↔ good a ∧ b = g a) {as : List α} {bs : List β} :
    as.mapM f = .ok bs ↔ (∀ a ∈ as, good a) ∧ bs = as.map g := by
  induction as generalizing bs with
  | nil =>
    simp only [List.mapM_nil, List.map_nil]
    constructor
    · intro h
      cases h
      exact ⟨nofun, rfl⟩
    · rintro ⟨-, rfl⟩
      rfl
  | cons a as ih =>
    rw [List.mapM_cons, except_bind_eq_ok, List.forall_mem_cons, List.map_cons]
    constructor
    · rintro ⟨b, hb, h⟩
      obtain ⟨rest, hrest, h⟩ := except_bind_eq_ok.mp h
      cases h
      obtain ⟨hgood, rfl⟩ := (hf a b).mp hb
      obtain ⟨hgoods, rfl⟩ := ih.mp hrest
      exact ⟨⟨hgood, hgoods⟩, rfl⟩
    · rintro ⟨⟨hgood, hgoods⟩, rfl⟩
      refine ⟨g a, (hf a _).mpr ⟨hgood, rfl⟩, except_bind_eq_ok.mpr ⟨as.map g, ih.mpr ⟨hgoods, rfl⟩, rfl⟩⟩

/-- A loop that checks every element. -/
theorem forM_eq_ok {ε α : Type} {f : α → Except ε Unit} {good : α → Prop} (hf : ∀ a, f a = .ok () ↔ good a)
    {as : List α} : as.forM f = .ok () ↔ ∀ a ∈ as, good a := by
  induction as with
  | nil => exact ⟨fun _ => nofun, fun _ => rfl⟩
  | cons a as ih =>
    change (f a >>= fun _ => as.forM f) = .ok () ↔ _
    rw [except_bind_eq_ok, List.forall_mem_cons, ← hf a, ← ih]
    constructor
    · rintro ⟨⟨⟩, hhead, htail⟩
      exact ⟨hhead, htail⟩
    · rintro ⟨hhead, htail⟩
      exact ⟨(), hhead, htail⟩

theorem resolveAddresses_eq_ok {ε : Type} {machineName : String} {baseAddress : UInt16} {entries : List ε}
    {offsetOf : ε → UInt16} {nameOf : ε → String} {resolved : List (ε × UInt16)} :
    (resolveAddresses machineName baseAddress entries offsetOf nameOf :
        Except (DeviceDescriptionError τ) (List (ε × UInt16))) = .ok resolved ↔
      (∀ entry ∈ entries, addressOf baseAddress (offsetOf entry) < 65536) ∧
        resolved = entries.map fun entry => (entry, baseAddress + offsetOf entry) := by
  apply mapM_eq_ok
  intro entry p
  rw [checkedAdd, addressOf]
  by_cases hfits : baseAddress.toNat + (offsetOf entry).toNat < 65536
  · simp only [hfits, if_true, Except.ok.injEq, true_and]
    exact eq_comm
  · simp only [hfits, if_false, reduceCtorEq, false_and]

theorem validateUnitCode_eq_ok {isValidUnitCode : String → Bool} {machineName name : String} {unit : Option String} :
    (validateUnitCode isValidUnitCode machineName name unit : Except (DeviceDescriptionError τ) Unit) = .ok () ↔
      ∀ code ∈ unit, isValidUnitCode code := by
  unfold validateUnitCode
  cases unit with
  | none => simp
  | some code => by_cases h : isValidUnitCode code <;> simp [h]

/-- A machine is accepted exactly when it can be resolved, as its description. -/
theorem resolveMachine_eq_ok {isValidUnitCode : String → Bool} {raw : RawMachine} {machine : MachineDescription} :
    (resolveMachine isValidUnitCode raw : Except (DeviceDescriptionError τ) MachineDescription) = .ok machine ↔
      raw.Resolvable isValidUnitCode ∧ machine = raw.described := by
  have hunits : ∀ {ε : Type} (nameOf : ε → String) (unitOf : ε → Option String) (resolved : List (ε × UInt16)),
      (resolved.forM fun p => validateUnitCode isValidUnitCode raw.name (nameOf p.1) (unitOf p.1) :
        Except (DeviceDescriptionError τ) Unit) = .ok () ↔
        ∀ p ∈ resolved, ∀ code ∈ unitOf p.1, isValidUnitCode code := by
    intro ε nameOf unitOf resolved
    exact forM_eq_ok fun p => validateUnitCode_eq_ok
  have hrecords : (raw.fileRecords.forM fun entry =>
      if entry.fileNumber = reservedDeviceDescriptionFileNumber then
        .error (.reservedFileNumber raw.name entry.fileNumber)
      else .ok () : Except (DeviceDescriptionError τ) Unit) = .ok () ↔
        ∀ entry ∈ raw.fileRecords, entry.fileNumber ≠ reservedDeviceDescriptionFileNumber := by
    apply forM_eq_ok
    intro entry
    split <;> simp [*]
  unfold resolveMachine
  constructor
  · intro h
    obtain ⟨registers, hregisters, h⟩ := except_bind_eq_ok.mp h
    obtain ⟨⟨⟩, hregisterUnits, h⟩ := except_bind_eq_ok.mp h
    obtain ⟨coils, hcoils, h⟩ := except_bind_eq_ok.mp h
    obtain ⟨inputRegisters, hinputRegisters, h⟩ := except_bind_eq_ok.mp h
    obtain ⟨⟨⟩, hinputRegisterUnits, h⟩ := except_bind_eq_ok.mp h
    obtain ⟨discreteInputs, hdiscreteInputs, h⟩ := except_bind_eq_ok.mp h
    obtain ⟨⟨⟩, hfileRecords, h⟩ := except_bind_eq_ok.mp h
    obtain ⟨registersFit, rfl⟩ := resolveAddresses_eq_ok.mp hregisters
    obtain ⟨coilsFit, rfl⟩ := resolveAddresses_eq_ok.mp hcoils
    obtain ⟨inputRegistersFit, rfl⟩ := resolveAddresses_eq_ok.mp hinputRegisters
    obtain ⟨discreteInputsFit, rfl⟩ := resolveAddresses_eq_ok.mp hdiscreteInputs
    rw [hunits, List.forall_mem_map] at hregisterUnits hinputRegisterUnits
    rw [hrecords] at hfileRecords
    refine ⟨⟨registersFit, hregisterUnits, coilsFit, inputRegistersFit, hinputRegisterUnits, discreteInputsFit,
      hfileRecords⟩, ?_⟩
    cases h
    simp only [RawMachine.described, List.map_map]
    rfl
  · rintro ⟨h, rfl⟩
    refine except_bind_eq_ok.mpr ⟨_, resolveAddresses_eq_ok.mpr ⟨h.registers, rfl⟩, ?_⟩
    refine except_bind_eq_ok.mpr ⟨(), (hunits _ _ _).mpr (List.forall_mem_map.mpr h.registerUnits), ?_⟩
    refine except_bind_eq_ok.mpr ⟨_, resolveAddresses_eq_ok.mpr ⟨h.coils, rfl⟩, ?_⟩
    refine except_bind_eq_ok.mpr ⟨_, resolveAddresses_eq_ok.mpr ⟨h.inputRegisters, rfl⟩, ?_⟩
    refine except_bind_eq_ok.mpr ⟨(), (hunits _ _ _).mpr (List.forall_mem_map.mpr h.inputRegisterUnits), ?_⟩
    refine except_bind_eq_ok.mpr ⟨_, resolveAddresses_eq_ok.mpr ⟨h.discreteInputs, rfl⟩, ?_⟩
    refine except_bind_eq_ok.mpr ⟨(), hrecords.mpr h.fileRecords, ?_⟩
    simp only [RawMachine.described, List.map_map]
    rfl

/-- The tables are accepted exactly when every machine is and no name comes twice. -/
theorem resolveMachines_eq_ok {isValidUnitCode : String → Bool} {seenNames : List String} {raws : List RawMachine}
    {machines : List MachineDescription} :
    (resolveMachines isValidUnitCode seenNames raws : Except (DeviceDescriptionError τ) (List MachineDescription)) =
        .ok machines ↔
      (∀ raw ∈ raws, isValidMachineName raw.name ∧ raw.name ∉ seenNames ∧ raw.Resolvable isValidUnitCode) ∧
        (raws.map RawMachine.name).Nodup ∧ machines = raws.map RawMachine.described := by
  induction raws generalizing seenNames machines with
  | nil =>
    rw [resolveMachines]
    constructor
    · intro h
      cases h
      exact ⟨nofun, List.nodup_nil, rfl⟩
    · rintro ⟨-, -, rfl⟩
      rfl
  | cons raw raws ih =>
    rw [resolveMachines, except_bind_eq_ok, List.forall_mem_cons, List.map_cons, List.map_cons, List.nodup_cons]
    constructor
    · rintro ⟨⟨⟩, hname, h⟩
      have hvalid : isValidMachineName raw.name := by
        rw [validateMachineName] at hname
        split at hname
        · assumption
        · cases hname
      split at h
      · cases h
      next hseen =>
      obtain ⟨machine, hmachine, h⟩ := except_bind_eq_ok.mp h
      obtain ⟨rest, hrest, h⟩ := except_bind_eq_ok.mp h
      cases h
      obtain ⟨hresolvable, rfl⟩ := resolveMachine_eq_ok.mp hmachine
      obtain ⟨hraws, hnodup, rfl⟩ := ih.mp hrest
      refine ⟨⟨⟨hvalid, hseen, hresolvable⟩, ?_⟩, ⟨?_, hnodup⟩, rfl⟩
      · intro other hother
        obtain ⟨hother₁, hother₂, hother₃⟩ := hraws other hother
        exact ⟨hother₁, fun hmem => hother₂ (List.mem_cons_of_mem _ hmem), hother₃⟩
      · intro hmem
        obtain ⟨other, hother, heq⟩ := List.mem_map.mp hmem
        exact (hraws other hother).2.1 (heq ▸ List.mem_cons_self)
    · rintro ⟨⟨⟨hvalid, hseen, hresolvable⟩, hraws⟩, ⟨hfresh, hnodup⟩, rfl⟩
      refine ⟨(), if_pos hvalid, ?_⟩
      rw [if_neg hseen]
      refine except_bind_eq_ok.mpr ⟨_, resolveMachine_eq_ok.mpr ⟨hresolvable, rfl⟩, ?_⟩
      refine except_bind_eq_ok.mpr ⟨_, ih.mpr ⟨?_, hnodup, rfl⟩, rfl⟩
      intro other hother
      obtain ⟨hother₁, hother₂, hother₃⟩ := hraws other hother
      refine ⟨hother₁, ?_, hother₃⟩
      intro hmem
      rcases List.mem_cons.mp hmem with heq | hmem
      · exact hfresh (heq ▸ List.mem_map_of_mem hother)
      · exact hother₂ hmem

theorem names_nodup_of_resolveMachines {isValidUnitCode : String → Bool} {raws : List RawMachine}
    {machines : List MachineDescription}
    (h : (resolveMachines isValidUnitCode [] raws : Except (DeviceDescriptionError τ) (List MachineDescription)) =
      .ok machines) : (machines.map MachineDescription.name).Nodup := by
  obtain ⟨-, hnodup, rfl⟩ := resolveMachines_eq_ok.mp h
  rw [List.map_map]
  exact hnodup

/-- The description of a source. -/
def DeviceDescription.parse (fromToml : String → Except τ RawDeviceDescription) (isValidUnitCode : String → Bool)
    (tomlSource : String) : Except (DeviceDescriptionError τ) DeviceDescription :=
  match fromToml tomlSource with
  | .error e => .error (.toml e)
  | .ok raw =>
    match h : resolveMachines isValidUnitCode [] raw.machines with
    | .error e => .error e
    | .ok machines => .ok ⟨machines, names_nodup_of_resolveMachines h⟩

/-- An accepted description is that of its tables, machine by machine. -/
theorem DeviceDescription.parse_eq_ok {fromToml : String → Except τ RawDeviceDescription}
    {isValidUnitCode : String → Bool} {tomlSource : String} {description : DeviceDescription}
    (h : DeviceDescription.parse fromToml isValidUnitCode tomlSource = .ok description) :
    ∃ raw, fromToml tomlSource = .ok raw ∧ description.machines = raw.machines.map RawMachine.described ∧
      ∀ machine ∈ raw.machines, isValidMachineName machine.name ∧ machine.Resolvable isValidUnitCode := by
  unfold DeviceDescription.parse at h
  split at h
  · cases h
  next raw hraw =>
  split at h
  · cases h
  next machines hmachines =>
  cases h
  obtain ⟨hall, -, hmap⟩ := resolveMachines_eq_ok.mp hmachines
  exact ⟨raw, hraw, hmap, fun machine hmem => ⟨(hall machine hmem).1, (hall machine hmem).2.2⟩⟩

end Parse

end InfusedModbus.Protocol
