import InfusedModbus.Server.WordRefinement

/-! Descriptions whose sections are flat: within a section the entries are told apart by
name, and the addresses they span are disjoint and exist. Then an entry is found at its
own address, and a stored value belongs to one entry only. -/

namespace InfusedModbus.Server

open Foundation Foundation.Outcome Protocol Datafs

section FlatSection

variable {ρ : Type} (name : ρ → String) (address : ρ → UInt16) (size : ρ → ℕ) (entries : List ρ)

structure FlatSection : Prop where
  names : (entries.map name).Nodup
  disjoint : entries.Pairwise fun r s =>
    Disjoint (extent (fun entry => (address entry).toNat) size r) (extent (fun entry => (address entry).toNat) size s)
  fits : ∀ r ∈ entries, (address r).toNat + size r ≤ 65536

variable {name address size entries}

theorem flatSection_nil : FlatSection name address size [] :=
  ⟨List.nodup_nil, .nil, fun _ hr => (nomatch hr)⟩

/-- An entry is the first one at its address. -/
theorem FlatSection.find?_eq (h : FlatSection name address size entries) (hpos : ∀ r ∈ entries, 0 < size r) {entry : ρ}
    (hentry : entry ∈ entries) : (entries.find? fun other => address other == address entry) = some entry := by
  have hblock := blockAt_start h.disjoint hpos hentry
  rw [← hblock, blockAt]
  congr 1
  funext other
  rw [Bool.eq_iff_iff, beq_iff_eq, beq_iff_eq, UInt16.toNat_inj]

/-- With a further condition it is still the only one in question. -/
theorem FlatSection.find?_and_eq (h : FlatSection name address size entries) (hpos : ∀ r ∈ entries, 0 < size r)
    {entry : ρ} (hentry : entry ∈ entries) (condition : ρ → Bool) :
    (entries.find? fun other => address other == address entry && condition other) =
      if condition entry then some entry else none := by
  have honly : ∀ other ∈ entries, address other = address entry → other = entry := by
    intro other hother haddress
    have hfound := h.find?_eq hpos hother
    rw [haddress, h.find?_eq hpos hentry] at hfound
    exact (Option.some.inj hfound).symm
  cases hfound : entries.find? fun other => address other == address entry && condition other with
  | none =>
    have hfalse := List.find?_eq_none.mp hfound entry hentry
    rw [beq_self_eq_true, Bool.true_and] at hfalse
    rw [if_neg hfalse]
  | some other =>
    have hother := List.find?_some hfound
    rw [Bool.and_eq_true, beq_iff_eq] at hother
    obtain rfl := honly other (List.mem_of_find?_eq_some hfound) hother.1
    rw [if_pos hother.2]

end FlatSection

/-- The key of a file record in the store. -/
def recordKey (description : FileRecordDescription) : UInt16 × UInt16 :=
  (description.fileNumber, description.recordNumber)

/-- Every section of the description is flat, and its file records have distinct keys. -/
structure FlatDescription (description : MachineDescription) : Prop where
  registers : FlatSection RegisterDescription.name RegisterDescription.address (width RegisterDescription.dataType)
    description.registers
  coils : FlatSection CoilDescription.name CoilDescription.address (fun _ => 1) description.coils
  discreteInputs : FlatSection DiscreteInputDescription.name DiscreteInputDescription.address (fun _ => 1)
    description.discreteInputs
  inputRegisters : FlatSection InputRegisterDescription.name InputRegisterDescription.address
    (width InputRegisterDescription.dataType) description.inputRegisters
  fileRecords : (description.fileRecords.map recordKey).Nodup

namespace FlatDescription

variable {description : MachineDescription} (h : FlatDescription description)

include h

theorem findRegister_eq {register : RegisterDescription} (hregister : register ∈ description.registers) :
    findRegister description.registers register.address = some register :=
  h.registers.find?_eq (fun r _ => width_pos r) hregister

theorem findCoil_eq {coil : CoilDescription} (hcoil : coil ∈ description.coils) :
    findCoil description.coils coil.address = some coil :=
  h.coils.find?_eq (fun _ _ => Nat.one_pos) hcoil

theorem findDiscreteInput_eq {discreteInput : DiscreteInputDescription}
    (hinput : discreteInput ∈ description.discreteInputs) :
    findDiscreteInput description.discreteInputs discreteInput.address = some discreteInput :=
  h.discreteInputs.find?_eq (fun _ _ => Nat.one_pos) hinput

theorem findFileRecord_eq {fileRecord : FileRecordDescription} (hrecord : fileRecord ∈ description.fileRecords) :
    findFileRecord description.fileRecords fileRecord.fileNumber fileRecord.recordNumber = some fileRecord := by
  have hsome : (findFileRecord description.fileRecords fileRecord.fileNumber fileRecord.recordNumber).isSome := by
    rw [findFileRecord, List.find?_isSome]
    exact ⟨fileRecord, hrecord, by simp⟩
  obtain ⟨found, hfound⟩ := Option.isSome_iff_exists.mp hsome
  obtain ⟨hmem, hfile, hrecordNumber⟩ := findFileRecord_eq_some hfound
  rw [hfound, List.inj_on_of_nodup_map h.fileRecords hmem hrecord (Prod.ext hfile hrecordNumber)]

end FlatDescription

/-! ### A configured machine -/

/-- The typed values of a machine have the declared types, its records the declared lengths. -/
structure TypedStores (machine : ServerMachineState) : Prop where
  registers : ∀ register ∈ machine.registers, ∀ value, machine.store.get register.name = some value →
    value.dataType = register.dataType
  inputRegisters : ∀ inputRegister ∈ machine.inputRegisters, ∀ value,
    machine.inputRegisterStore.get inputRegister.name = some value → value.dataType = inputRegister.dataType
  fileRecords : ∀ fileRecord ∈ machine.fileRecords, ∀ value,
    machine.fileRecordStore.get (recordKey fileRecord) = some value →
      value.length = fileRecord.recordLength.toNat * 2

/-- A value of the declared type reads as itself. -/
theorem storedValue_of_typed {store : Store String RegisterValue} {name : String} {dataType : DataType}
    (h : ∀ value, store.get name = some value → value.dataType = dataType) :
    storedValue store name dataType = (store.get name).getD (defaultRegisterValue dataType) := by
  unfold storedValue
  cases hget : store.get name with
  | none => rfl
  | some value => exact if_pos (h value hget)

theorem storedBit_eq {ρ : Type} (name : ρ → String) (store : Store String CoilValue) (entry : ρ) :
    (⟨storedBit name store entry⟩ : CoilValue) = (store.get (name entry)).getD ⟨false⟩ := by
  unfold storedBit
  cases store.get (name entry) <;> rfl

theorem length_storedRecord {fileRecordStore : FileRecordStore} {fileRecord : FileRecordDescription}
    (h : ∀ value, fileRecordStore.get (recordKey fileRecord) = some value →
      value.length = fileRecord.recordLength.toNat * 2) :
    (storedRecord fileRecordStore fileRecord).length = fileRecord.recordLength.toNat * 2 := by
  unfold storedRecord
  cases hget : fileRecordStore.get (fileRecord.fileNumber, fileRecord.recordNumber) with
  | none => exact List.length_replicate
  | some value => exact h value hget

end InfusedModbus.Server
