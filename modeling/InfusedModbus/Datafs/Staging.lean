import InfusedModbus.Datafs.RegisterValue

/-! Writes on their way to a device: what is staged under a name, and how the last
attempt to write it went. -/

namespace InfusedModbus.Datafs

open Foundation Protocol

/-- A value staged under a name. A file record carries its own numbers. -/
inductive StagedValue where
  | register (value : RegisterValue)
  | coil (value : CoilValue)
  | discreteInput (value : CoilValue)
  | inputRegister (value : RegisterValue)
  | maskedRegister (andMask orMask : UInt16)
  | fileRecord (fileNumber recordNumber : UInt16) (value : Bytes)
  deriving DecidableEq, Repr

inductive WriteStatus where
  | ok
  | failed (reason : String)
  deriving DecidableEq, Repr

/-- The status of the most recent attempt for each name. -/
abbrev WriteReport := Store String WriteStatus

/-- The stores of one machine and its report. -/
@[ext] structure MachineStores where
  registers : RegisterStore
  coils : CoilStore
  discreteInputs : DiscreteInputStore
  inputRegisters : InputRegisterStore
  fileRecords : FileRecordStore
  report : WriteReport

def MachineStores.new : MachineStores := ⟨.empty, .empty, .empty, .empty, .empty, .empty⟩

end InfusedModbus.Datafs
