import InfusedModbus.Foundation.BigEndian

/-! The description of the machines on a link: which registers, coils, inputs and
file records each one has, where they live, and how wide a value's type is. -/

namespace InfusedModbus.Protocol

inductive DataType where
  | u8 | i8 | u16 | i16 | u24 | i24 | u32 | i32 | u64 | i64 | f32 | f64
  deriving DecidableEq, Repr

/-- How many consecutive 16-bit registers a value of this type spans. -/
def DataType.registerCount : DataType → ℕ
  | .u8 | .i8 | .u16 | .i16 => 1
  | .u24 | .i24 | .u32 | .i32 | .f32 => 2
  | .u64 | .i64 | .f64 => 4

theorem DataType.registerCount_pos (t : DataType) : 0 < t.registerCount := by
  cases t <;> decide

theorem DataType.registerCount_le (t : DataType) : t.registerCount ≤ 4 := by
  cases t <;> decide

/-- The `Debug` text of a type, as it appears in error texts. -/
def DataType.debug : DataType → String
  | .u8 => "U8"
  | .i8 => "I8"
  | .u16 => "U16"
  | .i16 => "I16"
  | .u24 => "U24"
  | .i24 => "I24"
  | .u32 => "U32"
  | .i32 => "I32"
  | .u64 => "U64"
  | .i64 => "I64"
  | .f32 => "F32"
  | .f64 => "F64"

/-- The order of a multi-register value's bytes on the wire, named after where its
bytes `A` (most significant) to `D` go. -/
inductive MemLayout where
  | abcd | badc | cdab | dcba
  deriving DecidableEq, Repr

inductive AccessRight where
  | readOnly | readWrite
  deriving DecidableEq, Repr

structure RegisterDescription where
  name : String
  address : UInt16
  dataType : DataType
  access : AccessRight
  unit : Option String := none
  deriving DecidableEq, Repr

structure InputRegisterDescription where
  name : String
  address : UInt16
  dataType : DataType
  unit : Option String := none
  deriving DecidableEq, Repr

structure CoilDescription where
  name : String
  address : UInt16
  deriving DecidableEq, Repr

structure DiscreteInputDescription where
  name : String
  address : UInt16
  deriving DecidableEq, Repr

/-- A file record is addressed by its two numbers; its length is in 16-bit words. -/
structure FileRecordDescription where
  fileNumber : UInt16
  recordNumber : UInt16
  recordLength : UInt16
  deriving DecidableEq, Repr

/-- The file number no described file record may use: reading it transfers the
compressed device description. -/
def reservedDeviceDescriptionFileNumber : UInt16 := 0xFFFF

structure MachineDescription where
  name : String
  unitId : UInt8
  registers : List RegisterDescription
  coils : List CoilDescription
  discreteInputs : List DiscreteInputDescription
  inputRegisters : List InputRegisterDescription
  fileRecords : List FileRecordDescription
  memLayout : MemLayout
  inputRegisterMemLayout : MemLayout
  serverId : Option String
  deriving DecidableEq, Repr

/-- A parsed description; two machines of one name are refused. -/
structure DeviceDescription where
  machines : List MachineDescription
  names_nodup : (machines.map MachineDescription.name).Nodup

end InfusedModbus.Protocol
