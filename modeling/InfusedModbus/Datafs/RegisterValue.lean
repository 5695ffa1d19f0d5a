import InfusedModbus.Foundation.Store
import InfusedModbus.Protocol.DeviceDescription

/-! Typed register values and the stores that hold a machine's values under the
names of its description. A float is its bit pattern, since values are only moved
and compared, never computed with. -/

namespace InfusedModbus.Datafs

open Foundation Protocol

/-- A value of one of the data types; the 24-bit ones live in the next larger type. -/
inductive RegisterValue where
  | u8 (value : UInt8)
  | i8 (value : Int8)
  | u16 (value : UInt16)
  | i16 (value : Int16)
  | u24 (value : UInt32)
  | i24 (value : Int32)
  | u32 (value : UInt32)
  | i32 (value : Int32)
  | u64 (value : UInt64)
  | i64 (value : Int64)
  | f32 (bits : UInt32)
  | f64 (bits : UInt64)
  deriving DecidableEq, Repr

def RegisterValue.dataType : RegisterValue → DataType
  | .u8 _ => .u8
  | .i8 _ => .i8
  | .u16 _ => .u16
  | .i16 _ => .i16
  | .u24 _ => .u24
  | .i24 _ => .i24
  | .u32 _ => .u32
  | .i32 _ => .i32
  | .u64 _ => .u64
  | .i64 _ => .i64
  | .f32 _ => .f32
  | .f64 _ => .f64

/-- What an unset register reads back as. -/
def defaultRegisterValue : DataType → RegisterValue
  | .u8 => .u8 0
  | .i8 => .i8 0
  | .u16 => .u16 0
  | .i16 => .i16 0
  | .u24 => .u24 0
  | .i24 => .i24 0
  | .u32 => .u32 0
  | .i32 => .i32 0
  | .u64 => .u64 0
  | .i64 => .i64 0
  | .f32 => .f32 0
  | .f64 => .f64 0

@[simp] theorem dataType_defaultRegisterValue (t : DataType) : (defaultRegisterValue t).dataType = t := by
  cases t <;> rfl

def u24Max : UInt32 := 0x00FFFFFF
def i24Min : ℤ := -0x00800000
def i24Max : ℤ := 0x007FFFFF

/-- The 24-bit types keep to 24 bits. -/
def RegisterValue.InRange : RegisterValue → Prop
  | .u24 value => value ≤ u24Max
  | .i24 value => i24Min ≤ value.toInt ∧ value.toInt ≤ i24Max
  | _ => True

/-- The value of a coil or a discrete input. -/
structure CoilValue where
  value : Bool
  deriving DecidableEq, Repr

abbrev RegisterStore := Store String RegisterValue
abbrev InputRegisterStore := Store String RegisterValue
abbrev CoilStore := Store String CoilValue
abbrev DiscreteInputStore := Store String CoilValue
abbrev FileRecordStore := Store (UInt16 × UInt16) Bytes

end InfusedModbus.Datafs
