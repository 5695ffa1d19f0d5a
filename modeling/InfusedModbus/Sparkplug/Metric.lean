import InfusedModbus.Foundation.BigEndian

/-! Sparkplug B payloads: a payload is a list of metrics, each with a value, a declared type,
and a name or an alias that says which one it is. A float is its bit pattern. Besides the
equality of bits there is the equality the program compares with, in which a NaN differs from
itself and the two zeros agree. -/

namespace InfusedModbus.Sparkplug

open Foundation

/-! ### Types and values -/

inductive DataType where
  | unknown | int8 | int16 | int32 | int64 | uint8 | uint16 | uint32 | uint64
  | float | double | boolean | string | dateTime | text | uuid | dataSet | bytes | file
  | template | propertySet | propertySetList
  | int8Array | int16Array | int32Array | int64Array
  | uint8Array | uint16Array | uint32Array | uint64Array
  | floatArray | doubleArray | booleanArray | stringArray | dateTimeArray
  deriving DecidableEq, Repr

/-- One cell of a table. -/
inductive DataSetValue where
  | int (value : UInt32)
  | long (value : UInt64)
  | float (bits : UInt32)
  | double (bits : UInt64)
  | boolean (value : Bool)
  | string (value : String)
  | bytes (value : Bytes)
  deriving DecidableEq, Repr

structure Row where
  elements : List DataSetValue
  deriving DecidableEq, Repr

/-- A table; neither its columns nor its rows are forced to agree with its types. -/
structure DataSet where
  columns : List String
  types : List DataType
  rows : List Row
  deriving DecidableEq, Repr

inductive MetricValue where
  | int (value : UInt32)
  | long (value : UInt64)
  | float (bits : UInt32)
  | double (bits : UInt64)
  | boolean (value : Bool)
  | string (value : String)
  | bytes (value : Bytes)
  | dataSet (value : DataSet)
  deriving DecidableEq, Repr

/-- Property types are numbered apart from metric types. -/
inductive PropertyDataType where
  | unknown | int32 | int64 | uint32 | uint64 | float | double | boolean | string | dateTime
  | text | uuid | dataSet | bytes | file | propertySet | propertySetList
  deriving DecidableEq, Repr

inductive PropertyValue where
  | int (value : UInt32)
  | long (value : UInt64)
  | float (bits : UInt32)
  | double (bits : UInt64)
  | boolean (value : Bool)
  | string (value : String)
  | bytes (value : Bytes)
  deriving DecidableEq, Repr

structure Property where
  dataType : PropertyDataType
  value : PropertyValue
  deriving DecidableEq, Repr

structure PropertySet where
  entries : List (String × Property)
  deriving DecidableEq, Repr

/-! ### Metrics and payloads -/

/-- An alias counts the points of an edge node and never comes near the end of its 64 bits. -/
structure Metric where
  name : String
  metricAlias : Option ℕ
  timestamp : Option UInt64
  dataType : DataType
  isNull : Bool
  properties : Option PropertySet
  value : MetricValue
  deriving DecidableEq, Repr

structure Payload where
  timestamp : Option UInt64
  metrics : List Metric
  seq : Option UInt64
  deriving DecidableEq, Repr

/-! ### Equality as the program compares -/

/-- Exponent all ones, and some bit of the fraction. -/
def isNaN32 (bits : UInt32) : Bool := 0x7F800000 < bits &&& 0x7FFFFFFF
def isNaN64 (bits : UInt64) : Bool := 0x7FF0000000000000 < bits &&& 0x7FFFFFFFFFFFFFFF

/-- All bits clear but the sign. -/
def isZero32 (bits : UInt32) : Bool := bits &&& 0x7FFFFFFF == 0
def isZero64 (bits : UInt64) : Bool := bits &&& 0x7FFFFFFFFFFFFFFF == 0

def eq32 (a b : UInt32) : Bool := !isNaN32 a && !isNaN32 b && (a == b || isZero32 a && isZero32 b)
def eq64 (a b : UInt64) : Bool := !isNaN64 a && !isNaN64 b && (a == b || isZero64 a && isZero64 b)

def DataSetValue.eq : DataSetValue → DataSetValue → Bool
  | .float a, .float b => eq32 a b
  | .double a, .double b => eq64 a b
  | a, b => a == b

/-- Lists of one length whose elements agree one by one. -/
def listEq {α : Type} (eq : α → α → Bool) : List α → List α → Bool
  | [], [] => true
  | a :: as, b :: bs => eq a b && listEq eq as bs
  | _, _ => false

def DataSet.eq (a b : DataSet) : Bool :=
  a.columns == b.columns && a.types == b.types &&
    listEq (fun r s => listEq DataSetValue.eq r.elements s.elements) a.rows b.rows

/-- The derived `PartialEq`. -/
def MetricValue.eq : MetricValue → MetricValue → Bool
  | .float a, .float b => eq32 a b
  | .double a, .double b => eq64 a b
  | .dataSet a, .dataSet b => a.eq b
  | a, b => a == b

end InfusedModbus.Sparkplug
