import InfusedModbus.Client.SparkplugAlias
import InfusedModbus.Datafs.Parse
import InfusedModbus.Datafs.Staging
import InfusedModbus.Sparkplug.Metric

/-! Between the points of a machine and the metrics of its device. A register's value is widened
to the slot of its type on the way out and narrowed on the way back, where a value that does not
fit 24 bits is refused. A point that was never read is published as the zero of its type. -/

namespace InfusedModbus.Client

open Foundation Protocol Datafs
open Sparkplug (MetricValue Metric PropertySet)

/-! ### Types and values -/

/-- There is no 24-bit type, so the next larger one stands for it. -/
def mapDataType : DataType → Sparkplug.DataType
  | .u8 => .uint8
  | .i8 => .int8
  | .u16 => .uint16
  | .i16 => .int16
  | .u24 => .uint32
  | .i24 => .int32
  | .u32 => .uint32
  | .i32 => .int32
  | .u64 => .uint64
  | .i64 => .int64
  | .f32 => .float
  | .f64 => .double

/-- Signed values are sign-extended, then their bits are taken as unsigned. -/
def mapRegisterValue : RegisterValue → MetricValue
  | .u8 value => .int value.toUInt32
  | .i8 value => .int value.toInt32.toUInt32
  | .u16 value => .int value.toUInt32
  | .i16 value => .int value.toInt32.toUInt32
  | .u24 value => .int value
  | .i24 value => .int value.toUInt32
  | .u32 value => .int value
  | .i32 value => .int value.toUInt32
  | .u64 value => .long value
  | .i64 value => .long value.toUInt64
  | .f32 bits => .float bits
  | .f64 bits => .double bits

def mapCoilValue (value : CoilValue) : MetricValue := .boolean value.value

def unitProperty (unit : Option String) : Option PropertySet :=
  unit.map fun code => ⟨[("unit", ⟨.string, .string code⟩)]⟩

/-- The inverse of `mapRegisterValue` on the values of a type. -/
def metricValueToRegisterValue (value : MetricValue) (dataType : DataType) : Except String RegisterValue :=
  match dataType, value with
  | .u8, .int raw => .ok (.u8 raw.toUInt8)
  | .i8, .int raw => .ok (.i8 raw.toUInt8.toInt8)
  | .u16, .int raw => .ok (.u16 raw.toUInt16)
  | .i16, .int raw => .ok (.i16 raw.toUInt16.toInt16)
  | .u24, .int raw =>
    if u24Max < raw then .error (toString raw ++ " does not fit in a U24 register") else .ok (.u24 raw)
  | .i24, .int raw =>
    let signed := raw.toInt32
    if i24Min ≤ signed.toInt ∧ signed.toInt ≤ i24Max then .ok (.i24 signed)
    else .error (toString signed ++ " does not fit in an I24 register")
  | .u32, .int raw => .ok (.u32 raw)
  | .i32, .int raw => .ok (.i32 raw.toInt32)
  | .u64, .long raw => .ok (.u64 raw)
  | .i64, .long raw => .ok (.i64 raw.toInt64)
  | .f32, .float bits => .ok (.f32 bits)
  | .f64, .double bits => .ok (.f64 bits)
  | _, _ => .error ("value shape does not match declared data type " ++ dataType.debug)

/-- Names are looked for among the registers, then the coils, then the inputs, which cannot be
written, and are read as a file record's numbers last. -/
def metricValueToStagedValue (machine : MachineDescription) (metricName : String) (value : MetricValue) :
    Except String StagedValue :=
  match machine.registers.find? fun register => register.name == metricName with
  | some register => (metricValueToRegisterValue value register.dataType).map .register
  | none =>
    if machine.coils.any fun coil => coil.name == metricName then
      match value with
      | .boolean flag => .ok (.coil ⟨flag⟩)
      | _ => .error ("coil " ++ metricName ++ " needs a boolean value")
    else if (machine.discreteInputs.any fun entry => entry.name == metricName) ||
        machine.inputRegisters.any fun entry => entry.name == metricName then
      .error (metricName ++ " is read-only and cannot be written")
    else
      let unknown := .error ("unknown metric " ++ metricName ++ " on machine " ++ machine.name)
      match parseFileRecordName metricName with
      | some (fileNumber, recordNumber) =>
        if machine.fileRecords.any fun entry =>
            entry.fileNumber == fileNumber && entry.recordNumber == recordNumber then
          match value with
          | .bytes bytes => .ok (.fileRecord fileNumber recordNumber bytes)
          | _ => .error ("file record " ++ metricName ++ " needs a bytes value")
        else unknown
      | none => unknown

/-! ### The metrics of a machine -/

section Build

variable (machine : MachineDescription) (aliases : AliasAllocator) (timestampMillis : UInt64)

def machineMetric (name : String) (dataType : Sparkplug.DataType) (isNull : Bool) (properties : Option PropertySet)
    (value : MetricValue) : Metric where
  name := name
  metricAlias := aliases.aliasFor machine.name name
  timestamp := some timestampMillis
  dataType := dataType
  isNull := isNull
  properties := properties
  value := value

def buildMachineMetrics (stores : MachineStores) : List Metric :=
  (machine.registers.map fun register =>
    machineMetric machine aliases timestampMillis register.name (mapDataType register.dataType) false
      (unitProperty register.unit)
      (mapRegisterValue ((stores.registers.get register.name).getD (defaultRegisterValue register.dataType)))) ++
  (machine.coils.map fun coil =>
    machineMetric machine aliases timestampMillis coil.name .boolean false none
      (mapCoilValue ((stores.coils.get coil.name).getD ⟨false⟩))) ++
  (machine.discreteInputs.map fun discreteInput =>
    machineMetric machine aliases timestampMillis discreteInput.name .boolean false none
      (mapCoilValue ((stores.discreteInputs.get discreteInput.name).getD ⟨false⟩))) ++
  (machine.inputRegisters.map fun inputRegister =>
    machineMetric machine aliases timestampMillis inputRegister.name (mapDataType inputRegister.dataType) false
      (unitProperty inputRegister.unit)
      (mapRegisterValue
        ((stores.inputRegisters.get inputRegister.name).getD (defaultRegisterValue inputRegister.dataType)))) ++
  (machine.fileRecords.map fun fileRecord =>
    machineMetric machine aliases timestampMillis
      (fileRecordMetricName fileRecord.fileNumber fileRecord.recordNumber) .bytes false none
      (.bytes ((stores.fileRecords.get (fileRecord.fileNumber, fileRecord.recordNumber)).getD
        (List.replicate (2 * fileRecord.recordLength.toNat) 0))))

def buildMachineMetricsNullPlaceholders : List Metric :=
  (machine.registers.map fun register =>
    machineMetric machine aliases timestampMillis register.name (mapDataType register.dataType) true
      (unitProperty register.unit) (mapRegisterValue (defaultRegisterValue register.dataType))) ++
  (machine.coils.map fun coil =>
    machineMetric machine aliases timestampMillis coil.name .boolean true none (mapCoilValue ⟨false⟩)) ++
  (machine.discreteInputs.map fun discreteInput =>
    machineMetric machine aliases timestampMillis discreteInput.name .boolean true none (mapCoilValue ⟨false⟩)) ++
  (machine.inputRegisters.map fun inputRegister =>
    machineMetric machine aliases timestampMillis inputRegister.name (mapDataType inputRegister.dataType) true
      (unitProperty inputRegister.unit) (mapRegisterValue (defaultRegisterValue inputRegister.dataType))) ++
  (machine.fileRecords.map fun fileRecord =>
    machineMetric machine aliases timestampMillis
      (fileRecordMetricName fileRecord.fileNumber fileRecord.recordNumber) .bytes true none
      (.bytes (List.replicate (2 * fileRecord.recordLength.toNat) 0)))

end Build

/-! ### Points -/

/-- An entry of one of the five sections of a machine. -/
inductive MachinePoint where
  | register (entry : RegisterDescription)
  | coil (entry : CoilDescription)
  | discreteInput (entry : DiscreteInputDescription)
  | inputRegister (entry : InputRegisterDescription)
  | fileRecord (entry : FileRecordDescription)

namespace MachinePoint

def name : MachinePoint → String
  | .register entry => entry.name
  | .coil entry => entry.name
  | .discreteInput entry => entry.name
  | .inputRegister entry => entry.name
  | .fileRecord entry => fileRecordMetricName entry.fileNumber entry.recordNumber

def dataType : MachinePoint → Sparkplug.DataType
  | .register entry => mapDataType entry.dataType
  | .coil _ | .discreteInput _ => .boolean
  | .inputRegister entry => mapDataType entry.dataType
  | .fileRecord _ => .bytes

def properties : MachinePoint → Option PropertySet
  | .register entry => unitProperty entry.unit
  | .inputRegister entry => unitProperty entry.unit
  | .coil _ | .discreteInput _ | .fileRecord _ => none

/-- What stands for a value that is not known. -/
def placeholder : MachinePoint → MetricValue
  | .register entry => mapRegisterValue (defaultRegisterValue entry.dataType)
  | .coil _ | .discreteInput _ => mapCoilValue ⟨false⟩
  | .inputRegister entry => mapRegisterValue (defaultRegisterValue entry.dataType)
  | .fileRecord entry => .bytes (List.replicate (2 * entry.recordLength.toNat) 0)

/-- What the stores have for the point. -/
def stored (stores : MachineStores) : MachinePoint → Option MetricValue
  | .register entry => (stores.registers.get entry.name).map mapRegisterValue
  | .coil entry => (stores.coils.get entry.name).map mapCoilValue
  | .discreteInput entry => (stores.discreteInputs.get entry.name).map mapCoilValue
  | .inputRegister entry => (stores.inputRegisters.get entry.name).map mapRegisterValue
  | .fileRecord entry => (stores.fileRecords.get (entry.fileNumber, entry.recordNumber)).map .bytes

/-- What is published for the point. -/
def value (stores : MachineStores) (point : MachinePoint) : MetricValue := (point.stored stores).getD point.placeholder

def metric (machine : MachineDescription) (aliases : AliasAllocator) (timestampMillis : UInt64) (isNull : Bool)
    (point : MachinePoint) (value : MetricValue) : Metric :=
  machineMetric machine aliases timestampMillis point.name point.dataType isNull point.properties value

end MachinePoint

def machinePoints (machine : MachineDescription) : List MachinePoint :=
  machine.registers.map .register ++ machine.coils.map .coil ++ machine.discreteInputs.map .discreteInput ++
    machine.inputRegisters.map .inputRegister ++ machine.fileRecords.map .fileRecord

variable {machine : MachineDescription} {aliases : AliasAllocator} {timestampMillis : UInt64}

theorem map_name_machinePoints : (machinePoints machine).map MachinePoint.name = metricNames machine := by
  simp only [machinePoints, metricNames, List.map_append, List.map_map]
  rfl

/-- The metrics are those of the points, one by one. -/
theorem buildMachineMetrics_eq (stores : MachineStores) :
    buildMachineMetrics machine aliases timestampMillis stores =
      (machinePoints machine).map fun point =>
        point.metric machine aliases timestampMillis false (point.value stores) := by
  simp only [buildMachineMetrics, machinePoints, List.map_append, List.map_map, Function.comp_def, MachinePoint.metric,
    MachinePoint.name, MachinePoint.dataType, MachinePoint.properties, MachinePoint.value, MachinePoint.stored,
    MachinePoint.placeholder, Option.getD_map]

theorem buildMachineMetricsNullPlaceholders_eq :
    buildMachineMetricsNullPlaceholders machine aliases timestampMillis =
      (machinePoints machine).map fun point =>
        point.metric machine aliases timestampMillis true point.placeholder := by
  simp only [buildMachineMetricsNullPlaceholders, machinePoints, List.map_append, List.map_map, Function.comp_def,
    MachinePoint.metric, MachinePoint.name, MachinePoint.dataType, MachinePoint.properties, MachinePoint.placeholder]

end InfusedModbus.Client
