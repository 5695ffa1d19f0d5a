import InfusedModbus.Client.Mirror
import InfusedModbus.Client.SparkplugCommand
import InfusedModbus.Client.Transaction
import InfusedModbus.Datafs.Display

/-! Aliases identify points. Where the metric names of a machine are distinct, every metric has an
alias of its own, the alias leads back to the machine and the name, and a command that carries it
stages a write to that very point: to a register, coil or file record a write of the value, to an
input nothing. -/

namespace InfusedModbus.Client

open Foundation Foundation.Outcome Protocol Datafs
open Sparkplug (MetricValue Metric Payload)

/-! ### Points by name -/

section Points

variable {machine : MachineDescription}

/-- Of distinct names each names one point. -/
theorem point_of_name (hpoints : (metricNames machine).Nodup) {point point' : MachinePoint}
    (hpoint : point ∈ machinePoints machine) (hpoint' : point' ∈ machinePoints machine)
    (hname : point.name = point'.name) : point = point' := by
  rw [← map_name_machinePoints] at hpoints
  exact List.inj_on_of_nodup_map hpoints hpoint hpoint' hname

theorem register_mem {entry : RegisterDescription} (h : entry ∈ machine.registers) :
    .register entry ∈ machinePoints machine := by simp [machinePoints, h]

theorem coil_mem {entry : CoilDescription} (h : entry ∈ machine.coils) : .coil entry ∈ machinePoints machine := by
  simp [machinePoints, h]

theorem discreteInput_mem {entry : DiscreteInputDescription} (h : entry ∈ machine.discreteInputs) :
    .discreteInput entry ∈ machinePoints machine := by simp [machinePoints, h]

theorem inputRegister_mem {entry : InputRegisterDescription} (h : entry ∈ machine.inputRegisters) :
    .inputRegister entry ∈ machinePoints machine := by simp [machinePoints, h]

theorem fileRecord_mem {entry : FileRecordDescription} (h : entry ∈ machine.fileRecords) :
    .fileRecord entry ∈ machinePoints machine := by simp [machinePoints, h]

variable (hpoints : (metricNames machine).Nodup) {point : MachinePoint} (hpoint : point ∈ machinePoints machine)
include hpoints hpoint

/-- The name of a point that is no register is no register's. -/
theorem find?_register_eq_none (h : ∀ entry, point ≠ .register entry) :
    (machine.registers.find? fun register => register.name == point.name) = none := by
  rw [List.find?_eq_none]
  intro register hregister hname
  exact h register (point_of_name hpoints hpoint (register_mem hregister) (beq_iff_eq.mp hname).symm)

omit hpoint in
theorem find?_register_self {entry : RegisterDescription} (hentry : entry ∈ machine.registers) :
    (machine.registers.find? fun register => register.name == entry.name) = some entry := by
  cases hfound : machine.registers.find? fun register => register.name == entry.name with
  | none => exact absurd (beq_self_eq_true _) (List.find?_eq_none.mp hfound entry hentry)
  | some other =>
    have hname := List.find?_some hfound
    rw [beq_iff_eq] at hname
    have hsame := point_of_name hpoints (register_mem (List.mem_of_find?_eq_some hfound)) (register_mem hentry) hname
    rw [MachinePoint.register.inj hsame]

omit hpoint in
theorem find?_coil_self {entry : CoilDescription} (hentry : entry ∈ machine.coils) :
    (machine.coils.find? fun coil => coil.name == entry.name) = some entry := by
  cases hfound : machine.coils.find? fun coil => coil.name == entry.name with
  | none => exact absurd (beq_self_eq_true _) (List.find?_eq_none.mp hfound entry hentry)
  | some other =>
    have hname := List.find?_some hfound
    rw [beq_iff_eq] at hname
    have hsame := point_of_name hpoints (coil_mem (List.mem_of_find?_eq_some hfound)) (coil_mem hentry) hname
    rw [MachinePoint.coil.inj hsame]

theorem any_coil_eq_false (h : ∀ entry, point ≠ .coil entry) :
    (machine.coils.any fun coil => coil.name == point.name) = false := by
  rw [List.any_eq_false]
  intro coil hcoil hname
  exact h coil (point_of_name hpoints hpoint (coil_mem hcoil) (beq_iff_eq.mp hname).symm)

theorem any_discreteInput_eq_false (h : ∀ entry, point ≠ .discreteInput entry) :
    (machine.discreteInputs.any fun entry => entry.name == point.name) = false := by
  rw [List.any_eq_false]
  intro entry hentry hname
  exact h entry (point_of_name hpoints hpoint (discreteInput_mem hentry) (beq_iff_eq.mp hname).symm)

theorem any_inputRegister_eq_false (h : ∀ entry, point ≠ .inputRegister entry) :
    (machine.inputRegisters.any fun entry => entry.name == point.name) = false := by
  rw [List.any_eq_false]
  intro entry hentry hname
  exact h entry (point_of_name hpoints hpoint (inputRegister_mem hentry) (beq_iff_eq.mp hname).symm)

end Points

theorem parseFileRecordName_fileRecordMetricName (fileNumber recordNumber : UInt16) :
    parseFileRecordName (fileRecordMetricName fileNumber recordNumber) = some (fileNumber, recordNumber) := by
  have hspelling : recordSpelling 0 fileNumber recordNumber = fileRecordMetricName fileNumber recordNumber := rfl
  rw [← hspelling]
  exact parseFileRecordName_recordSpelling 0 fileNumber recordNumber

/-! ### What a value becomes -/

/-- A value of the mapped type that the register can hold. -/
def FitsRegister : DataType → MetricValue → Prop
  | .u24, .int raw => raw ≤ u24Max
  | .i24, .int raw => i24Min ≤ raw.toInt32.toInt ∧ raw.toInt32.toInt ≤ i24Max
  | .u8, .int _ | .i8, .int _ | .u16, .int _ | .i16, .int _ | .u32, .int _ | .i32, .int _ => True
  | .u64, .long _ | .i64, .long _ => True
  | .f32, .float _ => True
  | .f64, .double _ => True
  | _, _ => False

/-- Such a value is converted to one of the register's type. -/
theorem exists_registerValue {dataType : DataType} {value : MetricValue} (h : FitsRegister dataType value) :
    ∃ registerValue, metricValueToRegisterValue value dataType = .ok registerValue ∧
      registerValue.dataType = dataType := by
  cases dataType <;> cases value <;> first | exact h.elim | exact ⟨_, rfl, rfl⟩ | skip
  · exact ⟨_, if_neg (UInt32.not_lt.mpr h), rfl⟩
  · exact ⟨_, if_pos h, rfl⟩

section Staged

variable {machine : MachineDescription} (hpoints : (metricNames machine).Nodup)
include hpoints

theorem staged_register {entry : RegisterDescription} (hentry : entry ∈ machine.registers) (value : MetricValue) :
    metricValueToStagedValue machine entry.name value =
      (metricValueToRegisterValue value entry.dataType).map .register := by
  unfold metricValueToStagedValue
  rw [find?_register_self hpoints hentry]

theorem staged_coil {entry : CoilDescription} (hentry : entry ∈ machine.coils) (flag : Bool) :
    metricValueToStagedValue machine entry.name (.boolean flag) = .ok (.coil ⟨flag⟩) := by
  have hregister : (machine.registers.find? fun register => register.name == entry.name) = none :=
    find?_register_eq_none hpoints (coil_mem hentry) (by simp)
  have hcoil : (machine.coils.any fun coil => coil.name == entry.name) = true :=
    List.any_eq_true.mpr ⟨entry, hentry, beq_self_eq_true _⟩
  unfold metricValueToStagedValue
  rw [hregister, hcoil]
  rfl

/-- An input is refused whatever the value. -/
theorem staged_input {point : MachinePoint} (hpoint : point ∈ machinePoints machine)
    (h : (∃ entry ∈ machine.discreteInputs, point = .discreteInput entry) ∨
      ∃ entry ∈ machine.inputRegisters, point = .inputRegister entry) (value : MetricValue) :
    ∃ reason, metricValueToStagedValue machine point.name value = .error reason := by
  have hregister : ∀ entry, point ≠ .register entry := by
    rcases h with ⟨_, -, rfl⟩ | ⟨_, -, rfl⟩ <;> simp
  have hcoil : ∀ entry, point ≠ .coil entry := by
    rcases h with ⟨_, -, rfl⟩ | ⟨_, -, rfl⟩ <;> simp
  have hinput : ((machine.discreteInputs.any fun entry => entry.name == point.name) ||
      machine.inputRegisters.any fun entry => entry.name == point.name) = true := by
    rw [Bool.or_eq_true, List.any_eq_true, List.any_eq_true]
    rcases h with ⟨entry, hentry, rfl⟩ | ⟨entry, hentry, rfl⟩
    · exact .inl ⟨entry, hentry, beq_self_eq_true _⟩
    · exact .inr ⟨entry, hentry, beq_self_eq_true _⟩
  unfold metricValueToStagedValue
  rw [find?_register_eq_none hpoints hpoint hregister, any_coil_eq_false hpoints hpoint hcoil,
    hinput]
  exact ⟨_, rfl⟩

theorem staged_fileRecord {entry : FileRecordDescription} (hentry : entry ∈ machine.fileRecords) (bytes : Bytes) :
    metricValueToStagedValue machine (fileRecordMetricName entry.fileNumber entry.recordNumber) (.bytes bytes) =
      .ok (.fileRecord entry.fileNumber entry.recordNumber bytes) := by
  have hpoint := fileRecord_mem hentry
  have hregister := find?_register_eq_none hpoints hpoint (by simp)
  have hcoil := any_coil_eq_false hpoints hpoint (by simp)
  have hdiscreteInput := any_discreteInput_eq_false hpoints hpoint (by simp)
  have hinputRegister := any_inputRegister_eq_false hpoints hpoint (by simp)
  have hrecord : (machine.fileRecords.any fun other =>
      other.fileNumber == entry.fileNumber && other.recordNumber == entry.recordNumber) = true :=
    List.any_eq_true.mpr ⟨entry, hentry, by simp⟩
  rw [MachinePoint.name] at hregister hcoil hdiscreteInput hinputRegister
  unfold metricValueToStagedValue
  rw [hregister]
  dsimp only
  rw [hcoil, hdiscreteInput, hinputRegister, parseFileRecordName_fileRecordMetricName]
  dsimp only
  rw [hrecord]
  rfl

end Staged

/-! ### Aliases -/

section Aliases

variable {machines : List MachineDescription}

/-- Machines of distinct names, each of points of distinct names, have distinct keys. -/
theorem nodup_aliasKeys (hnames : (machines.map MachineDescription.name).Nodup)
    (hpoints : ∀ machine ∈ machines, (metricNames machine).Nodup) : (aliasKeys machines).Nodup := by
  rw [aliasKeys, List.nodup_flatMap]
  refine ⟨?_, ?_⟩
  · intro machine hmachine
    exact (hpoints machine hmachine).map fun name name' heq => (Prod.mk.inj heq).2
  · refine (List.pairwise_map.mp hnames).imp ?_
    intro machine machine' hne key hkey hkey'
    obtain ⟨name, -, rfl⟩ := List.mem_map.mp hkey
    obtain ⟨name', -, heq⟩ := List.mem_map.mp hkey'
    exact hne (Prod.mk.inj heq).1.symm

theorem map_metricAlias_buildMachineMetrics (machine : MachineDescription) (aliases : AliasAllocator) (now : UInt64)
    (stores : MachineStores) :
    (buildMachineMetrics machine aliases now stores).map Metric.metricAlias =
      (metricNames machine).map (aliases.aliasFor machine.name) := by
  rw [buildMachineMetrics_eq, ← map_name_machinePoints, List.map_map, List.map_map]
  rfl

/-- The metrics of all machines have distinct aliases. -/
theorem nodup_metricAliases (hnames : (machines.map MachineDescription.name).Nodup)
    (hpoints : ∀ machine ∈ machines, (metricNames machine).Nodup) (now : UInt64)
    (stores : MachineDescription → MachineStores) :
    (machines.flatMap fun machine =>
      (buildMachineMetrics machine (.build machines) now (stores machine)).map Metric.metricAlias).Nodup := by
  have hkeys : (machines.flatMap fun machine =>
      (buildMachineMetrics machine (.build machines) now (stores machine)).map Metric.metricAlias) =
      (aliasKeys machines).map fun key => (AliasAllocator.build machines).aliasFor key.1 key.2 := by
    rw [aliasKeys, List.map_flatMap]
    refine List.flatMap_congr fun machine _ => ?_
    rw [map_metricAlias_buildMachineMetrics, List.map_map]
    rfl
  rw [hkeys]
  refine List.Nodup.map_on ?_ (nodup_aliasKeys hnames hpoints)
  rintro ⟨machineName, name⟩ hkey ⟨machineName', name'⟩ - heq
  obtain ⟨machine, hmachine, rfl, hname⟩ := AliasAllocator.mem_aliasKeys.mp hkey
  obtain ⟨metricAlias, halias⟩ := AliasAllocator.exists_aliasFor hmachine hname
  obtain ⟨rfl, rfl⟩ := AliasAllocator.aliasFor_injective halias (heq.symm.trans halias)
  rfl

/-- A command with one metric, under an alias of the machine. -/
theorem decodeDcmdMetrics_single {machine : MachineDescription} {name : String} {metric : Metric} {metricAlias : ℕ}
    (hmetric : metric.metricAlias = some metricAlias)
    (halias : (AliasAllocator.build machines).aliasFor machine.name name = some metricAlias)
    (timestamp seq : Option UInt64) :
    decodeDcmdMetrics machine (.build machines) ⟨timestamp, [metric], seq⟩ =
      match metricValueToStagedValue machine name metric.value with
      | .ok stagedValue => Store.empty.set name stagedValue
      | .error _ => .empty := by
  have hcommanded : commandedName machine (.build machines) metric = some name := by
    rw [commandedName, hmetric]
    dsimp only
    rw [AliasAllocator.metricForAlias_build.mpr halias]
    exact if_pos rfl
  cases hvalue : metricValueToStagedValue machine name metric.value with
  | ok stagedValue => simp only [decodeDcmdMetrics, List.foldl_cons, List.foldl_nil, hcommanded, hvalue]
  | error reason => simp only [decodeDcmdMetrics, List.foldl_cons, List.foldl_nil, hcommanded, hvalue]

end Aliases

/-! ### There and back -/

/-- Aliases are distinct and known, and lead commands to their points. -/
structure AliasesIdentify (machines : List MachineDescription) (aliases : AliasAllocator) : Prop where
  distinct : ∀ now (stores : MachineDescription → MachineStores), (machines.flatMap fun machine =>
    (buildMachineMetrics machine aliases now (stores machine)).map Metric.metricAlias).Nodup
  known : ∀ machine ∈ machines, ∀ now stores, ∀ metric ∈ buildMachineMetrics machine aliases now stores,
    ∃ metricAlias, metric.metricAlias = some metricAlias ∧
      aliases.metricForAlias metricAlias = some (machine.name, metric.name)
  registers : ∀ machine ∈ machines, ∀ entry ∈ machine.registers, ∀ metric : Metric, metric.metricAlias.isSome →
    metric.metricAlias = aliases.aliasFor machine.name entry.name → FitsRegister entry.dataType metric.value →
    ∀ timestamp seq, ∃ value, metricValueToRegisterValue metric.value entry.dataType = .ok value ∧
      decodeDcmdMetrics machine aliases ⟨timestamp, [metric], seq⟩ = Store.empty.set entry.name (.register value) ∧
      resolveStaged (.ofDescription machine) entry.name (.register value) = .register entry value
  coils : ∀ machine ∈ machines, ∀ entry ∈ machine.coils, ∀ metric : Metric, metric.metricAlias.isSome →
    metric.metricAlias = aliases.aliasFor machine.name entry.name → ∀ flag, metric.value = .boolean flag →
    ∀ timestamp seq,
      decodeDcmdMetrics machine aliases ⟨timestamp, [metric], seq⟩ = Store.empty.set entry.name (.coil ⟨flag⟩) ∧
      resolveStaged (.ofDescription machine) entry.name (.coil ⟨flag⟩) = .coil entry flag
  fileRecords : ∀ machine ∈ machines, ∀ entry ∈ machine.fileRecords, ∀ metric : Metric, metric.metricAlias.isSome →
    metric.metricAlias = aliases.aliasFor machine.name (fileRecordMetricName entry.fileNumber entry.recordNumber) →
    ∀ bytes, metric.value = .bytes bytes → ∀ timestamp seq,
      decodeDcmdMetrics machine aliases ⟨timestamp, [metric], seq⟩ =
        Store.empty.set (fileRecordMetricName entry.fileNumber entry.recordNumber)
          (.fileRecord entry.fileNumber entry.recordNumber bytes)
  inputs : ∀ machine ∈ machines, ∀ point ∈ machinePoints machine,
    (∃ entry ∈ machine.discreteInputs, point = .discreteInput entry) ∨
      (∃ entry ∈ machine.inputRegisters, point = .inputRegister entry) →
    ∀ metric : Metric, metric.metricAlias.isSome → metric.metricAlias = aliases.aliasFor machine.name point.name →
      ∀ timestamp seq, decodeDcmdMetrics machine aliases ⟨timestamp, [metric], seq⟩ = .empty

/-- Where the metric names of each machine are distinct, aliases identify points. -/
theorem aliases_identify_points (description : DeviceDescription)
    (hpoints : ∀ machine ∈ description.machines, (metricNames machine).Nodup) :
    AliasesIdentify description.machines (.build description.machines) := by
  refine ⟨nodup_metricAliases description.names_nodup hpoints, ?_, ?_, ?_, ?_, ?_⟩
  · intro machine hmachine now stores metric hmetric
    rw [buildMachineMetrics_eq] at hmetric
    obtain ⟨point, hpoint, rfl⟩ := List.mem_map.mp hmetric
    have hname : point.name ∈ metricNames machine := by
      rw [← map_name_machinePoints]
      exact List.mem_map_of_mem hpoint
    obtain ⟨metricAlias, halias⟩ := AliasAllocator.exists_aliasFor hmachine hname
    exact ⟨metricAlias, halias, AliasAllocator.metricForAlias_build.mpr halias⟩
  · intro machine hmachine entry hentry metric hsome halias hfits timestamp seq
    obtain ⟨metricAlias, hmetric⟩ := Option.isSome_iff_exists.mp hsome
    obtain ⟨value, hvalue, htype⟩ := exists_registerValue hfits
    have hfound := find?_register_self (hpoints machine hmachine) hentry
    refine ⟨value, hvalue, ?_, ?_⟩
    · rw [decodeDcmdMetrics_single hmetric (halias.symm.trans hmetric), staged_register (hpoints machine hmachine) hentry,
        hvalue]
      rfl
    · rw [resolveStaged, MachineTransactionConfig.ofDescription]
      dsimp only
      rw [hfound]
      exact if_pos htype.symm
  · intro machine hmachine entry hentry metric hsome halias flag hflag timestamp seq
    obtain ⟨metricAlias, hmetric⟩ := Option.isSome_iff_exists.mp hsome
    have hfound := find?_coil_self (hpoints machine hmachine) hentry
    refine ⟨?_, ?_⟩
    · rw [decodeDcmdMetrics_single hmetric (halias.symm.trans hmetric), hflag,
        staged_coil (hpoints machine hmachine) hentry]
    · rw [resolveStaged, MachineTransactionConfig.ofDescription]
      dsimp only
      rw [hfound]
  · intro machine hmachine entry hentry metric hsome halias bytes hbytes timestamp seq
    obtain ⟨metricAlias, hmetric⟩ := Option.isSome_iff_exists.mp hsome
    rw [decodeDcmdMetrics_single hmetric (halias.symm.trans hmetric), hbytes,
      staged_fileRecord (hpoints machine hmachine) hentry]
  · intro machine hmachine point hpoint hinput metric hsome halias timestamp seq
    obtain ⟨metricAlias, hmetric⟩ := Option.isSome_iff_exists.mp hsome
    obtain ⟨reason, hrefused⟩ := staged_input (hpoints machine hmachine) hpoint hinput metric.value
    rw [decodeDcmdMetrics_single hmetric (halias.symm.trans hmetric), hrefused]

theorem aliases_identify_pump : AliasesIdentify [pump] (.build [pump]) :=
  aliases_identify_points ⟨[pump], by simp⟩ (by simpa using (by decide : (metricNames pump).Nodup))

/-! ### What they do not identify -/

/-- A tank with a level of 24 bits. -/
def tank : MachineDescription where
  name := "tank"
  unitId := 1
  registers := [⟨"level", 0, .u24, .readWrite, none⟩]
  coils := []
  discreteInputs := []
  inputRegisters := []
  fileRecords := []
  memLayout := .abcd
  inputRegisterMemLayout := .abcd
  serverId := none

/-- A gate with a register and a coil of one name. -/
def gate : MachineDescription where
  name := "gate"
  unitId := 1
  registers := [⟨"open", 0, .u16, .readWrite, none⟩]
  coils := [⟨"open", 0⟩]
  discreteInputs := []
  inputRegisters := []
  fileRecords := []
  memLayout := .abcd
  inputRegisterMemLayout := .abcd
  serverId := none

/-- A value of more than 24 bits stages nothing, and two points of one name share their alias. -/
theorem aliases_refuse_and_collide :
    ((AliasAllocator.build [tank]).aliasFor "tank" "level" = some 0 ∧
      decodeDcmdMetrics tank (.build [tank])
        ⟨none, [⟨"", some 0, none, mapDataType .u24, false, none, .int 0x1000000⟩], none⟩ = .empty) ∧
      ¬((buildMachineMetrics gate (.build [gate]) 0 .new).map Metric.metricAlias).Nodup :=
  ⟨⟨by decide, rfl⟩, by decide⟩

end InfusedModbus.Client
