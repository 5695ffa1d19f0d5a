import InfusedModbus.Client.CommandEntries
import InfusedModbus.Client.Mirror
import InfusedModbus.Client.SetpointValues
import InfusedModbus.Client.WriteTargets

/-! What a command may write. Every request that a command leads to goes to the addressed
machine and writes points that the metrics of the command name, registers, coils and file
records. Neither the access of a register nor the null flag of a metric is looked at on the
way, so the requests are those the description allows exactly when the command asks for
nothing else. -/

namespace InfusedModbus.Client

open Foundation Foundation.Outcome Protocol Datafs Server
open Sparkplug (MetricValue Metric Payload)

section CommandPermission

variable (machine : MachineDescription) (aliases : AliasAllocator)

/-- What a metric stages under a name. -/
def stagedUnder (name : String) (metric : Metric) : Option StagedValue :=
  if commandedName machine aliases metric = some name then
    (metricValueToStagedValue machine name metric.value).toOption
  else none

/-- The metric whose value is the one staged under a name: the last that stages one. -/
def commander (payload : Payload) (name : String) : Option (Metric × StagedValue) :=
  (payload.metrics.filterMap fun metric =>
    (stagedUnder machine aliases name metric).map fun staged => (metric, staged)).getLast?

/-- A staged value is sent to the device, unless a file record's is not of its length. -/
def GoesOut : StagedValue → Prop
  | .fileRecord fileNumber recordNumber value =>
    ∃ fileRecord, machine.fileRecords.find? (fun description =>
        description.fileNumber == fileNumber && description.recordNumber == recordNumber) = some fileRecord ∧
      value.length = fileRecord.recordLength.toNat * 2
  | _ => True

/-- The point has its value from a metric that is not null. -/
def CommandedNonNull (payload : Payload) (name : String) : Prop :=
  ∃ metric staged, commander machine aliases payload name = some (metric, staged) ∧ metric.isNull = false

/-- A point of the machine that may be written, and is asked to be. -/
def Allowed (payload : Payload) : WrittenPoint → Prop
  | .register description => description ∈ machine.registers ∧ description.access = .readWrite ∧
      CommandedNonNull machine aliases payload description.name
  | .coil description => description ∈ machine.coils ∧ CommandedNonNull machine aliases payload description.name
  | .fileRecord stagedName fileNumber recordNumber =>
    (∃ fileRecord ∈ machine.fileRecords, recordKey fileRecord = (fileNumber, recordNumber)) ∧
      parseFileRecordName stagedName = some (fileNumber, recordNumber) ∧
      CommandedNonNull machine aliases payload stagedName

/-- Against any peer the transaction sends its requests to the machine's unit, each writes
the points it is sent for and nothing else, and these are allowed. -/
def WritesOnlyAllowed (payload : Payload) (transaction : List (String × StagedValue)) : Prop :=
  (∀ (peer : Peer) (sent : List (UInt8 × Bytes)) (report : WriteReport), ∃ report',
      processTransaction peer.exchange (.ofDescription machine) transaction sent report =
        .ok (sent ++ (attributedWrites (.ofDescription machine) transaction).map fun request =>
          (machine.unitId, request.2), report')) ∧
    ∀ request ∈ attributedWrites (.ofDescription machine) transaction,
      writeTargets request.2 = request.1.flatMap WrittenPoint.targets ∧
        ∀ point ∈ request.1, Allowed machine aliases payload point

/-- Every metric whose value goes out is not null, and if it goes to a register, to one that
may be written. -/
def AsksOnlyWritable (payload : Payload) : Prop :=
  ∀ name metric staged, commander machine aliases payload name = some (metric, staged) → GoesOut machine staged →
    metric.isNull = false ∧
      ∀ register, machine.registers.find? (fun register => register.name == name) = some register →
        register.access = .readWrite

variable {machine aliases}

/-! ### What is staged -/

/-- What a metric can stage: a value of a register's type, a bit of a coil, or the bytes of
a file record. -/
inductive Stages (machine : MachineDescription) (name : String) : StagedValue → Prop where
  | register (description : RegisterDescription) (value : RegisterValue)
      (hfind : machine.registers.find? (fun register => register.name == name) = some description)
      (htype : value.dataType = description.dataType) : Stages machine name (.register value)
  | coil (description : CoilDescription) (value : CoilValue)
      (hregisters : machine.registers.find? (fun register => register.name == name) = none)
      (hfind : machine.coils.find? (fun coil => coil.name == name) = some description) :
      Stages machine name (.coil value)
  | fileRecord (fileNumber recordNumber : UInt16) (value : Bytes)
      (hregisters : machine.registers.find? (fun register => register.name == name) = none)
      (hname : parseFileRecordName name = some (fileNumber, recordNumber)) :
      Stages machine name (.fileRecord fileNumber recordNumber value)

theorem stages_of_ok {name : String} {value : MetricValue} {staged : StagedValue}
    (h : metricValueToStagedValue machine name value = .ok staged) : Stages machine name staged := by
  unfold metricValueToStagedValue at h
  split at h
  · next description hfind =>
    cases hvalue : metricValueToRegisterValue value description.dataType with
    | error reason =>
      rw [hvalue] at h
      cases h
    | ok registerValue =>
      rw [hvalue] at h
      obtain rfl := Except.ok.inj h
      exact .register description registerValue hfind (metricValueToRegisterValue_eq_ok hvalue).1
  · next hregisters =>
    split at h
    · next hcoil =>
      have hsome : (machine.coils.find? fun coil => coil.name == name).isSome := by
        rw [List.find?_isSome]
        exact List.any_eq_true.mp hcoil
      obtain ⟨description, hfind⟩ := Option.isSome_iff_exists.mp hsome
      split at h
      · obtain rfl := Except.ok.inj h
        exact .coil description _ hregisters hfind
      · cases h
    · split at h
      · cases h
      · split at h
        · next fileNumber recordNumber hname =>
          split at h
          · split at h
            · obtain rfl := Except.ok.inj h
              exact .fileRecord fileNumber recordNumber _ hregisters hname
            · cases h
          · cases h
        · cases h

theorem commander_eq_some {payload : Payload} {name : String} {metric : Metric} {staged : StagedValue}
    (h : commander machine aliases payload name = some (metric, staged)) :
    metric ∈ payload.metrics ∧ commandedName machine aliases metric = some name ∧ Stages machine name staged := by
  obtain ⟨metric', hmem, hmetric⟩ := List.mem_filterMap.mp (List.mem_of_getLast? h)
  obtain ⟨staged', hstaged, heq⟩ := Option.map_eq_some_iff.mp hmetric
  obtain ⟨rfl, rfl⟩ := Prod.mk.inj heq
  unfold stagedUnder at hstaged
  split at hstaged
  · next hname =>
    refine ⟨hmem, hname, ?_⟩
    cases hvalue : metricValueToStagedValue machine name metric'.value with
    | ok value =>
      rw [hvalue] at hstaged
      obtain rfl := Option.some.inj hstaged
      exact stages_of_ok hvalue
    | error reason =>
      rw [hvalue] at hstaged
      cases hstaged
  · cases hstaged

theorem get_stageMetric (staged : Store String StagedValue) (metric : Metric) (name : String) :
    (stageMetric machine aliases staged metric).get name =
      (stagedUnder machine aliases name metric).or (staged.get name) := by
  unfold stageMetric stagedUnder
  split
  · next metricName hname =>
    split
    · next stagedValue hvalue =>
      rw [Store.get_set, hname]
      by_cases heq : name = metricName
      · rw [if_pos heq, heq, if_pos rfl, hvalue]
        rfl
      · rw [if_neg heq, if_neg fun h => heq (Option.some.inj h).symm]
        rfl
    · next reason hvalue =>
      rw [hname]
      by_cases heq : name = metricName
      · rw [heq, if_pos rfl, hvalue]
        rfl
      · rw [if_neg fun h => heq (Option.some.inj h).symm]
        rfl
  · next hname =>
    rw [hname, if_neg (by simp)]
    rfl

/-- Under every name the command stages what its commander does. -/
theorem get_decodeDcmdMetrics (payload : Payload) (name : String) :
    (decodeDcmdMetrics machine aliases payload).get name =
      (commander machine aliases payload name).map Prod.snd := by
  rw [decodeDcmdMetrics_eq, commander]
  induction payload.metrics using List.reverseRecOn with
  | nil => rfl
  | append_singleton metrics metric ih =>
    rw [List.foldl_concat, get_stageMetric, ih, List.filterMap_append, List.getLast?_append]
    cases hstaged : stagedUnder machine aliases name metric with
    | none => simp [hstaged]
    | some staged => simp [hstaged]

/-! ### What goes out -/

/-- The point a staged value is sent for. -/
def pointOf (machine : MachineDescription) (name : String) : StagedValue → Option WrittenPoint
  | .register _ => (machine.registers.find? fun register => register.name == name).map .register
  | .coil _ => (machine.coils.find? fun coil => coil.name == name).map .coil
  | .fileRecord fileNumber recordNumber _ => some (.fileRecord name fileNumber recordNumber)
  | _ => none

/-- The point a resolved write is sent for. -/
def ResolvedWrite.point : ResolvedWrite → Option WrittenPoint
  | .register description _ => some (.register description)
  | .coil description _ => some (.coil description)
  | .maskedRegister description _ _ => some (.register description)
  | .fileRecord stagedName fileNumber recordNumber _ => some (.fileRecord stagedName fileNumber recordNumber)
  | .refused _ _ => none

/-- Of what a command stages only a file record of another length is refused. -/
theorem point_resolveStaged {name : String} {staged : StagedValue} (h : Stages machine name staged)
    {point : WrittenPoint} :
    (resolveStaged (.ofDescription machine) name staged).point = some point ↔
      GoesOut machine staged ∧ pointOf machine name staged = some point := by
  cases h with
  | register description value hfind htype =>
    have hresolved : resolveStaged (.ofDescription machine) name (.register value) = .register description value := by
      rw [resolveStaged, MachineTransactionConfig.ofDescription]
      dsimp only
      rw [hfind]
      exact if_pos htype.symm
    rw [hresolved, pointOf, hfind]
    exact (and_iff_right trivial).symm
  | coil description value hregisters hfind =>
    have hresolved : resolveStaged (.ofDescription machine) name (.coil value) = .coil description value.value := by
      rw [resolveStaged, MachineTransactionConfig.ofDescription]
      dsimp only
      rw [hfind]
    rw [hresolved, pointOf, hfind]
    exact (and_iff_right trivial).symm
  | fileRecord fileNumber recordNumber value hregisters hname =>
    rw [resolveStaged, MachineTransactionConfig.ofDescription, GoesOut, pointOf]
    dsimp only
    split
    · next description hfind =>
      split
      · next hlength => exact (and_iff_right ⟨description, hfind, hlength⟩).symm
      · next hlength =>
        refine iff_of_false (by simp [ResolvedWrite.point]) ?_
        rintro ⟨⟨other, hother, hlength'⟩, -⟩
        obtain rfl := Option.some.inj (hfind.symm.trans hother)
        exact hlength hlength'
    · next hnone =>
      refine iff_of_false (by simp [ResolvedWrite.point]) ?_
      rintro ⟨⟨other, hother, -⟩, -⟩
      rw [hnone] at hother
      cases hother

/-- The points of all batches are those of the items. -/
theorem mem_points_buildBatches {τ : Type} {addressOf sizeOfItem : τ → UInt16} {maxBatchSize : UInt16} {items : List τ}
    {pointOfItem : τ → WrittenPoint} {point : WrittenPoint} :
    point ∈ ((buildBatches addressOf sizeOfItem maxBatchSize items).map fun batch =>
        batch.items.map pointOfItem).flatten ↔ ∃ item ∈ items, pointOfItem item = point := by
  have hpoints : ((buildBatches addressOf sizeOfItem maxBatchSize items).map fun batch =>
      batch.items.map pointOfItem).flatten =
        (items.insertionSort fun a b => addressOf a ≤ addressOf b).map pointOfItem := by
    rw [← @flatMap_items_buildBatches τ addressOf sizeOfItem maxBatchSize, List.map_flatMap, List.flatMap_def]
  rw [hpoints, List.mem_map]
  simp only [List.mem_insertionSort]

section Transaction

variable {payload : Payload} {transaction : List (String × StagedValue)}
  (htransaction : Enumerates transaction (decodeDcmdMetrics machine aliases payload))

include htransaction

theorem mem_transaction_iff {name : String} {staged : StagedValue} :
    (name, staged) ∈ transaction ↔ ∃ metric, commander machine aliases payload name = some (metric, staged) := by
  rw [htransaction.2, get_decodeDcmdMetrics, Option.map_eq_some_iff]
  constructor
  · rintro ⟨⟨metric, staged'⟩, hcommander, rfl⟩
    exact ⟨metric, hcommander⟩
  · rintro ⟨metric, hcommander⟩
    exact ⟨(metric, staged), hcommander, rfl⟩

/-- A command stages no masks. -/
theorem no_maskedRegisterEntries :
    (resolvedWrites (.ofDescription machine) transaction).filterMap ResolvedWrite.asMaskedRegister = [] := by
  rw [List.eq_nil_iff_forall_not_mem]
  intro entry hentry
  obtain ⟨hmem, -⟩ := mem_maskedRegisterEntries hentry
  obtain ⟨metric, hcommander⟩ := (mem_transaction_iff htransaction).mp hmem
  cases (commander_eq_some hcommander).2.2

/-- The rounds of a command. -/
theorem attributedWrites_eq : attributedWrites (.ofDescription machine) transaction =
    sentEachFor (confirmRegisterBatch machine.memLayout) (fun batch => batch.items.map fun entry => .register entry.1)
        (buildRegisterWriteBatches
          ((resolvedWrites (.ofDescription machine) transaction).filterMap ResolvedWrite.asRegister)) ++
      sentEachFor confirmCoilBatch (fun batch => batch.items.map fun entry => .coil entry.1)
        (buildCoilWriteBatches ((resolvedWrites (.ofDescription machine) transaction).filterMap ResolvedWrite.asCoil)) ++
      sentEachFor (fun entry => pure (confirmFileRecordWrite entry.2.1 entry.2.2.1 entry.2.2.2))
        (fun entry => [.fileRecord entry.1 entry.2.1 entry.2.2.1])
        ((resolvedWrites (.ofDescription machine) transaction).filterMap ResolvedWrite.asFileRecord) := by
  simp only [attributedWrites, resolveTransaction_eq, no_maskedRegisterEntries htransaction]
  rw [show sentEachFor (fun entry : RegisterDescription × UInt16 × UInt16 =>
      pure (confirmMaskWrite entry.1 entry.2.1 entry.2.2)) (fun entry => [.register entry.1]) [] = [] from rfl,
    List.append_nil]
  rfl

/-- Every request writes the points it is sent for, and they are those of the writes that
the transaction resolves to. -/
theorem attributedWrites_spec :
    (∀ request ∈ attributedWrites (.ofDescription machine) transaction,
        writeTargets request.2 = request.1.flatMap WrittenPoint.targets) ∧
      ∀ point, (∃ request ∈ attributedWrites (.ofDescription machine) transaction, point ∈ request.1) ↔
        ∃ write ∈ resolvedWrites (.ofDescription machine) transaction, write.point = some point := by
  obtain ⟨hregisters, hregisterTargets⟩ := sentEachFor_of_requestsFor
    fun batch (hbatch : batch ∈ buildRegisterWriteBatches
      ((resolvedWrites (.ofDescription machine) transaction).filterMap ResolvedWrite.asRegister)) =>
    requestsFor_registerBatch machine.memLayout (fun entry hentry => (mem_registerEntries hentry).2.2) hbatch
  obtain ⟨hcoils, hcoilTargets⟩ := sentEachFor_of_requestsFor
    fun batch (hbatch : batch ∈ buildCoilWriteBatches
      ((resolvedWrites (.ofDescription machine) transaction).filterMap ResolvedWrite.asCoil)) =>
    requestsFor_coilBatch hbatch
  obtain ⟨hrecords, hrecordTargets⟩ := sentEachFor_of_requestsFor
    fun entry (hentry : entry ∈
      (resolvedWrites (.ofDescription machine) transaction).filterMap ResolvedWrite.asFileRecord) =>
    show RequestsFor (pure (confirmFileRecordWrite entry.2.1 entry.2.2.1 entry.2.2.2))
        [.fileRecord entry.1 entry.2.1 entry.2.2.1] by
      obtain ⟨-, fileRecord, -, -, hlength⟩ := mem_fileRecordEntries hentry
      exact requestsFor_fileRecord hlength
  rw [attributedWrites_eq htransaction]
  refine ⟨?_, fun point => ?_⟩
  · rw [List.forall_mem_append, List.forall_mem_append]
    exact ⟨⟨hregisterTargets, hcoilTargets⟩, hrecordTargets⟩
  · have hpoint : ∀ requests : List (List WrittenPoint × Bytes),
        (∃ request ∈ requests, point ∈ request.1) ↔ point ∈ (requests.map Prod.fst).flatten := by
      intro requests
      simp only [List.mem_flatten, List.mem_map, exists_exists_and_eq_and]
    rw [hpoint, List.map_append, List.map_append, hregisters, hcoils, hrecords, List.flatten_append, List.flatten_append,
      List.mem_append, List.mem_append, buildRegisterWriteBatches, mem_points_buildBatches, buildCoilWriteBatches,
      mem_points_buildBatches]
    constructor
    · rintro ((⟨entry, hentry, rfl⟩ | ⟨entry, hentry, rfl⟩) | hrecord)
      · obtain ⟨write, hwrite, hkind⟩ := List.mem_filterMap.mp hentry
        refine ⟨write, hwrite, ?_⟩
        cases write with
        | register description value =>
          obtain rfl := Option.some.inj hkind
          rfl
        | coil | maskedRegister | fileRecord | refused => cases hkind
      · obtain ⟨write, hwrite, hkind⟩ := List.mem_filterMap.mp hentry
        refine ⟨write, hwrite, ?_⟩
        cases write with
        | coil description value =>
          obtain rfl := Option.some.inj hkind
          rfl
        | register | maskedRegister | fileRecord | refused => cases hkind
      · obtain ⟨points, hpoints, hin⟩ := List.mem_flatten.mp hrecord
        obtain ⟨entry, hentry, rfl⟩ := List.mem_map.mp hpoints
        obtain rfl := List.mem_singleton.mp hin
        obtain ⟨write, hwrite, hkind⟩ := List.mem_filterMap.mp hentry
        refine ⟨write, hwrite, ?_⟩
        cases write with
        | fileRecord stagedName fileNumber recordNumber value =>
          obtain rfl := Option.some.inj hkind
          rfl
        | register | coil | maskedRegister | refused => cases hkind
    · rintro ⟨write, hwrite, hkind⟩
      cases write with
      | register description value =>
        exact Or.inl (Or.inl ⟨(description, value), List.mem_filterMap.mpr ⟨_, hwrite, rfl⟩, Option.some.inj hkind⟩)
      | coil description value =>
        exact Or.inl (Or.inr ⟨(description, value), List.mem_filterMap.mpr ⟨_, hwrite, rfl⟩, Option.some.inj hkind⟩)
      | maskedRegister description andMask orMask =>
        have hmask := List.mem_filterMap.mpr ⟨_, hwrite, show ResolvedWrite.asMaskedRegister _ = some _ from rfl⟩
        rw [no_maskedRegisterEntries htransaction] at hmask
        exact (List.not_mem_nil hmask).elim
      | fileRecord stagedName fileNumber recordNumber value =>
        refine Or.inr (List.mem_flatten.mpr ⟨_, List.mem_map.mpr
          ⟨(stagedName, fileNumber, recordNumber, value), List.mem_filterMap.mpr ⟨_, hwrite, rfl⟩, rfl⟩, ?_⟩)
        rw [← Option.some.inj hkind]
        exact List.mem_singleton_self _
      | refused stagedName reason => cases hkind

/-- The points that requests are sent for are those whose commanders' values go out. -/
theorem written_iff_commander {point : WrittenPoint} :
    (∃ request ∈ attributedWrites (.ofDescription machine) transaction, point ∈ request.1) ↔
      ∃ name metric staged, commander machine aliases payload name = some (metric, staged) ∧ GoesOut machine staged ∧
        pointOf machine name staged = some point := by
  rw [(attributedWrites_spec htransaction).2]
  constructor
  · rintro ⟨write, hwrite, hpoint⟩
    obtain ⟨⟨name, staged⟩, hmem, rfl⟩ := List.mem_map.mp hwrite
    obtain ⟨metric, hcommander⟩ := (mem_transaction_iff htransaction).mp hmem
    exact ⟨name, metric, staged, hcommander, (point_resolveStaged (commander_eq_some hcommander).2.2).mp hpoint⟩
  · rintro ⟨name, metric, staged, hcommander, hgoes⟩
    have hmem := (mem_transaction_iff htransaction).mpr ⟨metric, hcommander⟩
    exact ⟨_, List.mem_map_of_mem hmem, (point_resolveStaged (commander_eq_some hcommander).2.2).mpr hgoes⟩

end Transaction

theorem commandedNonNull_iff {payload : Payload} {name : String} {metric : Metric} {staged : StagedValue}
    (h : commander machine aliases payload name = some (metric, staged)) :
    CommandedNonNull machine aliases payload name ↔ metric.isNull = false := by
  constructor
  · rintro ⟨metric', staged', hcommander, hnull⟩
    obtain ⟨rfl, -⟩ := Prod.mk.inj (Option.some.inj (h.symm.trans hcommander))
    exact hnull
  · exact fun hnull => ⟨metric, staged, h, hnull⟩

/-- A point that is written is allowed exactly when its commander is not null and its
access, if it is a register, is to write. -/
theorem allowed_iff {payload : Payload} {name : String} {metric : Metric} {staged : StagedValue} {point : WrittenPoint}
    (hcommander : commander machine aliases payload name = some (metric, staged)) (hgoes : GoesOut machine staged)
    (hpoint : pointOf machine name staged = some point) :
    Allowed machine aliases payload point ↔ metric.isNull = false ∧
      ∀ register, machine.registers.find? (fun register => register.name == name) = some register →
        register.access = .readWrite := by
  have hnull := commandedNonNull_iff hcommander
  cases (commander_eq_some hcommander).2.2 with
  | register description value hfind htype =>
    rw [pointOf, hfind] at hpoint
    obtain rfl := Option.some.inj hpoint
    have hname : description.name = name := by simpa using List.find?_some hfind
    rw [Allowed, hname, hnull, hfind]
    constructor
    · rintro ⟨-, haccess, hnonNull⟩
      refine ⟨hnonNull, fun register hregister => ?_⟩
      rwa [← Option.some.inj hregister]
    · rintro ⟨hnonNull, haccess⟩
      exact ⟨List.mem_of_find?_eq_some hfind, haccess description rfl, hnonNull⟩
  | coil description value hregisters hfind =>
    rw [pointOf, hfind] at hpoint
    obtain rfl := Option.some.inj hpoint
    have hname : description.name = name := by simpa using List.find?_some hfind
    rw [Allowed, hname, hnull, hregisters]
    constructor
    · rintro ⟨-, hnonNull⟩
      exact ⟨hnonNull, fun register hregister => by cases hregister⟩
    · rintro ⟨hnonNull, -⟩
      exact ⟨List.mem_of_find?_eq_some hfind, hnonNull⟩
  | fileRecord fileNumber recordNumber value hregisters hname =>
    obtain rfl := Option.some.inj hpoint
    rw [Allowed, hnull, hregisters]
    constructor
    · rintro ⟨-, -, hnonNull⟩
      exact ⟨hnonNull, fun register hregister => by cases hregister⟩
    · rintro ⟨hnonNull, -⟩
      obtain ⟨fileRecord, hfind, -⟩ := hgoes
      have hkey := List.find?_some hfind
      rw [Bool.and_eq_true, beq_iff_eq, beq_iff_eq] at hkey
      exact ⟨⟨fileRecord, List.mem_of_find?_eq_some hfind, Prod.ext hkey.1 hkey.2⟩, hname, hnonNull⟩

/-- What a command stages has a point. -/
theorem exists_pointOf {name : String} {staged : StagedValue} (h : Stages machine name staged) :
    ∃ point, pointOf machine name staged = some point := by
  cases h with
  | register description value hfind htype => exact ⟨.register description, by rw [pointOf, hfind]; rfl⟩
  | coil description value hregisters hfind => exact ⟨.coil description, by rw [pointOf, hfind]; rfl⟩
  | fileRecord fileNumber recordNumber value hregisters hname => exact ⟨_, rfl⟩

/-- The requests of a command write only what the description and the metrics allow exactly
when the values that go out are of metrics that are not null and go to no register that may
only be read. -/
theorem command_writes_allowed_iff {payload : Payload} {transaction : List (String × StagedValue)}
    (htransaction : Enumerates transaction (decodeDcmdMetrics machine aliases payload)) :
    WritesOnlyAllowed machine aliases payload transaction ↔ AsksOnlyWritable machine aliases payload := by
  constructor
  · rintro ⟨-, hwrites⟩ name metric staged hcommander hgoes
    obtain ⟨point, hpoint⟩ := exists_pointOf (commander_eq_some hcommander).2.2
    obtain ⟨request, hrequest, hin⟩ :=
      (written_iff_commander htransaction).mpr ⟨name, metric, staged, hcommander, hgoes, hpoint⟩
    exact (allowed_iff hcommander hgoes hpoint).mp ((hwrites request hrequest).2 point hin)
  · intro hasks
    refine ⟨fun peer sent report => ?_, fun request hrequest =>
      ⟨(attributedWrites_spec htransaction).1 request hrequest, fun point hin => ?_⟩⟩
    · obtain ⟨report', h⟩ := processTransaction_peer peer (.ofDescription machine) transaction sent report
      refine ⟨report', ?_⟩
      rw [h, ← map_snd_attributedWrites, List.map_map]
      rfl
    · obtain ⟨name, metric, staged, hcommander, hgoes, hpoint⟩ :=
        (written_iff_commander htransaction).mp ⟨request, hrequest, hin⟩
      exact (allowed_iff hcommander hgoes hpoint).mpr (hasks name metric staged hcommander hgoes)

end CommandPermission

/-- The strokes of the pump may be set, and are asked to be. -/
theorem command_writes_allowed_iff_strokes :
    WritesOnlyAllowed pump (.build [pump]) ⟨none, [⟨"strokes", none, none, .uint32, false, none, .int 7⟩], none⟩
      [("strokes", .register (.u32 7))] := by
  have hstaged : decodeDcmdMetrics pump (.build [pump])
      ⟨none, [⟨"strokes", none, none, .uint32, false, none, .int 7⟩], none⟩ =
        Store.empty.set "strokes" (.register (.u32 7)) := rfl
  refine (command_writes_allowed_iff (hstaged ▸ enumerates_singleton.mpr rfl)).mpr ?_
  intro name metric staged hcommander _
  obtain ⟨hmem, hname, -⟩ := commander_eq_some hcommander
  obtain rfl := List.mem_singleton.mp hmem
  obtain rfl : "strokes" = name := Option.some.inj (show some "strokes" = some name from hname)
  refine ⟨rfl, fun register hregister => ?_⟩
  obtain rfl := Option.some.inj (show some (⟨"strokes", 10, .u32, .readWrite, none⟩ : RegisterDescription) = _ from hregister)
  rfl

/-- The pressure may only be read, and is written all the same. -/
theorem command_writes_pressure :
    ∃ transaction, Enumerates transaction (decodeDcmdMetrics pump (.build [pump])
        ⟨none, [⟨"pressure", none, none, .uint16, false, none, .int 5⟩], none⟩) ∧
      sentWrites (.ofDescription pump) transaction = [[6, 0, 12, 0, 5]] ∧
      ¬WritesOnlyAllowed pump (.build [pump]) ⟨none, [⟨"pressure", none, none, .uint16, false, none, .int 5⟩], none⟩
        transaction := by
  have hstaged : decodeDcmdMetrics pump (.build [pump])
      ⟨none, [⟨"pressure", none, none, .uint16, false, none, .int 5⟩], none⟩ =
        Store.empty.set "pressure" (.register (.u16 5)) := rfl
  have htransaction : Enumerates [("pressure", StagedValue.register (.u16 5))] (decodeDcmdMetrics pump (.build [pump])
      ⟨none, [⟨"pressure", none, none, .uint16, false, none, .int 5⟩], none⟩) :=
    hstaged ▸ enumerates_singleton.mpr rfl
  refine ⟨_, htransaction, by decide, ?_⟩
  rintro ⟨-, hwrites⟩
  obtain ⟨request, hrequest, hin⟩ := (written_iff_commander htransaction).mpr
    ⟨"pressure", _, _, rfl, trivial, rfl⟩
  obtain ⟨-, haccess, -⟩ := (hwrites request hrequest).2 _ hin
  exact absurd haccess (by decide)

end InfusedModbus.Client
