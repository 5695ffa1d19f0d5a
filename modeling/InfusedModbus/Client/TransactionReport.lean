import InfusedModbus.Client.Mirror
import InfusedModbus.Client.TransactionWrites
import Mathlib.Data.List.Perm.Basic

/-! The report of a transaction against the server is true. The names of a transaction are
split among what is refused at once and the four rounds, so each is reported exactly once;
and a round's status tells whether the server holds what was staged. -/

namespace InfusedModbus.Client

open Foundation Foundation.Outcome Protocol Datafs Server

/-! ### Where the names go -/

namespace ResolvedWrite

/-- The name it is reported under. -/
def name : ResolvedWrite → String
  | .register description _ => description.name
  | .coil description _ => description.name
  | .maskedRegister description _ _ => description.name
  | .fileRecord stagedName _ _ _ => stagedName
  | .refused stagedName _ => stagedName

def asRegister : ResolvedWrite → Option (RegisterDescription × RegisterValue)
  | .register description value => some (description, value)
  | _ => none

def asCoil : ResolvedWrite → Option (CoilDescription × Bool)
  | .coil description value => some (description, value)
  | _ => none

def asMaskedRegister : ResolvedWrite → Option (RegisterDescription × UInt16 × UInt16)
  | .maskedRegister description andMask orMask => some (description, andMask, orMask)
  | _ => none

def asFileRecord : ResolvedWrite → Option (String × UInt16 × UInt16 × Bytes)
  | .fileRecord stagedName fileNumber recordNumber value => some (stagedName, fileNumber, recordNumber, value)
  | _ => none

def asRefused : ResolvedWrite → Option (String × WriteStatus)
  | .refused stagedName reason => some (stagedName, .failed reason)
  | _ => none

/-- The loop sorts the writes by kind, each kind in the order of the transaction. -/
theorem foldl_push (writes : List ResolvedWrite) (resolution : Resolution) :
    writes.foldl Resolution.push resolution =
      ⟨resolution.registerEntries ++ writes.filterMap asRegister, resolution.coilEntries ++ writes.filterMap asCoil,
        resolution.maskedRegisterEntries ++ writes.filterMap asMaskedRegister,
        resolution.fileRecordEntries ++ writes.filterMap asFileRecord,
        resolution.report.setAll (writes.filterMap asRefused)⟩ := by
  induction writes generalizing resolution with
  | nil => simp
  | cons write writes ih =>
    rw [List.foldl_cons, ih]
    cases write <;>
      simp [Resolution.push, asRegister, asCoil, asMaskedRegister, asFileRecord, asRefused, List.filterMap_cons]

/-- Every name is in exactly one of the kinds. -/
theorem names_perm (writes : List ResolvedWrite) :
    (writes.map name).Perm
      ((writes.filterMap asRefused).map Prod.fst ++ (writes.filterMap asRegister).map (fun entry => entry.1.name) ++
        (writes.filterMap asCoil).map (fun entry => entry.1.name) ++
        (writes.filterMap asMaskedRegister).map (fun entry => entry.1.name) ++
        (writes.filterMap asFileRecord).map Prod.fst) := by
  rw [List.perm_iff_count]
  intro n
  simp only [List.count_append]
  induction writes with
  | nil => rfl
  | cons write writes ih =>
    rw [List.map_cons]
    cases write <;>
      simp only [name, asRegister, asCoil, asMaskedRegister, asFileRecord, asRefused, List.filterMap_cons,
        List.map_cons] <;>
      rw [List.count_cons, ih, List.count_cons] <;> omega

end ResolvedWrite

section Resolve

variable {config : MachineTransactionConfig} {stagedName : String}

/-- What a staged value resolves to: a write of it to the described point, or a refusal. -/
inductive Resolves (config : MachineTransactionConfig) (stagedName : String) : StagedValue → ResolvedWrite → Prop where
  | register (description : RegisterDescription) (value : RegisterValue) (hmem : description ∈ config.registers)
      (hname : description.name = stagedName) (htype : description.dataType = value.dataType) :
      Resolves config stagedName (.register value) (.register description value)
  | coil (description : CoilDescription) (value : CoilValue) (hmem : description ∈ config.coils)
      (hname : description.name = stagedName) :
      Resolves config stagedName (.coil value) (.coil description value.value)
  | maskedRegister (description : RegisterDescription) (andMask orMask : UInt16)
      (hmem : description ∈ config.registers) (hname : description.name = stagedName) :
      Resolves config stagedName (.maskedRegister andMask orMask) (.maskedRegister description andMask orMask)
  | fileRecord (description : FileRecordDescription) (value : Bytes) (hmem : description ∈ config.fileRecords)
      (hlength : value.length = description.recordLength.toNat * 2) :
      Resolves config stagedName (.fileRecord description.fileNumber description.recordNumber value)
        (.fileRecord stagedName description.fileNumber description.recordNumber value)
  | refused (staged : StagedValue) (reason : String) : Resolves config stagedName staged (.refused stagedName reason)

theorem resolves_resolveStaged (staged : StagedValue) :
    Resolves config stagedName staged (resolveStaged config stagedName staged) := by
  cases staged with
  | discreteInput value => exact .refused _ _
  | inputRegister value => exact .refused _ _
  | register value =>
    rw [resolveStaged]
    split
    · next description hfind =>
      split
      · next htype =>
        exact .register _ _ (List.mem_of_find?_eq_some hfind) (eq_of_beq (List.find?_some hfind :)) htype
      · exact .refused _ _
    · exact .refused _ _
  | coil value =>
    rw [resolveStaged]
    split
    · next description hfind =>
      exact .coil _ _ (List.mem_of_find?_eq_some hfind) (eq_of_beq (List.find?_some hfind :))
    · exact .refused _ _
  | maskedRegister andMask orMask =>
    rw [resolveStaged]
    split
    · next description hfind =>
      split
      · exact .maskedRegister _ _ _ (List.mem_of_find?_eq_some hfind) (eq_of_beq (List.find?_some hfind :))
      · exact .refused _ _
    · exact .refused _ _
  | fileRecord fileNumber recordNumber value =>
    rw [resolveStaged]
    split
    · next description hfind =>
      have hkey := List.find?_some hfind
      rw [Bool.and_eq_true, beq_iff_eq, beq_iff_eq] at hkey
      obtain ⟨rfl, rfl⟩ := hkey
      split
      · next hlength => exact .fileRecord _ _ (List.mem_of_find?_eq_some hfind) hlength
      · exact .refused _ _
    · exact .refused _ _

theorem Resolves.name_eq {staged : StagedValue} {write : ResolvedWrite} (h : Resolves config stagedName staged write) :
    write.name = stagedName := by
  cases h with
  | register description value hmem hname htype => exact hname
  | coil description value hmem hname => exact hname
  | maskedRegister description andMask orMask hmem hname => exact hname
  | fileRecord description value hmem hlength => rfl
  | refused staged reason => rfl

end Resolve

section Entries

variable {config : MachineTransactionConfig} {transaction : List (String × StagedValue)}

/-- The writes a transaction resolves to. -/
def resolvedWrites (config : MachineTransactionConfig) (transaction : List (String × StagedValue)) :
    List ResolvedWrite :=
  transaction.map fun staged => resolveStaged config staged.1 staged.2

/-- They are called what the transaction calls them. -/
theorem map_name_resolvedWrites : (resolvedWrites config transaction).map ResolvedWrite.name = transaction.map Prod.fst := by
  rw [resolvedWrites, List.map_map]
  apply List.map_congr_left
  intro staged _
  exact (resolves_resolveStaged staged.2).name_eq

theorem mem_resolvedWrites {write : ResolvedWrite} (h : write ∈ resolvedWrites config transaction) :
    ∃ stagedName staged, (stagedName, staged) ∈ transaction ∧ Resolves config stagedName staged write := by
  obtain ⟨⟨stagedName, staged⟩, hmem, rfl⟩ := List.mem_map.mp h
  exact ⟨stagedName, staged, hmem, resolves_resolveStaged staged⟩

/-- A register to write was staged with this value, which is of its type. -/
theorem mem_registerEntries {entry : RegisterDescription × RegisterValue}
    (h : entry ∈ (resolvedWrites config transaction).filterMap ResolvedWrite.asRegister) :
    (entry.1.name, .register entry.2) ∈ transaction ∧ entry.1 ∈ config.registers ∧
      entry.1.dataType = entry.2.dataType := by
  obtain ⟨write, hwrite, hentry⟩ := List.mem_filterMap.mp h
  obtain ⟨stagedName, staged, hmem, hresolves⟩ := mem_resolvedWrites hwrite
  cases hresolves with
  | register description value hdescription hname htype =>
    obtain rfl := Option.some.inj hentry
    obtain rfl := hname
    exact ⟨hmem, hdescription, htype⟩
  | coil | maskedRegister | fileRecord | refused => cases hentry

theorem mem_coilEntries {entry : CoilDescription × Bool}
    (h : entry ∈ (resolvedWrites config transaction).filterMap ResolvedWrite.asCoil) :
    (entry.1.name, .coil ⟨entry.2⟩) ∈ transaction ∧ entry.1 ∈ config.coils := by
  obtain ⟨write, hwrite, hentry⟩ := List.mem_filterMap.mp h
  obtain ⟨stagedName, staged, hmem, hresolves⟩ := mem_resolvedWrites hwrite
  cases hresolves with
  | coil description value hdescription hname =>
    obtain rfl := Option.some.inj hentry
    obtain rfl := hname
    exact ⟨hmem, hdescription⟩
  | register | maskedRegister | fileRecord | refused => cases hentry

theorem mem_maskedRegisterEntries {entry : RegisterDescription × UInt16 × UInt16}
    (h : entry ∈ (resolvedWrites config transaction).filterMap ResolvedWrite.asMaskedRegister) :
    (entry.1.name, .maskedRegister entry.2.1 entry.2.2) ∈ transaction ∧ entry.1 ∈ config.registers := by
  obtain ⟨write, hwrite, hentry⟩ := List.mem_filterMap.mp h
  obtain ⟨stagedName, staged, hmem, hresolves⟩ := mem_resolvedWrites hwrite
  cases hresolves with
  | maskedRegister description andMask orMask hdescription hname =>
    obtain rfl := Option.some.inj hentry
    obtain rfl := hname
    exact ⟨hmem, hdescription⟩
  | register | coil | fileRecord | refused => cases hentry

/-- A file record to write was staged with its numbers, and has the declared length. -/
theorem mem_fileRecordEntries {entry : String × UInt16 × UInt16 × Bytes}
    (h : entry ∈ (resolvedWrites config transaction).filterMap ResolvedWrite.asFileRecord) :
    (entry.1, .fileRecord entry.2.1 entry.2.2.1 entry.2.2.2) ∈ transaction ∧
      ∃ fileRecord ∈ config.fileRecords, recordKey fileRecord = (entry.2.1, entry.2.2.1) ∧
        entry.2.2.2.length = fileRecord.recordLength.toNat * 2 := by
  obtain ⟨write, hwrite, hentry⟩ := List.mem_filterMap.mp h
  obtain ⟨stagedName, staged, hmem, hresolves⟩ := mem_resolvedWrites hwrite
  cases hresolves with
  | fileRecord description value hdescription hlength =>
    obtain rfl := Option.some.inj hentry
    exact ⟨hmem, description, hdescription, rfl, hlength⟩
  | register | coil | maskedRegister | refused => cases hentry

/-- Everything staged is written or refused. -/
theorem resolves_of_mem {stagedName : String} {staged : StagedValue} (h : (stagedName, staged) ∈ transaction) :
    ∃ write ∈ resolvedWrites config transaction, Resolves config stagedName staged write :=
  ⟨_, List.mem_map_of_mem h, resolves_resolveStaged staged⟩

end Entries

/-! ### Rounds -/

section Rounds

variable {β : Type}

/-- What a round reports: for each write its status, under all its names. -/
def reportEntries (names : β → List String) (done : List (β × WriteStatus)) : List (String × WriteStatus) :=
  done.flatMap fun write => (names write.1).map fun name => (name, write.2)

theorem map_fst_reportEntries (names : β → List String) (done : List (β × WriteStatus)) :
    (reportEntries names done).map Prod.fst = (done.map Prod.fst).flatMap names := by
  rw [reportEntries, List.map_flatMap, List.flatMap_map]
  apply List.flatMap_congr
  intro write _
  rw [List.map_map]
  exact List.map_id _

theorem mem_reportEntries {names : β → List String} {done : List (β × WriteStatus)} {write : β × WriteStatus}
    (hwrite : write ∈ done) {name : String} (hname : name ∈ names write.1) : (name, write.2) ∈ reportEntries names done :=
  List.mem_flatMap.mpr ⟨write, hwrite, List.mem_map.mpr ⟨name, hname, rfl⟩⟩

/-- When every write of a round is a job on a store, so is the round a list of jobs, and
it reports their outcomes. -/
theorem confirmEach_of_jobs {σ κ ν : Type} {request : Exchange σ} {unitId : UInt8}
    {confirmation : β → Outcome Empty Confirmation} {names : β → List String} {keys : β → List κ}
    {entries : β → List (κ × ν)} {put : Store κ ν → σ} {writes : List β}
    (h : ∀ write ∈ writes, ∃ confirming, confirmation write = .ok confirming ∧ ∀ s, ∃ status s',
      confirming.run request unitId (put s) = (.ok status, put s') ∧
        JobStep keys entries (· = WriteStatus.ok) write status s s')
    (s : Store κ ν) (report : WriteReport) : ∃ done s', done.map Prod.fst = writes ∧
      confirmEach request unitId confirmation names writes (put s) report =
        .ok (put s', report.setAll (reportEntries names done)) ∧
      JobSteps keys entries (· = WriteStatus.ok) done s s' := by
  induction writes generalizing s report with
  | nil => exact ⟨[], s, rfl, rfl, rfl⟩
  | cons write writes ih =>
    obtain ⟨confirming, hconfirming, hjob⟩ := h write List.mem_cons_self
    obtain ⟨status, s₁, hrun, hstep⟩ := hjob s
    obtain ⟨done, s', hdone, hrest, hsteps⟩ := ih (fun other hother => h other (List.mem_cons_of_mem _ hother)) s₁
      (report.setAll ((names write).map fun name => (name, status)))
    refine ⟨(write, status) :: done, s', ?_, ?_, s₁, hstep, hsteps⟩
    · rw [List.map_cons, hdone]
    · rw [confirmEach, hconfirming, ok_bind, hrun]
      dsimp only
      rw [hrest, reportEntries, reportEntries, List.flatMap_cons, Store.setAll_append]

end Rounds

/-! ### A whole transaction -/

/-- The four rounds of a transaction at a machine: their writes with the statuses they got,
and what they left in its stores. -/
structure Rounds (config : MachineTransactionConfig) (transaction : List (String × StagedValue))
    (machine : ServerMachineState) where
  registers : List (Batch (RegisterDescription × RegisterValue) × WriteStatus)
  coils : List (Batch (CoilDescription × Bool) × WriteStatus)
  maskedRegisters : List ((RegisterDescription × UInt16 × UInt16) × WriteStatus)
  fileRecords : List ((String × UInt16 × UInt16 × Bytes) × WriteStatus)
  unmasked : RegisterStore
  store : RegisterStore
  coilStore : CoilStore
  fileRecordStore : FileRecordStore
  registers_eq : registers.map Prod.fst =
    buildRegisterWriteBatches ((resolvedWrites config transaction).filterMap ResolvedWrite.asRegister)
  coils_eq : coils.map Prod.fst =
    buildCoilWriteBatches ((resolvedWrites config transaction).filterMap ResolvedWrite.asCoil)
  maskedRegisters_eq : maskedRegisters.map Prod.fst =
    (resolvedWrites config transaction).filterMap ResolvedWrite.asMaskedRegister
  fileRecords_eq : fileRecords.map Prod.fst = (resolvedWrites config transaction).filterMap ResolvedWrite.asFileRecord
  registers_steps : JobSteps (batchNames RegisterDescription.name) (fun batch => storeWrites batch.items)
    (· = WriteStatus.ok) registers machine.store unmasked
  coils_steps : JobSteps (batchNames CoilDescription.name) (fun batch => storeCoils batch.items)
    (· = WriteStatus.ok) coils machine.coilStore coilStore
  maskedRegisters_steps : JobSteps (fun entry => [entry.1.name]) (fun _ => []) (· = WriteStatus.ok) maskedRegisters
    unmasked store
  fileRecords_steps : JobSteps (fun entry => [(entry.2.1, entry.2.2.1)])
    (fun entry => [((entry.2.1, entry.2.2.1), entry.2.2.2)]) (· = WriteStatus.ok) fileRecords machine.fileRecordStore
    fileRecordStore

namespace Rounds

variable {config : MachineTransactionConfig} {transaction : List (String × StagedValue)}
  {machine : ServerMachineState} (rounds : Rounds config transaction machine)

/-- The machine after the rounds. -/
def machineAfter : ServerMachineState :=
  { machine with
    store := rounds.store, coilStore := rounds.coilStore, fileRecordStore := rounds.fileRecordStore }

/-- All that is reported, in order. -/
def reported : List (String × WriteStatus) :=
  (resolvedWrites config transaction).filterMap ResolvedWrite.asRefused ++
    reportEntries (batchNames RegisterDescription.name) rounds.registers ++
    reportEntries (batchNames CoilDescription.name) rounds.coils ++
    reportEntries (fun entry => [entry.1.name]) rounds.maskedRegisters ++
    reportEntries (fun entry => [entry.1]) rounds.fileRecords

/-- Each staged name is reported once, and nothing else is. -/
theorem map_fst_reported_perm : (rounds.reported.map Prod.fst).Perm (transaction.map Prod.fst) := by
  have hbatches : ∀ {ρ ν : Type} (addressOf sizeOfItem : ρ × ν → UInt16) (maxBatchSize : UInt16) (name : ρ → String)
      (items : List (ρ × ν)), ((buildBatches addressOf sizeOfItem maxBatchSize items).flatMap (batchNames name)).Perm
        (items.map fun entry => name entry.1) := by
    intro ρ ν addressOf sizeOfItem maxBatchSize name items
    rw [← List.map_flatMap, flatMap_items_buildBatches]
    exact (List.perm_insertionSort _ items).map _
  have hnames := ResolvedWrite.names_perm (resolvedWrites config transaction)
  rw [map_name_resolvedWrites] at hnames
  refine List.Perm.trans ?_ hnames.symm
  simp only [reported, List.map_append, map_fst_reportEntries, rounds.registers_eq, rounds.coils_eq,
    rounds.maskedRegisters_eq, rounds.fileRecords_eq]
  apply List.Perm.append
  · apply List.Perm.append
    · apply List.Perm.append
      · apply List.Perm.append
        · rfl
        · apply hbatches
      · apply hbatches
    · rw [List.map_eq_flatMap]
  · rw [List.map_eq_flatMap]

variable {rounds}

theorem get_report (hnames : (transaction.map Prod.fst).Nodup) (report : WriteReport) {name : String}
    {status : WriteStatus} (h : (name, status) ∈ rounds.reported) :
    (report.setAll rounds.reported).get name = some status :=
  Store.get_setAll_of_mem report (rounds.map_fst_reported_perm.nodup_iff.mpr hnames) h

end Rounds

theorem resolveTransaction_eq (config : MachineTransactionConfig) (transaction : List (String × StagedValue))
    (report : WriteReport) :
    resolveTransaction config transaction report =
      ⟨(resolvedWrites config transaction).filterMap ResolvedWrite.asRegister,
        (resolvedWrites config transaction).filterMap ResolvedWrite.asCoil,
        (resolvedWrites config transaction).filterMap ResolvedWrite.asMaskedRegister,
        (resolvedWrites config transaction).filterMap ResolvedWrite.asFileRecord,
        report.setAll ((resolvedWrites config transaction).filterMap ResolvedWrite.asRefused)⟩ := by
  rw [resolveTransaction, ResolvedWrite.foldl_push]
  rfl

/-- The four rounds one after another. -/
theorem processTransaction_eq_ok {σ : Type} {request : Exchange σ} {config : MachineTransactionConfig}
    {transaction : List (String × StagedValue)} {connection c₁ c₂ c₃ c₄ : σ} {report r₁ r₂ r₃ r₄ : WriteReport}
    {resolution : Resolution} (hresolution : resolveTransaction config transaction report = resolution)
    (h₁ : confirmEach request config.unitId (confirmRegisterBatch config.memLayout)
      (batchNames RegisterDescription.name) (buildRegisterWriteBatches resolution.registerEntries) connection
      resolution.report = .ok (c₁, r₁))
    (h₂ : confirmEach request config.unitId confirmCoilBatch (batchNames CoilDescription.name)
      (buildCoilWriteBatches resolution.coilEntries) c₁ r₁ = .ok (c₂, r₂))
    (h₃ : confirmEach request config.unitId (fun entry => pure (confirmMaskWrite entry.1 entry.2.1 entry.2.2))
      (fun entry => [entry.1.name]) resolution.maskedRegisterEntries c₂ r₂ = .ok (c₃, r₃))
    (h₄ : confirmEach request config.unitId
      (fun entry => pure (confirmFileRecordWrite entry.2.1 entry.2.2.1 entry.2.2.2)) (fun entry => [entry.1])
      resolution.fileRecordEntries c₃ r₃ = .ok (c₄, r₄)) :
    processTransaction request config transaction connection report = .ok (c₄, r₄) := by
  rw [processTransaction, hresolution]
  dsimp only
  rw [h₁, ok_bind]
  dsimp only
  rw [h₂, ok_bind]
  dsimp only
  rw [h₃, ok_bind]
  exact h₄

section Server

variable {serverOptions : ServerOptions} {tomlSource : String} {fc43BulkTransfer : Fc43BulkTransfer}
  {machines : Machines} {machine : ServerMachineState} {description : MachineDescription}
  {transaction : List (String × StagedValue)}

theorem registerRound_of_server (henabled : WritesEnabled serverOptions) (hflat : FlatDescription description)
    (hregisters : machine.registers = description.registers) (hlayout : machine.memLayout = description.memLayout)
    {entries : List (RegisterDescription × RegisterValue)}
    (hentries : entries = (resolvedWrites (.ofDescription description) transaction).filterMap ResolvedWrite.asRegister)
    (hnames : (entries.map fun entry => entry.1.name).Nodup) (report : WriteReport) :
    ∃ done s', done.map Prod.fst = buildRegisterWriteBatches entries ∧
      confirmEach (serverExchange serverOptions tomlSource fc43BulkTransfer) description.unitId
          (confirmRegisterBatch description.memLayout) (batchNames RegisterDescription.name)
          (buildRegisterWriteBatches entries) (machines.set description.unitId machine) report =
        .ok (machines.set description.unitId { machine with store := s' },
          report.setAll (reportEntries (batchNames RegisterDescription.name) done)) ∧
      JobSteps (batchNames RegisterDescription.name) (fun batch => storeWrites batch.items) (· = WriteStatus.ok) done
        machine.store s' := by
  apply @confirmEach_of_jobs _ _ _ _ _ _ _ _ _ _
    (fun s => machines.set description.unitId { machine with store := s })
  intro batch hbatch
  apply job_of_registerBatch hflat hregisters hlayout henabled _ hnames hbatch
  intro entry hentry
  exact (mem_registerEntries (hentries ▸ hentry)).2

theorem coilRound_of_server (henabled : WritesEnabled serverOptions) (hflat : FlatDescription description)
    (hcoils : machine.coils = description.coils) {entries : List (CoilDescription × Bool)}
    (hentries : entries = (resolvedWrites (.ofDescription description) transaction).filterMap ResolvedWrite.asCoil)
    (hnames : (entries.map fun entry => entry.1.name).Nodup) (report : WriteReport) :
    ∃ done s', done.map Prod.fst = buildCoilWriteBatches entries ∧
      confirmEach (serverExchange serverOptions tomlSource fc43BulkTransfer) description.unitId confirmCoilBatch
          (batchNames CoilDescription.name) (buildCoilWriteBatches entries)
          (machines.set description.unitId machine) report =
        .ok (machines.set description.unitId { machine with coilStore := s' },
          report.setAll (reportEntries (batchNames CoilDescription.name) done)) ∧
      JobSteps (batchNames CoilDescription.name) (fun batch => storeCoils batch.items) (· = WriteStatus.ok) done
        machine.coilStore s' := by
  apply @confirmEach_of_jobs _ _ _ _ _ _ _ _ _ _
    (fun s => machines.set description.unitId { machine with coilStore := s })
  intro batch hbatch
  apply job_of_coilBatch hflat hcoils henabled _ hnames hbatch
  intro entry hentry
  exact (mem_coilEntries (hentries ▸ hentry)).2

theorem maskedRegisterRound_of_server (henabled : WritesEnabled serverOptions) (hflat : FlatDescription description)
    (hregisters : machine.registers = description.registers) {entries : List (RegisterDescription × UInt16 × UInt16)}
    (hentries : entries =
      (resolvedWrites (.ofDescription description) transaction).filterMap ResolvedWrite.asMaskedRegister)
    (report : WriteReport) :
    ∃ done s', done.map Prod.fst = entries ∧
      confirmEach (serverExchange serverOptions tomlSource fc43BulkTransfer) description.unitId
          (fun entry => pure (confirmMaskWrite entry.1 entry.2.1 entry.2.2)) (fun entry => [entry.1.name]) entries
          (machines.set description.unitId machine) report =
        .ok (machines.set description.unitId { machine with store := s' },
          report.setAll (reportEntries (fun entry => [entry.1.name]) done)) ∧
      JobSteps (fun entry => [entry.1.name]) (fun _ => []) (· = WriteStatus.ok) done machine.store s' := by
  apply @confirmEach_of_jobs _ _ _ _ _ _ _ _ _ _
    (fun s => machines.set description.unitId { machine with store := s })
  intro entry hentry
  refine ⟨_, rfl, ?_⟩
  apply job_of_maskedRegister hflat hregisters henabled
  exact (mem_maskedRegisterEntries (hentries ▸ hentry)).2

theorem fileRecordRound_of_server (henabled : WritesEnabled serverOptions) (hflat : FlatDescription description)
    (hrecords : machine.fileRecords = description.fileRecords) {entries : List (String × UInt16 × UInt16 × Bytes)}
    (hentries : entries =
      (resolvedWrites (.ofDescription description) transaction).filterMap ResolvedWrite.asFileRecord)
    (report : WriteReport) :
    ∃ done s', done.map Prod.fst = entries ∧
      confirmEach (serverExchange serverOptions tomlSource fc43BulkTransfer) description.unitId
          (fun entry => pure (confirmFileRecordWrite entry.2.1 entry.2.2.1 entry.2.2.2)) (fun entry => [entry.1])
          entries (machines.set description.unitId machine) report =
        .ok (machines.set description.unitId { machine with fileRecordStore := s' },
          report.setAll (reportEntries (fun entry => [entry.1]) done)) ∧
      JobSteps (fun entry => [(entry.2.1, entry.2.2.1)]) (fun entry => [((entry.2.1, entry.2.2.1), entry.2.2.2)])
        (· = WriteStatus.ok) done machine.fileRecordStore s' := by
  apply @confirmEach_of_jobs _ _ _ _ _ _ _ _ _ _
    (fun s => machines.set description.unitId { machine with fileRecordStore := s })
  intro entry hentry
  refine ⟨_, rfl, ?_⟩
  obtain ⟨-, fileRecord, hrecord, hkey, hlength⟩ := mem_fileRecordEntries (hentries ▸ hentry)
  exact job_of_fileRecord hflat hrecords henabled hrecord hkey hlength

/-- Against the server a transaction is such rounds. -/
theorem processTransaction_of_server (henabled : WritesEnabled serverOptions)
    (hget : machines.get description.unitId = some machine) (hconfigured : machine.unset = .fresh description)
    (hflat : FlatDescription description) (hnames : (transaction.map Prod.fst).Nodup) (report : WriteReport) :
    ∃ rounds : Rounds (.ofDescription description) transaction machine,
      processTransaction (serverExchange serverOptions tomlSource fc43BulkTransfer) (.ofDescription description)
        transaction machines report =
          .ok (machines.set description.unitId rounds.machineAfter, report.setAll rounds.reported) := by
  have hregisters : machine.registers = description.registers := congrArg ServerMachineState.registers hconfigured
  have hcoils : machine.coils = description.coils := congrArg ServerMachineState.coils hconfigured
  have hrecords : machine.fileRecords = description.fileRecords :=
    congrArg ServerMachineState.fileRecords hconfigured
  have hlayout : machine.memLayout = description.memLayout := congrArg ServerMachineState.memLayout hconfigured
  have hnodup := (ResolvedWrite.names_perm (resolvedWrites (.ofDescription description) transaction)).nodup_iff.mp
    (map_name_resolvedWrites ▸ hnames)
  rw [List.nodup_append, List.nodup_append, List.nodup_append, List.nodup_append] at hnodup
  obtain ⟨⟨⟨⟨-, hregisterNames, -⟩, hcoilNames, -⟩, -, -⟩, -, -⟩ := hnodup
  obtain ⟨doneRegisters, s₁, hdoneRegisters, hrunRegisters, hstepsRegisters⟩ :=
    @registerRound_of_server _ tomlSource fc43BulkTransfer machines machine _ transaction henabled hflat hregisters
      hlayout _ rfl hregisterNames
      (report.setAll ((resolvedWrites (.ofDescription description) transaction).filterMap ResolvedWrite.asRefused))
  obtain ⟨doneCoils, c, hdoneCoils, hrunCoils, hstepsCoils⟩ :=
    @coilRound_of_server _ tomlSource fc43BulkTransfer machines { machine with store := s₁ } _ transaction henabled
      hflat hcoils _ rfl hcoilNames
      ((report.setAll ((resolvedWrites (.ofDescription description) transaction).filterMap
        ResolvedWrite.asRefused)).setAll (reportEntries (batchNames RegisterDescription.name) doneRegisters))
  obtain ⟨doneMasked, s₂, hdoneMasked, hrunMasked, hstepsMasked⟩ :=
    @maskedRegisterRound_of_server _ tomlSource fc43BulkTransfer machines
      { machine with store := s₁, coilStore := c } _ transaction henabled hflat hregisters _ rfl
      (((report.setAll ((resolvedWrites (.ofDescription description) transaction).filterMap
        ResolvedWrite.asRefused)).setAll (reportEntries (batchNames RegisterDescription.name) doneRegisters)).setAll
          (reportEntries (batchNames CoilDescription.name) doneCoils))
  obtain ⟨doneRecords, f, hdoneRecords, hrunRecords, hstepsRecords⟩ :=
    @fileRecordRound_of_server _ tomlSource fc43BulkTransfer machines
      { machine with store := s₂, coilStore := c } _ transaction henabled hflat hrecords _ rfl
      ((((report.setAll ((resolvedWrites (.ofDescription description) transaction).filterMap
        ResolvedWrite.asRefused)).setAll (reportEntries (batchNames RegisterDescription.name) doneRegisters)).setAll
          (reportEntries (batchNames CoilDescription.name) doneCoils)).setAll
            (reportEntries (fun entry => [entry.1.name]) doneMasked))
  refine ⟨⟨doneRegisters, doneCoils, doneMasked, doneRecords, s₁, s₂, c, f, hdoneRegisters, hdoneCoils, hdoneMasked,
    hdoneRecords, hstepsRegisters, hstepsCoils, hstepsMasked, hstepsRecords⟩, ?_⟩
  rw [Store.set_eq_self hget] at hrunRegisters
  have hrun := processTransaction_eq_ok (resolveTransaction_eq (.ofDescription description) transaction report)
    hrunRegisters hrunCoils hrunMasked hrunRecords
  rw [hrun]
  simp only [Rounds.reported, Store.setAll_append]
  rfl

end Server

/-! ### A true report -/

/-- What a name can be staged for. -/
inductive Point where
  | register (name : String)
  | coil (name : String)
  | discreteInput (name : String)
  | inputRegister (name : String)
  | fileRecord (fileNumber recordNumber : UInt16)
  deriving DecidableEq, Repr

/-- A file record is a point by its numbers, whatever name it is staged under. -/
def stagedPoint (name : String) : StagedValue → Point
  | .register _ => .register name
  | .coil _ => .coil name
  | .discreteInput _ => .discreteInput name
  | .inputRegister _ => .inputRegister name
  | .maskedRegister _ _ => .register name
  | .fileRecord fileNumber recordNumber _ => .fileRecord fileNumber recordNumber

/-- What a machine has for a point, if anything. -/
def pointValue (machine : ServerMachineState) : Point → Option StagedValue
  | .register name => (machine.store.get name).map .register
  | .coil name => (machine.coilStore.get name).map .coil
  | .discreteInput name => (machine.discreteInputStore.get name).map .discreteInput
  | .inputRegister name => (machine.inputRegisterStore.get name).map .inputRegister
  | .fileRecord fileNumber recordNumber =>
    (machine.fileRecordStore.get (fileNumber, recordNumber)).map (.fileRecord fileNumber recordNumber)

/-- The report of a transaction tells what became of the machine: it is complete, what it
calls written is there, and a point none of whose names it calls written is as it was. -/
structure Truthful (transaction : List (String × StagedValue)) (report report' : WriteReport)
    (machine machine' : ServerMachineState) : Prop where
  complete : ∀ name ∈ transaction.map Prod.fst, ∃ status, report'.get name = some status
  others : ∀ name, name ∉ transaction.map Prod.fst → report'.get name = report.get name
  register : ∀ name value, (name, .register value) ∈ transaction → report'.get name = some .ok →
    machine'.store.get name = some value
  coil : ∀ name value, (name, .coil value) ∈ transaction → report'.get name = some .ok →
    machine'.coilStore.get name = some value
  fileRecord : ∀ name fileNumber recordNumber value, (name, .fileRecord fileNumber recordNumber value) ∈ transaction →
    report'.get name = some .ok → ∃ name' value', (name', .fileRecord fileNumber recordNumber value') ∈ transaction ∧
      report'.get name' = some .ok ∧ machine'.fileRecordStore.get (fileNumber, recordNumber) = some value'
  unchanged : ∀ point, (∀ name staged, (name, staged) ∈ transaction → stagedPoint name staged = point →
    report'.get name ≠ some .ok) → pointValue machine' point = pointValue machine point

namespace Rounds

variable {config : MachineTransactionConfig} {transaction : List (String × StagedValue)}
  {machine : ServerMachineState} {rounds : Rounds config transaction machine}

/-- A name is staged once. -/
theorem staged_unique (hnames : (transaction.map Prod.fst).Nodup) {name : String} {staged staged' : StagedValue}
    (h : (name, staged) ∈ transaction) (h' : (name, staged') ∈ transaction) : staged = staged' :=
  congrArg Prod.snd (List.inj_on_of_nodup_map hnames h h' rfl)

/-- A register written by a round was staged, and has the status of its batch. -/
theorem of_mem_registers (hnames : (transaction.map Prod.fst).Nodup) (report : WriteReport)
    {job : Batch (RegisterDescription × RegisterValue) × WriteStatus} (hjob : job ∈ rounds.registers)
    {entry : RegisterDescription × RegisterValue} (hentry : entry ∈ job.1.items) :
    (entry.1.name, .register entry.2) ∈ transaction ∧
      (report.setAll rounds.reported).get entry.1.name = some job.2 := by
  constructor
  · have hbatch : job.1 ∈ buildRegisterWriteBatches
        ((resolvedWrites config transaction).filterMap ResolvedWrite.asRegister) := by
      rw [← rounds.registers_eq]
      exact List.mem_map_of_mem hjob
    exact (mem_registerEntries (exists_batch_iff.mp ⟨job.1, hbatch, hentry⟩)).1
  · apply get_report hnames
    have hreported := @mem_reportEntries _ (batchNames RegisterDescription.name) _ _ hjob _ (List.mem_map_of_mem hentry)
    simp only [reported, List.mem_append]
    exact .inl (.inl (.inl (.inr hreported)))

theorem of_mem_coils (hnames : (transaction.map Prod.fst).Nodup) (report : WriteReport)
    {job : Batch (CoilDescription × Bool) × WriteStatus} (hjob : job ∈ rounds.coils)
    {entry : CoilDescription × Bool} (hentry : entry ∈ job.1.items) :
    (entry.1.name, .coil ⟨entry.2⟩) ∈ transaction ∧
      (report.setAll rounds.reported).get entry.1.name = some job.2 := by
  constructor
  · have hbatch : job.1 ∈ buildCoilWriteBatches
        ((resolvedWrites config transaction).filterMap ResolvedWrite.asCoil) := by
      rw [← rounds.coils_eq]
      exact List.mem_map_of_mem hjob
    exact (mem_coilEntries (exists_batch_iff.mp ⟨job.1, hbatch, hentry⟩)).1
  · apply get_report hnames
    have hreported := @mem_reportEntries _ (batchNames CoilDescription.name) _ _ hjob _ (List.mem_map_of_mem hentry)
    simp only [reported, List.mem_append]
    exact .inl (.inl (.inr hreported))

theorem of_mem_maskedRegisters (hnames : (transaction.map Prod.fst).Nodup) (report : WriteReport)
    {job : (RegisterDescription × UInt16 × UInt16) × WriteStatus} (hjob : job ∈ rounds.maskedRegisters) :
    (job.1.1.name, .maskedRegister job.1.2.1 job.1.2.2) ∈ transaction ∧
      (report.setAll rounds.reported).get job.1.1.name = some job.2 := by
  constructor
  · have hentry : job.1 ∈ (resolvedWrites config transaction).filterMap ResolvedWrite.asMaskedRegister := by
      rw [← rounds.maskedRegisters_eq]
      exact List.mem_map_of_mem hjob
    exact (mem_maskedRegisterEntries hentry).1
  · apply get_report hnames
    have hreported := @mem_reportEntries _ (fun entry => [entry.1.name]) _ _ hjob _ (List.mem_singleton_self _)
    simp only [reported, List.mem_append]
    exact .inl (.inr hreported)

theorem of_mem_fileRecords (hnames : (transaction.map Prod.fst).Nodup) (report : WriteReport)
    {job : (String × UInt16 × UInt16 × Bytes) × WriteStatus} (hjob : job ∈ rounds.fileRecords) :
    (job.1.1, .fileRecord job.1.2.1 job.1.2.2.1 job.1.2.2.2) ∈ transaction ∧
      (report.setAll rounds.reported).get job.1.1 = some job.2 := by
  constructor
  · have hentry : job.1 ∈ (resolvedWrites config transaction).filterMap ResolvedWrite.asFileRecord := by
      rw [← rounds.fileRecords_eq]
      exact List.mem_map_of_mem hjob
    exact (mem_fileRecordEntries hentry).1
  · apply get_report hnames
    have hreported := @mem_reportEntries _ (fun entry => [entry.1]) _ _ hjob _ (List.mem_singleton_self _)
    simp only [reported, List.mem_append]
    exact .inr hreported

/-- A staged value reported as written was not refused. -/
theorem resolves_of_ok (hnames : (transaction.map Prod.fst).Nodup) (report : WriteReport) {name : String}
    {staged : StagedValue} (hstaged : (name, staged) ∈ transaction)
    (hok : (report.setAll rounds.reported).get name = some .ok) :
    ∃ write ∈ resolvedWrites config transaction, Resolves config name staged write ∧
      ∀ reason, write ≠ .refused name reason := by
  obtain ⟨write, hwrite, hresolves⟩ := @resolves_of_mem config _ _ _ hstaged
  refine ⟨write, hwrite, hresolves, ?_⟩
  rintro reason rfl
  have hrefused : (name, .failed reason) ∈ (resolvedWrites config transaction).filterMap ResolvedWrite.asRefused :=
    List.mem_filterMap.mpr ⟨_, hwrite, rfl⟩
  have hfailed := @get_report _ _ _ rounds hnames report name (.failed reason) (by
    simp only [reported, List.mem_append]
    exact .inl (.inl (.inl (.inl hrefused))))
  rw [hok] at hfailed
  cases hfailed

theorem register_written (hnames : (transaction.map Prod.fst).Nodup) (report : WriteReport) {name : String}
    {value : RegisterValue} (hstaged : (name, .register value) ∈ transaction)
    (hok : (report.setAll rounds.reported).get name = some .ok) : rounds.store.get name = some value := by
  obtain ⟨write, hwrite, hresolves, hwritten⟩ := resolves_of_ok hnames report hstaged hok
  cases hresolves with
  | refused staged reason => exact absurd rfl (hwritten reason)
  | register description value hmem hname htype =>
    obtain rfl := hname
    have hentry : (description, value) ∈ (resolvedWrites config transaction).filterMap ResolvedWrite.asRegister :=
      List.mem_filterMap.mpr ⟨_, hwrite, rfl⟩
    obtain ⟨batch, hbatch, hitem⟩ := exists_batch_iff.mpr hentry
    obtain ⟨job, hjob, rfl⟩ : ∃ job ∈ rounds.registers, job.1 = batch := by
      rw [← List.mem_map, rounds.registers_eq]
      exact hbatch
    have hstatus := (of_mem_registers hnames report hjob hitem).2
    rw [hok] at hstatus
    have hunmasked : rounds.unmasked.get description.name = some value := by
      apply rounds.registers_steps.written hjob (Option.some.inj hstatus).symm
      · exact List.mem_map.mpr ⟨_, hitem, rfl⟩
      · intro other hother hkey
        obtain ⟨entry, hentry, hsame⟩ := List.mem_map.mp hkey
        have hstaged' := (of_mem_registers hnames report hother hentry).1
        rw [hsame] at hstaged'
        have hvalue := staged_unique hnames hstaged hstaged'
        injection hvalue with hvalue
        exact List.mem_map.mpr ⟨entry, hentry, by rw [hsame, hvalue]⟩
    rw [← hunmasked]
    apply rounds.maskedRegisters_steps.unchanged
    intro other hother _ hkey
    have hmasked := (of_mem_maskedRegisters hnames report hother).1
    rw [← List.mem_singleton.mp hkey] at hmasked
    cases staged_unique hnames hstaged hmasked

theorem coil_written (hnames : (transaction.map Prod.fst).Nodup) (report : WriteReport) {name : String}
    {value : CoilValue} (hstaged : (name, .coil value) ∈ transaction)
    (hok : (report.setAll rounds.reported).get name = some .ok) : rounds.coilStore.get name = some value := by
  obtain ⟨write, hwrite, hresolves, hwritten⟩ := resolves_of_ok hnames report hstaged hok
  cases hresolves with
  | refused staged reason => exact absurd rfl (hwritten reason)
  | coil description value hmem hname =>
    obtain rfl := hname
    have hentry : (description, value.value) ∈ (resolvedWrites config transaction).filterMap ResolvedWrite.asCoil :=
      List.mem_filterMap.mpr ⟨_, hwrite, rfl⟩
    obtain ⟨batch, hbatch, hitem⟩ := exists_batch_iff.mpr hentry
    obtain ⟨job, hjob, rfl⟩ : ∃ job ∈ rounds.coils, job.1 = batch := by
      rw [← List.mem_map, rounds.coils_eq]
      exact hbatch
    have hstatus := (of_mem_coils hnames report hjob hitem).2
    rw [hok] at hstatus
    apply rounds.coils_steps.written hjob (Option.some.inj hstatus).symm
    · exact List.mem_map.mpr ⟨_, hitem, rfl⟩
    · intro other hother hkey
      obtain ⟨entry, hentry, hsame⟩ := List.mem_map.mp hkey
      have hstaged' := (of_mem_coils hnames report hother hentry).1
      rw [hsame] at hstaged'
      have hvalue := staged_unique hnames hstaged hstaged'
      injection hvalue with hvalue
      exact List.mem_map.mpr ⟨entry, hentry, by rw [hsame, hvalue]⟩

/-- A record holds what one of the names reported as written staged for it. -/
theorem fileRecord_written (hnames : (transaction.map Prod.fst).Nodup) (report : WriteReport) {name : String}
    {fileNumber recordNumber : UInt16} {value : Bytes}
    (hstaged : (name, .fileRecord fileNumber recordNumber value) ∈ transaction)
    (hok : (report.setAll rounds.reported).get name = some .ok) :
    ∃ name' value', (name', .fileRecord fileNumber recordNumber value') ∈ transaction ∧
      (report.setAll rounds.reported).get name' = some .ok ∧
      rounds.fileRecordStore.get (fileNumber, recordNumber) = some value' := by
  obtain ⟨write, hwrite, hresolves, hwritten⟩ := resolves_of_ok hnames report hstaged hok
  cases hresolves with
  | refused staged reason => exact absurd rfl (hwritten reason)
  | fileRecord description value hmem hlength =>
    have hentry : (name, description.fileNumber, description.recordNumber, value) ∈
        (resolvedWrites config transaction).filterMap ResolvedWrite.asFileRecord :=
      List.mem_filterMap.mpr ⟨_, hwrite, rfl⟩
    rw [← rounds.fileRecords_eq] at hentry
    obtain ⟨job, hjob, hsame⟩ := List.mem_map.mp hentry
    have hstatus := (of_mem_fileRecords hnames report hjob).2
    rw [hsame, hok] at hstatus
    rcases rounds.fileRecords_steps.get (description.fileNumber, description.recordNumber) with
      ⟨-, hnone⟩ | ⟨last, hlast, hdone, hkey, hlastWritten⟩
    · refine absurd ?_ (hnone job hjob (Option.some.inj hstatus).symm)
      rw [hsame]
      exact List.mem_singleton_self _
    · obtain ⟨hstaged', hstatus'⟩ := of_mem_fileRecords hnames report hlast
      have hnumbers := List.mem_singleton.mp hkey
      injection hnumbers with hfile hrecord
      refine ⟨last.1.1, last.1.2.2.2, ?_, ?_, ?_⟩
      · rw [hfile, hrecord]
        exact hstaged'
      · rw [hstatus', hdone]
      · apply hlastWritten
        rw [hfile, hrecord]
        exact List.mem_singleton_self _

/-- A point none of whose names is reported as written. -/
theorem point_unchanged (hnames : (transaction.map Prod.fst).Nodup) (report : WriteReport) {point : Point}
    (h : ∀ name staged, (name, staged) ∈ transaction → stagedPoint name staged = point →
      (report.setAll rounds.reported).get name ≠ some .ok) :
    pointValue rounds.machineAfter point = pointValue machine point := by
  cases point with
  | discreteInput name => rfl
  | inputRegister name => rfl
  | register name =>
    have hunmasked : rounds.unmasked.get name = machine.store.get name := by
      apply rounds.registers_steps.unchanged
      intro job hjob hdone hkey
      obtain ⟨entry, hentry, rfl⟩ := List.mem_map.mp hkey
      obtain ⟨hstaged, hstatus⟩ := of_mem_registers hnames report hjob hentry
      exact h _ _ hstaged rfl (hdone ▸ hstatus)
    have hstore : rounds.store.get name = rounds.unmasked.get name := by
      apply rounds.maskedRegisters_steps.unchanged
      intro job hjob hdone hkey
      obtain ⟨hstaged, hstatus⟩ := of_mem_maskedRegisters hnames report hjob
      obtain rfl := List.mem_singleton.mp hkey
      exact h _ _ hstaged rfl (hdone ▸ hstatus)
    rw [pointValue, pointValue, machineAfter, hstore, hunmasked]
  | coil name =>
    have hstore : rounds.coilStore.get name = machine.coilStore.get name := by
      apply rounds.coils_steps.unchanged
      intro job hjob hdone hkey
      obtain ⟨entry, hentry, rfl⟩ := List.mem_map.mp hkey
      obtain ⟨hstaged, hstatus⟩ := of_mem_coils hnames report hjob hentry
      exact h _ _ hstaged rfl (hdone ▸ hstatus)
    rw [pointValue, pointValue, machineAfter, hstore]
  | fileRecord fileNumber recordNumber =>
    have hstore : rounds.fileRecordStore.get (fileNumber, recordNumber) =
        machine.fileRecordStore.get (fileNumber, recordNumber) := by
      apply rounds.fileRecords_steps.unchanged
      intro job hjob hdone hkey
      obtain ⟨hstaged, hstatus⟩ := of_mem_fileRecords hnames report hjob
      have hnumbers := List.mem_singleton.mp hkey
      injection hnumbers with hfile hrecord
      exact h _ _ hstaged (by rw [stagedPoint, hfile, hrecord]) (hdone ▸ hstatus)
    rw [pointValue, pointValue, machineAfter, hstore]

end Rounds

/-- A transaction against the server gets a true report. -/
theorem process_transaction_truthful {serverOptions : ServerOptions} (henabled : WritesEnabled serverOptions)
    (tomlSource : String) (fc43BulkTransfer : Fc43BulkTransfer) {machines : Machines} {machine : ServerMachineState}
    {description : MachineDescription} (hget : machines.get description.unitId = some machine)
    (hconfigured : machine.unset = .fresh description) (hflat : FlatDescription description)
    {transaction : List (String × StagedValue)} (hnames : (transaction.map Prod.fst).Nodup) (report : WriteReport) :
    ∃ machine' report',
      processTransaction (serverExchange serverOptions tomlSource fc43BulkTransfer) (.ofDescription description)
        transaction machines report = .ok (machines.set description.unitId machine', report') ∧
      Truthful transaction report report' machine machine' := by
  obtain ⟨rounds, hrun⟩ := @processTransaction_of_server _ tomlSource fc43BulkTransfer _ _ _ _ henabled hget
    hconfigured hflat hnames report
  refine ⟨rounds.machineAfter, report.setAll rounds.reported, hrun, ?_⟩
  constructor
  case complete =>
    intro name hname
    have hreported := rounds.map_fst_reported_perm.mem_iff.mpr hname
    obtain ⟨⟨_, status⟩, hmem, rfl⟩ := List.mem_map.mp hreported
    exact ⟨status, Rounds.get_report hnames report hmem⟩
  case others =>
    intro name hname
    apply Store.get_setAll_of_notMem
    intro hreported
    exact hname (rounds.map_fst_reported_perm.mem_iff.mp hreported)
  case register =>
    intro name value hstaged hok
    exact Rounds.register_written hnames report hstaged hok
  case coil =>
    intro name value hstaged hok
    exact Rounds.coil_written hnames report hstaged hok
  case fileRecord =>
    intro name fileNumber recordNumber value hstaged hok
    exact Rounds.fileRecord_written hnames report hstaged hok
  case unchanged =>
    intro point h
    exact Rounds.point_unchanged hnames report h

/-- A stroke counter that is reset, next to a gauge that cannot be written. -/
theorem process_transaction_truthful_pump : ∃ machine' report',
    processTransaction (serverExchange .allowAll "" ⟨[], ""⟩) (.ofDescription pump)
      [("strokes", .register (.u32 0)), ("running", .coil ⟨true⟩), ("pressure", .register (.u16 1))]
      (Store.empty.set 3 (.fresh pump)) .empty = .ok ((Store.empty.set 3 (.fresh pump)).set 3 machine', report') ∧
    Truthful [("strokes", .register (.u32 0)), ("running", .coil ⟨true⟩), ("pressure", .register (.u16 1))] .empty
      report' (.fresh pump) machine' := by
  apply process_transaction_truthful
  case henabled => exact ⟨rfl, rfl, rfl, rfl, rfl, rfl⟩
  case hget => exact Store.get_set_self _ _ _
  case hconfigured => rfl
  case hflat => exact pump_flat
  case hnames => decide

/-- Two names for one record: both are reported as written, and the first one's value is gone. -/
theorem shared_record_overwritten : FlatDescription pump ∧
    (processTransaction (serverExchange .allowAll "" ⟨[], ""⟩) (.ofDescription pump)
      [("first", .fileRecord 4 1 [0, 0, 0, 1]), ("second", .fileRecord 4 1 [0, 0, 0, 2])]
      (Store.empty.set 3 (.fresh pump)) .empty).map (fun result =>
        (result.2.get "first", result.2.get "second",
          (result.1.get 3).map fun machine => machine.fileRecordStore.get (4, 1))) =
      .ok (some .ok, some .ok, some (some [0, 0, 0, 2])) :=
  ⟨pump_flat, by decide +kernel⟩

end InfusedModbus.Client
