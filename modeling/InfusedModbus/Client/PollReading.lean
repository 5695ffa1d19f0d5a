import InfusedModbus.Client.PollAnswers
import InfusedModbus.Client.SparkplugTranslator

/-! What a poll response says about the points of a machine. A response is taken apart into
entries that do not depend on what was stored before; an entry is a value read for its point.
A turn of the polling loop is one response after another. -/

namespace InfusedModbus.Client

open Foundation Foundation.Outcome Protocol Datafs
open Sparkplug (MetricValue)

/-! ### Responses -/

/-- A response to one of the requests of a machine's polls, with what was asked for. -/
inductive PollAnswer where
  | registers (batch : Batch RegisterDescription) (responsePdu : Bytes)
  | coils (batch : Batch CoilDescription) (responsePdu : Bytes)
  | discreteInputs (batch : Batch DiscreteInputDescription) (responsePdu : Bytes)
  | inputRegisters (batch : Batch InputRegisterDescription) (responsePdu : Bytes)
  | fileRecord (entry : FileRecordDescription) (responsePdu : Bytes)

namespace PollAnswer

variable (machine : MachineDescription)

/-- Whether the machine's polls ask for it. -/
def asked : PollAnswer → Bool
  | .registers batch _ => batch ∈ buildReadBatches machine.registers
  | .coils batch _ => batch ∈ buildCoilReadBatches machine.coils
  | .discreteInputs batch _ => batch ∈ buildDiscreteInputReadBatches machine.discreteInputs
  | .inputRegisters batch _ => batch ∈ buildInputRegisterReadBatches machine.inputRegisters
  | .fileRecord entry _ => entry ∈ machine.fileRecords

/-- The stores after it. -/
def apply (stores : MachineStores) : PollAnswer → Outcome Empty MachineStores
  | .registers batch responsePdu => do
    let registers ← applyRegisterResponse RegisterDescription.name RegisterDescription.dataType machine.memLayout
      (fun pdu => (ReadHoldingRegistersResponse.decode pdu).map ReadHoldingRegistersResponse.registerValues) batch
      responsePdu stores.registers
    pure { stores with registers := registers }
  | .coils batch responsePdu => do
    let coils ← applyBitResponse CoilDescription.name
      (fun pdu => (ReadCoilsResponse.decode pdu).map ReadCoilsResponse.coilValues) batch responsePdu stores.coils
    pure { stores with coils := coils }
  | .discreteInputs batch responsePdu => do
    let discreteInputs ← applyBitResponse DiscreteInputDescription.name
      (fun pdu => (ReadDiscreteInputsResponse.decode pdu).map ReadDiscreteInputsResponse.discreteInputValues) batch
      responsePdu stores.discreteInputs
    pure { stores with discreteInputs := discreteInputs }
  | .inputRegisters batch responsePdu => do
    let inputRegisters ← applyRegisterResponse InputRegisterDescription.name InputRegisterDescription.dataType
      machine.inputRegisterMemLayout
      (fun pdu => (ReadInputRegistersResponse.decode pdu).map ReadInputRegistersResponse.registerValues) batch
      responsePdu stores.inputRegisters
    pure { stores with inputRegisters := inputRegisters }
  | .fileRecord entry responsePdu => do
    let fileRecords ← applyRecordResponse entry responsePdu stores.fileRecords
    pure { stores with fileRecords := fileRecords }

/-- The response alone gives the point this value. -/
def Reads (answer : PollAnswer) (point : MachinePoint) (value : MetricValue) : Prop :=
  ∃ stores, answer.apply machine .new = .ok stores ∧ point.stored stores = some value

end PollAnswer

/-! ### Entries -/

section Entries

variable {κ ν : Type} [DecidableEq κ]

/-- What is stored does not depend on what was stored before. -/
def StoresEntries (apply : Store κ ν → Outcome Empty (Store κ ν)) : Prop :=
  ∀ store store', apply store = .ok store' →
    ∃ entries, store' = store.setAll entries ∧ ∀ other, apply other = .ok (other.setAll entries)

theorem storesEntries_ok {entries : List (κ × ν)} {apply : Store κ ν → Outcome Empty (Store κ ν)}
    (h : ∀ store, apply store = .ok (store.setAll entries)) : StoresEntries apply := by
  intro store store' hok
  exact ⟨entries, Outcome.ok.inj (hok.symm.trans (h store)), h⟩

/-- A lookup finds what was there, or what the entries alone store. -/
theorem StoresEntries.get_cases {apply : Store κ ν → Outcome Empty (Store κ ν)} (h : StoresEntries apply)
    {store store' : Store κ ν} (hok : apply store = .ok store') (key : κ) (toMetric : ν → MetricValue) :
    (store'.get key).map toMetric = (store.get key).map toMetric ∨
      ∃ value fresh, (store'.get key).map toMetric = some value ∧ apply .empty = .ok fresh ∧
        (fresh.get key).map toMetric = some value := by
  obtain ⟨entries, rfl, hall⟩ := h store store' hok
  rw [Store.get_setAll]
  cases hget : (Store.empty.setAll entries).get key with
  | none => exact .inl rfl
  | some value => exact .inr ⟨toMetric value, _, rfl, hall .empty, by rw [hget, Option.map_some]⟩

variable {ρ : Type} (name : ρ → String) (dataType : ρ → DataType) (memLayout : MemLayout)

theorem storesEntries_applyWords (words : List UInt16) (registers : List ρ) (offset : ℕ) :
    StoresEntries (applyWords name dataType memLayout words registers offset) := by
  induction registers generalizing offset with
  | nil => exact @storesEntries_ok _ _ _ [] _ fun _ => rfl
  | cons register registers ih =>
    intro store store' hok
    rw [applyWords] at hok
    obtain ⟨taken, htaken, hrest⟩ := bind_eq_ok.mp hok
    obtain ⟨entries, hentries, hall⟩ := ih _ _ _ hrest
    cases hvalue : registerValueFromWords (dataType register) taken memLayout with
    | none =>
      rw [hvalue] at hentries
      refine ⟨entries, hentries, ?_⟩
      intro other
      rw [applyWords, htaken, ok_bind, hvalue]
      exact hall other
    | some value =>
      rw [hvalue] at hentries
      refine ⟨(name register, value) :: entries, hentries, ?_⟩
      intro other
      rw [applyWords, htaken, ok_bind, hvalue]
      exact hall _

theorem storesEntries_applyRegisterResponse (decode : Bytes → Outcome DecodeError (List UInt16)) (batch : Batch ρ)
    (responsePdu : Bytes) :
    StoresEntries (applyRegisterResponse name dataType memLayout decode batch responsePdu) := by
  unfold applyRegisterResponse
  cases decode responsePdu with
  | ok words =>
    dsimp only
    split
    · exact storesEntries_applyWords name dataType memLayout words batch.items 0
    · exact @storesEntries_ok _ _ _ [] _ fun _ => rfl
  | err e => exact @storesEntries_ok _ _ _ [] _ fun _ => rfl
  | panic =>
    intro store store' hok
    cases hok

theorem storesEntries_applyBitResponse (decode : Bytes → Outcome DecodeError (List Bool)) (batch : Batch ρ)
    (responsePdu : Bytes) : StoresEntries (applyBitResponse name decode batch responsePdu) := by
  unfold applyBitResponse
  cases decode responsePdu with
  | ok values =>
    dsimp only
    split
    · exact storesEntries_ok fun _ => rfl
    · exact @storesEntries_ok _ _ _ [] _ fun _ => rfl
  | err e => exact @storesEntries_ok _ _ _ [] _ fun _ => rfl
  | panic =>
    intro store store' hok
    cases hok

theorem storesEntries_applyRecordResponse (entry : FileRecordDescription) (responsePdu : Bytes) :
    StoresEntries (applyRecordResponse entry responsePdu) := by
  intro store store' hok
  rw [applyRecordResponse_eq] at hok
  obtain rfl := Outcome.ok.inj hok
  cases hread : readRecord entry responsePdu with
  | none => exact ⟨[], rfl, fun other => by rw [applyRecordResponse_eq, hread]; rfl⟩
  | some entries => exact ⟨entries, rfl, fun other => by rw [applyRecordResponse_eq, hread]; rfl⟩

end Entries

namespace PollAnswer

variable {machine : MachineDescription}

/-- After a response a point has what it had, or what the response reads for it. -/
theorem stored_apply {answer : PollAnswer} {stores stores' : MachineStores}
    (h : answer.apply machine stores = .ok stores') (point : MachinePoint) :
    point.stored stores' = point.stored stores ∨
      ∃ value, point.stored stores' = some value ∧ answer.Reads machine point value := by
  cases answer with
  | registers batch responsePdu =>
    obtain ⟨registers, hok, hrest⟩ := bind_eq_ok.mp h
    obtain rfl := Outcome.ok.inj hrest
    cases point with
    | register entry =>
      rcases (storesEntries_applyRegisterResponse _ _ _ _ _ _).get_cases hok entry.name mapRegisterValue with
        hsame | ⟨value, fresh, hget, hfresh, hvalue⟩
      · exact .inl hsame
      · exact .inr ⟨value, hget, { MachineStores.new with registers := fresh },
          bind_eq_ok.mpr ⟨fresh, hfresh, rfl⟩, hvalue⟩
    | _ => exact .inl rfl
  | coils batch responsePdu =>
    obtain ⟨coils, hok, hrest⟩ := bind_eq_ok.mp h
    obtain rfl := Outcome.ok.inj hrest
    cases point with
    | coil entry =>
      rcases (storesEntries_applyBitResponse _ _ _ _).get_cases hok entry.name mapCoilValue with
        hsame | ⟨value, fresh, hget, hfresh, hvalue⟩
      · exact .inl hsame
      · exact .inr ⟨value, hget, { MachineStores.new with coils := fresh },
          bind_eq_ok.mpr ⟨fresh, hfresh, rfl⟩, hvalue⟩
    | _ => exact .inl rfl
  | discreteInputs batch responsePdu =>
    obtain ⟨discreteInputs, hok, hrest⟩ := bind_eq_ok.mp h
    obtain rfl := Outcome.ok.inj hrest
    cases point with
    | discreteInput entry =>
      rcases (storesEntries_applyBitResponse _ _ _ _).get_cases hok entry.name mapCoilValue with
        hsame | ⟨value, fresh, hget, hfresh, hvalue⟩
      · exact .inl hsame
      · exact .inr ⟨value, hget, { MachineStores.new with discreteInputs := fresh },
          bind_eq_ok.mpr ⟨fresh, hfresh, rfl⟩, hvalue⟩
    | _ => exact .inl rfl
  | inputRegisters batch responsePdu =>
    obtain ⟨inputRegisters, hok, hrest⟩ := bind_eq_ok.mp h
    obtain rfl := Outcome.ok.inj hrest
    cases point with
    | inputRegister entry =>
      rcases (storesEntries_applyRegisterResponse _ _ _ _ _ _).get_cases hok entry.name mapRegisterValue with
        hsame | ⟨value, fresh, hget, hfresh, hvalue⟩
      · exact .inl hsame
      · exact .inr ⟨value, hget, { MachineStores.new with inputRegisters := fresh },
          bind_eq_ok.mpr ⟨fresh, hfresh, rfl⟩, hvalue⟩
    | _ => exact .inl rfl
  | fileRecord asked responsePdu =>
    obtain ⟨fileRecords, hok, hrest⟩ := bind_eq_ok.mp h
    obtain rfl := Outcome.ok.inj hrest
    cases point with
    | fileRecord entry =>
      rcases (storesEntries_applyRecordResponse _ _).get_cases hok (entry.fileNumber, entry.recordNumber) MetricValue.bytes with
        hsame | ⟨value, fresh, hget, hfresh, hvalue⟩
      · exact .inl hsame
      · exact .inr ⟨value, hget, { MachineStores.new with fileRecords := fresh },
          bind_eq_ok.mpr ⟨fresh, hfresh, rfl⟩, hvalue⟩
    | _ => exact .inl rfl

/-! ### A turn of the polling loop -/

/-- The stores after some responses. -/
def applyAll (machine : MachineDescription) (answers : List PollAnswer) (stores : MachineStores) :
    Outcome Empty MachineStores :=
  answers.foldlM (fun stores answer => answer.apply machine stores) stores

section Each

variable {σ β κ ν : Type} {request : Exchange σ} {unitId : UInt8} {encode : β → Bytes}
  {apply : β → Bytes → Store κ ν → Outcome Empty (Store κ ν)}

/-- A poll applies one response after another. -/
theorem exists_answers_of_pollEach {batches : List β} {poll poll' : Poll σ κ ν}
    (h : pollEach request unitId encode apply batches poll = .ok poll') :
    ∃ answers : List (β × Bytes), (∀ answer ∈ answers, answer.1 ∈ batches) ∧
      answers.foldlM (fun store answer => apply answer.1 answer.2 store) poll.store = .ok poll'.store := by
  induction batches generalizing poll with
  | nil =>
    obtain rfl := Outcome.ok.inj h
    exact ⟨[], fun _ hmem => absurd hmem List.not_mem_nil, rfl⟩
  | cons batch batches ih =>
    rw [pollEach] at h
    split at h
    · next responsePdu connection _ =>
      obtain ⟨store, hstore, hrest⟩ := bind_eq_ok.mp h
      obtain ⟨answers, hasked, hall⟩ := ih hrest
      refine ⟨(batch, responsePdu) :: answers, ?_, ?_⟩
      · rw [List.forall_mem_cons]
        exact ⟨List.mem_cons_self, fun answer hmem => List.mem_cons_of_mem _ (hasked answer hmem)⟩
      · rw [List.foldlM_cons, hstore, ok_bind]
        exact hall
    · obtain ⟨answers, hasked, hall⟩ := ih h
      exact ⟨answers, fun answer hmem => List.mem_cons_of_mem _ (hasked answer hmem), hall⟩
    · cases h

/-- The responses of one section, as responses of the machine. -/
theorem applyAll_section {wrap : β × Bytes → PollAnswer} (put : Store κ ν → MachineStores)
    (hwrap : ∀ answer store, (wrap answer).apply machine (put store) =
      (apply answer.1 answer.2 store >>= fun store => pure (put store)))
    {answers : List (β × Bytes)} {store store' : Store κ ν}
    (h : answers.foldlM (fun store answer => apply answer.1 answer.2 store) store = .ok store') :
    applyAll machine (answers.map wrap) (put store) = .ok (put store') := by
  induction answers generalizing store with
  | nil =>
    obtain rfl := Outcome.ok.inj h
    rfl
  | cons answer answers ih =>
    obtain ⟨between, hfirst, hrest⟩ := bind_eq_ok.mp h
    have hfirst : apply answer.1 answer.2 store = .ok between := hfirst
    rw [applyAll, List.map_cons, List.foldlM_cons, hwrap, hfirst]
    exact ih hrest

end Each

theorem applyAll_append {answers answers' : List PollAnswer} {stores between stores' : MachineStores}
    (h : applyAll machine answers stores = .ok between) (h' : applyAll machine answers' between = .ok stores') :
    applyAll machine (answers ++ answers') stores = .ok stores' := by
  induction answers generalizing stores with
  | nil =>
    obtain rfl := Outcome.ok.inj h
    exact h'
  | cons answer answers ih =>
    obtain ⟨first, hfirst, hrest⟩ := bind_eq_ok.mp h
    exact bind_eq_ok.mpr ⟨first, hfirst, ih hrest⟩

/-- A turn of the polling loop is responses to what the polls ask for. -/
theorem exists_answers_of_pollCycle {σ : Type} {request : Exchange σ} {connection connection' : σ}
    {stores stores' : MachineStores} {broken broken' : Bool}
    (h : pollCycle request machine connection stores broken = .ok (connection', stores', broken')) :
    ∃ answers, (∀ answer ∈ answers, PollAnswer.asked machine answer = true) ∧
      applyAll machine answers stores = .ok stores' := by
  obtain ⟨registers, hregisters, h⟩ := bind_eq_ok.mp h
  obtain ⟨coils, hcoils, h⟩ := bind_eq_ok.mp h
  obtain ⟨discreteInputs, hdiscreteInputs, h⟩ := bind_eq_ok.mp h
  obtain ⟨inputRegisters, hinputRegisters, h⟩ := bind_eq_ok.mp h
  obtain ⟨fileRecords, hfileRecords, h⟩ := bind_eq_ok.mp h
  cases h
  obtain ⟨answers₁, hasked₁, hall₁⟩ := exists_answers_of_pollEach hregisters
  obtain ⟨answers₂, hasked₂, hall₂⟩ := exists_answers_of_pollEach hcoils
  obtain ⟨answers₃, hasked₃, hall₃⟩ := exists_answers_of_pollEach hdiscreteInputs
  obtain ⟨answers₄, hasked₄, hall₄⟩ := exists_answers_of_pollEach hinputRegisters
  obtain ⟨answers₅, hasked₅, hall₅⟩ := exists_answers_of_pollEach hfileRecords
  refine ⟨answers₁.map (fun answer => PollAnswer.registers answer.1 answer.2) ++
    (answers₂.map (fun answer => PollAnswer.coils answer.1 answer.2) ++
    (answers₃.map (fun answer => PollAnswer.discreteInputs answer.1 answer.2) ++
    (answers₄.map (fun answer => PollAnswer.inputRegisters answer.1 answer.2) ++
    answers₅.map (fun answer => PollAnswer.fileRecord answer.1 answer.2)))), ?_, ?_⟩
  · simp only [List.forall_mem_append, List.forall_mem_map, asked, decide_eq_true_eq]
    exact ⟨hasked₁, hasked₂, hasked₃, hasked₄, hasked₅⟩
  · refine applyAll_append (applyAll_section (fun store => { stores with registers := store })
      (fun _ _ => rfl) hall₁) ?_
    refine applyAll_append (applyAll_section
      (fun store => { stores with registers := registers.store, coils := store }) (fun _ _ => rfl) hall₂) ?_
    refine applyAll_append (applyAll_section
      (fun store => { stores with
        registers := registers.store, coils := coils.store, discreteInputs := store }) (fun _ _ => rfl) hall₃) ?_
    refine applyAll_append (applyAll_section
      (fun store => { stores with
        registers := registers.store, coils := coils.store, discreteInputs := discreteInputs.store,
        inputRegisters := store }) (fun _ _ => rfl) hall₄) ?_
    exact applyAll_section
      (fun store => { stores with
        registers := registers.store, coils := coils.store, discreteInputs := discreteInputs.store,
        inputRegisters := inputRegisters.store, fileRecords := store }) (fun _ _ => rfl) hall₅

end PollAnswer

end InfusedModbus.Client
