import InfusedModbus.Client.TransactionReport

/-! Any peer at the other end of the connection: it answers a request as it likes, from
all it has been sent so far, or lets it fail. What a transaction sends does not depend on
the answers. -/

namespace InfusedModbus.Client

open Foundation Foundation.Outcome Protocol Datafs Server

/-- An answer to the last of the requests sent so far, each with the unit it went to. -/
abbrev Peer := List (UInt8 × Bytes) → Except IoError Bytes

/-- The connection to a peer, which is all the requests it was sent. -/
def Peer.exchange (peer : Peer) : Exchange (List (UInt8 × Bytes)) := fun unitId pdu sent =>
  (match peer (sent ++ [(unitId, pdu)]) with
    | .ok responsePdu => .ok responsePdu
    | .error error => .err error,
  sent ++ [(unitId, pdu)])

/-! ### What a confirmation sends -/

/-- The request of a confirmation, unless it could not be built. -/
def Confirmation.requests (confirmation : Confirmation) : List Bytes :=
  match confirmation.pdu with
  | .ok pdu => [pdu]
  | _ => []

/-- A confirmation that comes to a status whatever the answer is. -/
structure Confirmation.Steady (confirmation : Confirmation) : Prop where
  pdu_ne_panic : confirmation.pdu ≠ .panic
  interpret_ne_panic : ∀ responsePdu, confirmation.interpret responsePdu ≠ .panic

theorem Confirmation.Steady.run_eq {confirmation : Confirmation} (h : confirmation.Steady) (peer : Peer)
    (unitId : UInt8) (sent : List (UInt8 × Bytes)) :
    ∃ status, confirmation.run peer.exchange unitId sent =
      (.ok status, sent ++ confirmation.requests.map fun pdu => (unitId, pdu)) := by
  unfold Confirmation.run Confirmation.requests
  cases hpdu : confirmation.pdu with
  | panic => exact absurd hpdu h.pdu_ne_panic
  | err reason => exact ⟨.failed reason, by simp⟩
  | ok pdu =>
    dsimp only [Peer.exchange]
    cases peer (sent ++ [(unitId, pdu)]) with
    | error error => exact ⟨_, rfl⟩
    | ok responsePdu =>
      dsimp only [Confirmation.conclude]
      cases hstatus : confirmation.interpret responsePdu with
      | ok status => exact ⟨status, rfl⟩
      | err e => exact e.elim
      | panic => exact absurd hstatus (h.interpret_ne_panic responsePdu)

/-- The requests of a round, one after another. -/
def sentEach {β : Type} (confirmation : β → Outcome Empty Confirmation) (writes : List β) : List Bytes :=
  writes.flatMap fun write =>
    match confirmation write with
    | .ok confirming => confirming.requests
    | _ => []

theorem confirmEach_peer {β : Type} {confirmation : β → Outcome Empty Confirmation} {names : β → List String}
    {writes : List β} (h : ∀ write ∈ writes, ∃ confirming, confirmation write = .ok confirming ∧ confirming.Steady)
    (peer : Peer) (unitId : UInt8) (sent : List (UInt8 × Bytes)) (report : WriteReport) :
    ∃ report', confirmEach peer.exchange unitId confirmation names writes sent report =
      .ok (sent ++ (sentEach confirmation writes).map fun pdu => (unitId, pdu), report') := by
  induction writes generalizing sent report with
  | nil => exact ⟨report, by simp [confirmEach, sentEach]⟩
  | cons write writes ih =>
    obtain ⟨⟨confirming, hconfirming, hsteady⟩, hwrites⟩ := List.forall_mem_cons.mp h
    obtain ⟨status, hrun⟩ := hsteady.run_eq peer unitId sent
    obtain ⟨report', hrest⟩ := ih hwrites (sent ++ confirming.requests.map fun pdu => (unitId, pdu))
      (report.setAll ((names write).map fun name => (name, status)))
    refine ⟨report', ?_⟩
    rw [confirmEach, hconfirming, ok_bind]
    simp only [hrun, hrest, sentEach, List.flatMap_cons, hconfirming, List.map_append, List.append_assoc]

/-! ### The confirm functions -/

theorem interpretWriteResponse_ne_panic (responsePdu : Bytes) : interpretWriteResponse responsePdu ≠ .panic := by
  unfold interpretWriteResponse
  cases h : ExceptionResponse.decode responsePdu with
  | ok exception => simp
  | err error => cases error <;> simp
  | panic => exact absurd h (ExceptionResponse.decode_ne_panic responsePdu)

theorem interpretWriteFileRecordResponse_ne_panic (subRequests : List WriteFileRecordSubRequest)
    (responsePdu : Bytes) : interpretWriteFileRecordResponse subRequests responsePdu ≠ .panic := by
  unfold interpretWriteFileRecordResponse
  cases h : ExceptionResponse.decode responsePdu with
  | ok exception => simp
  | panic => exact absurd h (ExceptionResponse.decode_ne_panic responsePdu)
  | err error =>
    cases error with
    | notAnExceptionResponse functionCode =>
      dsimp only
      cases hdec : WriteFileRecordResponse.decode responsePdu with
      | ok response =>
        dsimp only
        split <;> simp
      | err error => simp
      | panic => exact absurd hdec (map_ne_panic.mpr (decodeWriteFileRecord_ne_panic responsePdu _))
    | _ => simp

theorem steady_confirmWrite (register : RegisterDescription) (value : RegisterValue) (memLayout : MemLayout) :
    (confirmWrite register value memLayout).Steady := by
  refine ⟨?_, interpretWriteResponse_ne_panic⟩
  dsimp only [confirmWrite, encodeWriteRequest]
  split
  · simp
  · next hcount =>
    split
    · simp
    · next htype =>
      have hlen : 0 < (registerValueToWords value memLayout).length := by
        rw [length_registerValueToWords]
        exact value.dataType.registerCount_pos
      simp [index_of_lt hlen]

theorem steady_confirmWriteMultiple (startingAddress : UInt16) (values : List UInt16) :
    (confirmWriteMultiple startingAddress values).Steady := by
  refine ⟨mapErr_ne_panic.mpr ?_, interpretWriteResponse_ne_panic⟩
  unfold WriteMultipleRegistersRequest.encode
  split <;> simp

theorem items_of_mem_buildRegisterWriteBatches {entries : List (RegisterDescription × RegisterValue)}
    {batch : Batch (RegisterDescription × RegisterValue)} (h : batch ∈ buildRegisterWriteBatches entries) :
    batch.items ≠ [] := by
  refine (sound_of_mem_buildBatches ?_ batch h).nonempty
  intro entry _
  have hfits : FitsBatch (wordsOf RegisterDescription.dataType) maxRegisterWriteBatchSize entry.1 :=
    fitsBatch_wordsOf (by decide) (by decide) entry.1
  exact ⟨hfits.le, hfits.noOverflow⟩

theorem steady_confirmRegisterBatch {memLayout : MemLayout} {batch : Batch (RegisterDescription × RegisterValue)}
    (h : batch.items ≠ []) : ∃ confirming, confirmRegisterBatch memLayout batch = .ok confirming ∧ confirming.Steady := by
  unfold confirmRegisterBatch
  split
  · rw [index_of_lt (List.length_pos_iff.mpr h), ok_bind]
    exact ⟨_, rfl, steady_confirmWrite _ _ _⟩
  · exact ⟨_, rfl, steady_confirmWriteMultiple _ _⟩

theorem steady_confirmCoilBatch (batch : Batch (CoilDescription × Bool)) :
    ∃ confirming, confirmCoilBatch batch = .ok confirming ∧ confirming.Steady := by
  unfold confirmCoilBatch
  split <;> exact ⟨_, rfl, by simp [confirmCoilWrite, confirmCoilWriteMultiple], interpretWriteResponse_ne_panic⟩

theorem steady_confirmFileRecordWrite (fileNumber recordNumber : UInt16) (value : Bytes) :
    (confirmFileRecordWrite fileNumber recordNumber value).Steady := by
  refine ⟨mapErr_ne_panic.mpr ?_, interpretWriteFileRecordResponse_ne_panic _⟩
  unfold WriteFileRecordRequest.encode encodeWriteFileRecord
  split <;> simp

/-! ### What a transaction sends -/

/-- A transaction holds what is staged, in whatever order the map gives it out. -/
def Enumerates (transaction : List (String × StagedValue)) (staged : Store String StagedValue) : Prop :=
  (transaction.map Prod.fst).Nodup ∧ ∀ name value, (name, value) ∈ transaction ↔ staged.get name = some value

/-- One staged value makes up the whole transaction. -/
theorem enumerates_singleton {transaction : List (String × StagedValue)} {name : String} {value : StagedValue} :
    Enumerates transaction (Store.empty.set name value) ↔ transaction = [(name, value)] := by
  have hget : ∀ name' value', (Store.empty.set name value).get name' = some value' ↔
      name' = name ∧ value' = value := by
    intro name' value'
    rw [Store.get_set]
    split
    · next hname => simp [hname, eq_comm]
    · next hname => simp [hname]
  constructor
  · rintro ⟨hnodup, hmem⟩
    have hall : ∀ entry ∈ transaction, entry = (name, value) := by
      rintro ⟨name', value'⟩ hentry
      obtain ⟨rfl, rfl⟩ := (hget name' value').mp ((hmem name' value').mp hentry)
      rfl
    have hself := (hmem name value).mpr ((hget name value).mpr ⟨rfl, rfl⟩)
    cases transaction with
    | nil => cases hself
    | cons entry rest =>
      cases rest with
      | nil => rw [hall entry List.mem_cons_self]
      | cons other rest =>
        rw [hall entry (by simp), hall other (by simp)] at hnodup
        simp at hnodup
  · rintro rfl
    refine ⟨by simp, fun name' value' => ?_⟩
    rw [hget, List.mem_singleton, Prod.mk.injEq]

/-- The requests of a transaction, round by round. -/
def sentWrites (config : MachineTransactionConfig) (transaction : List (String × StagedValue)) : List Bytes :=
  let resolution := resolveTransaction config transaction .empty
  sentEach (confirmRegisterBatch config.memLayout) (buildRegisterWriteBatches resolution.registerEntries) ++
    sentEach confirmCoilBatch (buildCoilWriteBatches resolution.coilEntries) ++
    sentEach (fun entry => pure (confirmMaskWrite entry.1 entry.2.1 entry.2.2)) resolution.maskedRegisterEntries ++
    sentEach (fun entry => pure (confirmFileRecordWrite entry.2.1 entry.2.2.1 entry.2.2.2)) resolution.fileRecordEntries

/-- A transaction comes to its end against every peer, and sends the unit of the machine
its requests, whatever the answers are. -/
theorem processTransaction_peer (peer : Peer) (config : MachineTransactionConfig)
    (transaction : List (String × StagedValue)) (sent : List (UInt8 × Bytes)) (report : WriteReport) :
    ∃ report', processTransaction peer.exchange config transaction sent report =
      .ok (sent ++ (sentWrites config transaction).map fun pdu => (config.unitId, pdu), report') := by
  have hresolution := resolveTransaction_eq config transaction report
  obtain ⟨r₁, h₁⟩ := @confirmEach_peer _ (confirmRegisterBatch config.memLayout)
    (batchNames RegisterDescription.name)
    (buildRegisterWriteBatches ((resolvedWrites config transaction).filterMap ResolvedWrite.asRegister))
    (fun _ hbatch => steady_confirmRegisterBatch (items_of_mem_buildRegisterWriteBatches hbatch)) peer config.unitId
    sent (report.setAll ((resolvedWrites config transaction).filterMap ResolvedWrite.asRefused))
  obtain ⟨r₂, h₂⟩ := @confirmEach_peer _ confirmCoilBatch (batchNames CoilDescription.name)
    (buildCoilWriteBatches ((resolvedWrites config transaction).filterMap ResolvedWrite.asCoil))
    (fun batch _ => steady_confirmCoilBatch batch) peer config.unitId _ r₁
  obtain ⟨r₃, h₃⟩ := @confirmEach_peer _
    (fun entry : RegisterDescription × UInt16 × UInt16 => pure (confirmMaskWrite entry.1 entry.2.1 entry.2.2))
    (fun entry => [entry.1.name]) ((resolvedWrites config transaction).filterMap ResolvedWrite.asMaskedRegister)
    (fun _ _ => ⟨_, rfl, by simp [confirmMaskWrite], interpretWriteResponse_ne_panic⟩) peer config.unitId _ r₂
  obtain ⟨r₄, h₄⟩ := @confirmEach_peer _
    (fun entry : String × UInt16 × UInt16 × Bytes =>
      pure (confirmFileRecordWrite entry.2.1 entry.2.2.1 entry.2.2.2))
    (fun entry => [entry.1]) ((resolvedWrites config transaction).filterMap ResolvedWrite.asFileRecord)
    (fun _ _ => ⟨_, rfl, steady_confirmFileRecordWrite _ _ _⟩) peer config.unitId _ r₃
  refine ⟨r₄, ?_⟩
  rw [processTransaction_eq_ok hresolution h₁ h₂ h₃ h₄, sentWrites, resolveTransaction_eq]
  simp only [List.map_append, List.append_assoc]

end InfusedModbus.Client
