import InfusedModbus.Client.Peer

/-! What the requests of a transaction write. Every request is sent for some points, those
whose statuses it decides; the words, bits and records that it writes are those of these
points and no others. -/

namespace InfusedModbus.Client

open Foundation Foundation.Outcome Protocol Datafs Server

/-! ### What a request writes -/

/-- What a device has to be written. -/
inductive WriteTarget where
  | word (address : UInt16)
  | bit (address : UInt16)
  | record (fileNumber recordNumber : UInt16)
  deriving DecidableEq, Repr

/-- The targets of a request of this kind, if it can be read. -/
def targetsIn {ε α : Type} (decoded : Outcome ε α) (targets : α → List WriteTarget) : List WriteTarget :=
  match decoded with
  | .ok request => targets request
  | _ => []

/-- The targets of a request, as its receiver reads it. -/
def writeTargets (pdu : Bytes) : List WriteTarget :=
  if pdu.head? = some functionCodeWriteSingleRegister then
    targetsIn (WriteSingleRegisterRequest.decode pdu) fun request => [.word request.registerAddress]
  else if pdu.head? = some functionCodeWriteMultipleRegisters then
    targetsIn (WriteMultipleRegistersRequest.decode pdu) fun request =>
      (List.range request.registerValues.length).map fun i => .word (advance request.startingAddress i)
  else if pdu.head? = some functionCodeWriteSingleCoil then
    targetsIn (WriteSingleCoilRequest.decode pdu) fun request => [.bit request.coilAddress]
  else if pdu.head? = some functionCodeWriteMultipleCoils then
    targetsIn (WriteMultipleCoilsRequest.decode pdu) fun request =>
      (List.range request.coilValues.length).map fun i => .bit (advance request.startingAddress i)
  else if pdu.head? = some functionCodeMaskWriteRegister then
    targetsIn (MaskWriteRegisterRequest.decode pdu) fun request => [.word request.referenceAddress]
  else if pdu.head? = some functionCodeWriteFileRecord then
    targetsIn (WriteFileRecordRequest.decode pdu) fun request =>
      request.subRequests.map fun sub => .record sub.fileNumber sub.recordNumber
  else []

/-- A point that a request is sent for; a file record goes by the name it was staged under. -/
inductive WrittenPoint where
  | register (description : RegisterDescription)
  | coil (description : CoilDescription)
  | fileRecord (stagedName : String) (fileNumber recordNumber : UInt16)

namespace WrittenPoint

def targets : WrittenPoint → List WriteTarget
  | .register description =>
    (List.range description.dataType.registerCount).map fun i => .word (advance description.address i)
  | .coil description => [.bit description.address]
  | .fileRecord _ fileNumber recordNumber => [.record fileNumber recordNumber]

end WrittenPoint

/-- The requests of a round with the points they are sent for. -/
def sentEachFor {β : Type} (confirmation : β → Outcome Empty Confirmation) (points : β → List WrittenPoint)
    (writes : List β) : List (List WrittenPoint × Bytes) :=
  writes.flatMap fun write =>
    match confirmation write with
    | .ok confirming => confirming.requests.map fun pdu => (points write, pdu)
    | _ => []

/-- The requests of a transaction with the points they are sent for, round by round. -/
def attributedWrites (config : MachineTransactionConfig) (transaction : List (String × StagedValue)) :
    List (List WrittenPoint × Bytes) :=
  let resolution := resolveTransaction config transaction .empty
  sentEachFor (confirmRegisterBatch config.memLayout) (fun batch => batch.items.map fun entry => .register entry.1)
      (buildRegisterWriteBatches resolution.registerEntries) ++
    sentEachFor confirmCoilBatch (fun batch => batch.items.map fun entry => .coil entry.1)
      (buildCoilWriteBatches resolution.coilEntries) ++
    sentEachFor (fun entry => pure (confirmMaskWrite entry.1 entry.2.1 entry.2.2)) (fun entry => [.register entry.1])
      resolution.maskedRegisterEntries ++
    sentEachFor (fun entry => pure (confirmFileRecordWrite entry.2.1 entry.2.2.1 entry.2.2.2))
      (fun entry => [.fileRecord entry.1 entry.2.1 entry.2.2.1]) resolution.fileRecordEntries

theorem map_snd_sentEachFor {β : Type} (confirmation : β → Outcome Empty Confirmation) (points : β → List WrittenPoint)
    (writes : List β) : (sentEachFor confirmation points writes).map Prod.snd = sentEach confirmation writes := by
  rw [sentEachFor, sentEach, List.map_flatMap]
  apply List.flatMap_congr
  intro write _
  cases confirmation write with
  | ok confirming =>
    dsimp only
    rw [List.map_map]
    exact List.map_id _
  | err e => rfl
  | panic => rfl

/-- They are the requests that are sent. -/
theorem map_snd_attributedWrites (config : MachineTransactionConfig) (transaction : List (String × StagedValue)) :
    (attributedWrites config transaction).map Prod.snd = sentWrites config transaction := by
  simp only [attributedWrites, sentWrites, List.map_append, map_snd_sentEachFor]

/-! ### Requests of each kind -/

/-- One request is sent for the points, and it writes what they are. -/
def RequestsFor (confirming : Outcome Empty Confirmation) (points : List WrittenPoint) : Prop :=
  ∃ confirmation pdu, confirming = .ok confirmation ∧ confirmation.requests = [pdu] ∧
    writeTargets pdu = points.flatMap WrittenPoint.targets

theorem writeTargets_singleRegister (address value : UInt16) :
    writeTargets (WriteSingleRegisterRequest.encode ⟨address, value⟩) = [.word address] := by
  have hdecode : WriteSingleRegisterRequest.decode (WriteSingleRegisterRequest.encode ⟨address, value⟩) =
      .ok ⟨address, value⟩ := by
    rw [WriteSingleRegisterRequest.decode, WriteSingleRegisterRequest.encode, decodeAddressAndQuantity_encode, map_ok]
  have hhead : (WriteSingleRegisterRequest.encode ⟨address, value⟩).head? = some functionCodeWriteSingleRegister := rfl
  rw [writeTargets, hhead, if_pos rfl, hdecode]
  rfl

theorem writeTargets_multipleRegisters {address : UInt16} {values : List UInt16} {pdu : Bytes}
    (h : WriteMultipleRegistersRequest.encode ⟨address, values⟩ = .ok pdu) :
    writeTargets pdu = (List.range values.length).map fun i => .word (advance address i) := by
  have hhead : pdu.head? = some functionCodeWriteMultipleRegisters := by
    unfold WriteMultipleRegistersRequest.encode at h
    split at h
    · cases h
    · rw [← Outcome.ok.inj h]
      rfl
  rw [writeTargets, hhead, if_neg (by decide), if_pos rfl, WriteMultipleRegistersRequest.decode_encode h]
  rfl

theorem writeTargets_singleCoil (address : UInt16) (value : Bool) :
    writeTargets (WriteSingleCoilRequest.encode ⟨address, value⟩) = [.bit address] := by
  have hhead : (WriteSingleCoilRequest.encode ⟨address, value⟩).head? = some functionCodeWriteSingleCoil := rfl
  have hdecode : WriteSingleCoilRequest.decode (WriteSingleCoilRequest.encode ⟨address, value⟩) =
      .ok ⟨address, value⟩ := by
    rw [WriteSingleCoilRequest.decode, WriteSingleCoilRequest.encode, decodeWriteSingleCoil_encode, map_ok]
  rw [writeTargets, hhead, if_neg (by decide), if_neg (by decide), if_pos rfl, hdecode]
  rfl

theorem writeTargets_multipleCoils {address : UInt16} {values : List Bool} (h : values.length ≤ 1968) :
    writeTargets (WriteMultipleCoilsRequest.encode ⟨address, values⟩) =
      (List.range values.length).map fun i => .bit (advance address i) := by
  have hhead : (WriteMultipleCoilsRequest.encode ⟨address, values⟩).head? = some functionCodeWriteMultipleCoils := rfl
  have hdecode : WriteMultipleCoilsRequest.decode (WriteMultipleCoilsRequest.encode ⟨address, values⟩) =
      .ok ⟨address, values⟩ := by
    apply WriteMultipleCoilsRequest.decode_encode
    rw [divCeil]
    dsimp only
    omega
  rw [writeTargets, hhead, if_neg (by decide), if_neg (by decide), if_neg (by decide), if_pos rfl, hdecode]
  rfl

theorem writeTargets_fileRecord {sub : WriteFileRecordSubRequest} {pdu : Bytes}
    (h : WriteFileRecordRequest.encode ⟨[sub]⟩ = .ok pdu) (hlength : sub.recordData.length < 131072) :
    writeTargets pdu = [.record sub.fileNumber sub.recordNumber] := by
  have hhead : pdu.head? = some functionCodeWriteFileRecord := by
    rw [(encodeWriteFileRecord_eq_ok.mp h).2]
    rfl
  have hdecode : WriteFileRecordRequest.decode pdu = .ok ⟨[sub]⟩ := by
    rw [WriteFileRecordRequest.decode, decodeWriteFileRecord_encode_single h hlength, map_ok]
  rw [writeTargets, hhead, if_neg (by decide), if_neg (by decide), if_neg (by decide), if_neg (by decide),
    if_neg (by decide), if_pos rfl, hdecode]
  rfl

/-! ### Requests of each round -/

/-- The targets of neighbours are those of the range they make up. -/
theorem flatMap_range_of_contiguous {τ : Type} {addressOf sizeOfItem : τ → UInt16} (target : UInt16 → WriteTarget)
    {address : UInt16} {items : List τ} (h : Contiguous addressOf sizeOfItem address items) :
    (items.flatMap fun item => (List.range (sizeOfItem item).toNat).map fun i => target (advance (addressOf item) i)) =
      (List.range (slots sizeOfItem items)).map fun i => target (advance address i) := by
  induction items generalizing address with
  | nil => rfl
  | cons item items ih =>
    obtain ⟨rfl, hrest⟩ := h
    have hslots : slots sizeOfItem (item :: items) = (sizeOfItem item).toNat + slots sizeOfItem items := rfl
    have hnext : advance (addressOf item) (sizeOfItem item).toNat = addressOf item + sizeOfItem item := by
      rw [advance, UInt16.ofNat_toNat]
    rw [List.flatMap_cons, ih hrest, hslots, List.range_add, List.map_append, List.map_map]
    congr 1
    apply List.map_congr_left
    intro i _
    rw [Function.comp, advance_add, hnext]

theorem length_wordsOf_items {memLayout : MemLayout} {items : List (RegisterDescription × RegisterValue)}
    (htypes : ∀ entry ∈ items, entry.1.dataType = entry.2.dataType) :
    (items.flatMap fun entry => registerValueToWords entry.2 memLayout).length =
      slots (fun entry : RegisterDescription × RegisterValue => wordsOf RegisterDescription.dataType entry.1) items := by
  rw [List.length_flatMap, slots]
  congr 1
  apply List.map_congr_left
  intro entry hentry
  rw [length_registerValueToWords, ← htypes entry hentry, toNat_wordsOf]
  rfl

theorem requestsFor_registerBatch (memLayout : MemLayout) {entries : List (RegisterDescription × RegisterValue)}
    (htypes : ∀ entry ∈ entries, entry.1.dataType = entry.2.dataType)
    {batch : Batch (RegisterDescription × RegisterValue)} (hbatch : batch ∈ buildRegisterWriteBatches entries) :
    RequestsFor (confirmRegisterBatch memLayout batch) (batch.items.map fun entry => .register entry.1) := by
  have hsound := sound_of_mem_buildBatches
    (fun entry _ => ⟨(fitsBatch_wordsOf (by decide) (by decide) entry.1).le,
      (fitsBatch_wordsOf (by decide) (by decide) entry.1).noOverflow⟩) batch hbatch
  have hitems : ∀ entry ∈ batch.items, entry.1.dataType = entry.2.dataType := fun entry hentry =>
    htypes entry (exists_batch_iff.mp ⟨batch, hbatch, hentry⟩)
  have hslots := hsound.quantity_eq
  by_cases hone : batch.quantity = 1
  · rw [hone] at hslots
    obtain ⟨register, value, hsingle, hcount⟩ := items_of_quantity_one hslots.symm
    have htype := hitems (register, value) (by rw [hsingle]; exact List.mem_singleton_self _)
    obtain ⟨word, -, hencode⟩ := @encodeWriteRequest_eq register value memLayout hcount htype
    refine ⟨confirmWrite register value memLayout, WriteSingleRegisterRequest.encode ⟨register.address, word⟩, ?_, ?_, ?_⟩
    · rw [confirmRegisterBatch, if_pos hone, hsingle]
      rfl
    · simp only [Confirmation.requests, confirmWrite, hencode]
    · rw [writeTargets_singleRegister, hsingle]
      simp [WrittenPoint.targets, hcount]
  · have hlength := @length_wordsOf_items memLayout _ hitems
    have hle := UInt16.le_iff_toNat_le.mp hsound.quantity_le
    obtain ⟨pdu, hencode⟩ : ∃ pdu, WriteMultipleRegistersRequest.encode ⟨batch.startingAddress,
        batch.items.flatMap fun entry => registerValueToWords entry.2 memLayout⟩ = .ok pdu := by
      refine ⟨_, if_neg ?_⟩
      dsimp only
      rw [hlength, ← hslots, not_lt]
      exact hle
    refine ⟨_, pdu, if_neg hone, ?_, ?_⟩
    · simp only [Confirmation.requests, confirmWriteMultiple, hencode, mapErr_ok]
    · rw [writeTargets_multipleRegisters hencode, hlength, ← flatMap_range_of_contiguous _ hsound.contiguous,
        List.flatMap_map]
      apply List.flatMap_congr
      intro entry _
      rw [toNat_wordsOf]
      rfl

theorem requestsFor_coilBatch {entries : List (CoilDescription × Bool)} {batch : Batch (CoilDescription × Bool)}
    (hbatch : batch ∈ buildCoilWriteBatches entries) :
    RequestsFor (confirmCoilBatch batch) (batch.items.map fun entry => .coil entry.1) := by
  have hsound := sound_of_mem_buildBatches (fun entry _ => fitsBatch_bit (by decide) (by decide) entry) batch hbatch
  have hlength : slots (fun _ : CoilDescription × Bool => 1) batch.items = batch.items.length := by
    simp [slots]
  have hle : batch.items.length ≤ 1968 := by
    have hquantity := UInt16.le_iff_toNat_le.mp hsound.quantity_le
    rwa [hsound.quantity_eq, hlength] at hquantity
  unfold confirmCoilBatch
  split
  · next coil value hsingle =>
    refine ⟨_, _, rfl, rfl, ?_⟩
    rw [encodeCoilWriteRequest, writeTargets_singleCoil, hsingle]
    rfl
  · refine ⟨_, _, rfl, rfl, ?_⟩
    rw [writeTargets_multipleCoils (by rwa [List.length_map]), List.length_map, ← hlength,
      ← flatMap_range_of_contiguous _ hsound.contiguous, List.flatMap_map]
    apply List.flatMap_congr
    intro entry _
    simp [WrittenPoint.targets]

theorem requestsFor_fileRecord {stagedName : String} {fileNumber recordNumber : UInt16} {value : Bytes}
    {recordLength : UInt16} (hlength : value.length = recordLength.toNat * 2) :
    RequestsFor (pure (confirmFileRecordWrite fileNumber recordNumber value))
      [.fileRecord stagedName fileNumber recordNumber] := by
  have hbound := recordLength.toNat_lt
  obtain ⟨pdu, hencode⟩ : ∃ pdu, WriteFileRecordRequest.encode ⟨[⟨fileNumber, recordNumber, value⟩]⟩ = .ok pdu := by
    refine ⟨_, encodeWriteFileRecord_eq_ok.mpr ⟨?_, rfl⟩⟩
    intro sub hsub
    obtain rfl := List.mem_singleton.mp hsub
    dsimp only
    omega
  refine ⟨_, pdu, rfl, ?_, ?_⟩
  · simp only [Confirmation.requests, confirmFileRecordWrite, hencode, mapErr_ok]
  · rw [writeTargets_fileRecord hencode (by dsimp only; omega)]
    rfl

/-- Where every write of a round sends its one request, the round sends these. -/
theorem sentEachFor_of_requestsFor {β : Type} {confirmation : β → Outcome Empty Confirmation}
    {points : β → List WrittenPoint} {writes : List β}
    (h : ∀ write ∈ writes, RequestsFor (confirmation write) (points write)) :
    (sentEachFor confirmation points writes).map Prod.fst = writes.map points ∧
      ∀ request ∈ sentEachFor confirmation points writes,
        writeTargets request.2 = request.1.flatMap WrittenPoint.targets := by
  induction writes with
  | nil => exact ⟨rfl, fun _ hrequest => (List.not_mem_nil hrequest).elim⟩
  | cons write writes ih =>
    obtain ⟨⟨confirming, pdu, hconfirming, hrequests, htargets⟩, hwrites⟩ := List.forall_mem_cons.mp h
    obtain ⟨hpoints, hrest⟩ := ih hwrites
    have hcons : sentEachFor confirmation points (write :: writes) =
        (points write, pdu) :: sentEachFor confirmation points writes := by
      simp only [sentEachFor, List.flatMap_cons, hconfirming, hrequests, List.map_cons, List.map_nil,
        List.singleton_append]
    rw [hcons]
    exact ⟨by rw [List.map_cons, hpoints, List.map_cons], List.forall_mem_cons.mpr ⟨htargets, hrest⟩⟩

end InfusedModbus.Client
