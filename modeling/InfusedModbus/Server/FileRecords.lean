import InfusedModbus.Protocol.DeviceDescriptionManifest
import InfusedModbus.Server.MachineState

/-! The handlers of the file record function codes. Every sub-request is checked
against the description before the store is touched; a read is answered from the
store as it is, a write stores exactly what it was sent. The reserved file number
reads the compressed device description in chunks instead. -/

namespace InfusedModbus.Server

open Foundation Foundation.Outcome Protocol Datafs

def findFileRecord (fileRecords : List FileRecordDescription) (fileNumber recordNumber : UInt16) :
    Option FileRecordDescription :=
  fileRecords.find? fun description =>
    description.fileNumber == fileNumber && description.recordNumber == recordNumber

theorem findFileRecord_eq_some {fileRecords : List FileRecordDescription} {fileNumber recordNumber : UInt16}
    {description : FileRecordDescription} (h : findFileRecord fileRecords fileNumber recordNumber = some description) :
    description ∈ fileRecords ∧ description.fileNumber = fileNumber ∧ description.recordNumber = recordNumber := by
  have hfound := List.find?_some h
  simp only [Bool.and_eq_true, beq_iff_eq] at hfound
  exact ⟨List.mem_of_find?_eq_some h, hfound.1, hfound.2⟩

/-! ### Read File Record -/

/-- The check loop of a read: the description of each sub-request, or an exception code. -/
def resolveFileReads (fileRecords : List FileRecordDescription) :
    List FileRecordSubRequest → Except UInt8 (List FileRecordDescription)
  | [] => .ok []
  | subRequest :: subRequests =>
    match findFileRecord fileRecords subRequest.fileNumber subRequest.recordNumber with
    | none => .error exceptionIllegalDataAddress
    | some description =>
      if description.recordLength ≠ subRequest.recordLength then .error exceptionIllegalDataValue
      else
        match resolveFileReads fileRecords subRequests with
        | .error code => .error code
        | .ok resolved => .ok (description :: resolved)

/-- The stored bytes of a record; zeros of the declared length when nothing was stored. -/
def storedRecord (fileRecordStore : FileRecordStore) (description : FileRecordDescription) : Bytes :=
  (fileRecordStore.get (description.fileNumber, description.recordNumber)).getD
    (List.replicate (description.recordLength.toNat * 2) 0)

def handleReadFileRecord (pdu : Bytes) (fileRecords : List FileRecordDescription)
    (fileRecordStore : FileRecordStore) : Handled Bytes :=
  letOk (ReadFileRecordRequest.decode pdu) (.ok (exception functionCodeReadFileRecord exceptionIllegalDataValue))
    fun request =>
    match resolveFileReads fileRecords request.subRequests with
    | .error code => .ok (exception functionCodeReadFileRecord code)
    | .ok resolved =>
      let encoded := (ReadFileRecordResponse.mk (resolved.map (storedRecord fileRecordStore))).encode
      if encoded.length > maxPduLen then .ok (exception functionCodeReadFileRecord exceptionIllegalDataValue)
      else .ok encoded

/-- The descriptions that sub-requests name, each of the length asked for. -/
abbrev Described (fileRecords : List FileRecordDescription) :
    List FileRecordSubRequest → List FileRecordDescription → Prop :=
  List.Forall₂ fun subRequest description =>
    findFileRecord fileRecords subRequest.fileNumber subRequest.recordNumber = some description ∧
      description.recordLength = subRequest.recordLength

theorem resolveFileReads_eq_ok {fileRecords : List FileRecordDescription}
    {subRequests : List FileRecordSubRequest} {resolved : List FileRecordDescription} :
    resolveFileReads fileRecords subRequests = .ok resolved ↔ Described fileRecords subRequests resolved := by
  induction subRequests generalizing resolved with
  | nil => cases resolved <;> simp [resolveFileReads]
  | cons subRequest subRequests ih =>
    rw [resolveFileReads]
    cases hfind : findFileRecord fileRecords subRequest.fileNumber subRequest.recordNumber with
    | none => cases resolved <;> simp [hfind]
    | some description =>
      by_cases hlen : description.recordLength = subRequest.recordLength
      · cases hrest : resolveFileReads fileRecords subRequests with
        | error code =>
          simp only [hrest, reduceCtorEq, false_iff] at ih
          cases resolved <;> simp [hlen, ih]
        | ok rest =>
          simp only [hrest, Except.ok.injEq] at ih
          cases resolved with
          | nil => simp [hlen]
          | cons d ds =>
            simp only [hlen, ne_eq, not_true_eq_false, if_false, Except.ok.injEq, List.cons.injEq,
              List.forall₂_cons, hfind, Option.some.injEq, ← ih]
            constructor
            · rintro ⟨rfl, rfl⟩
              exact ⟨⟨rfl, hlen⟩, rfl⟩
            · rintro ⟨⟨rfl, _⟩, rfl⟩
              exact ⟨rfl, rfl⟩
      · cases resolved with
        | nil => simp [hlen]
        | cons d ds =>
          simp only [hlen, ne_eq, not_false_eq_true, if_true, reduceCtorEq, List.forall₂_cons, hfind,
            Option.some.injEq, false_iff, not_and]
          rintro ⟨rfl, h⟩
          exact absurd h hlen

section Read

variable {pdu : Bytes} {fileRecords : List FileRecordDescription} {fileRecordStore : FileRecordStore}

/-- A file record read is answered with an exception or with the stored records of
the described sub-requests, in at most a PDU. -/
theorem handleReadFileRecord_cases (pdu : Bytes) (fileRecords : List FileRecordDescription)
    (fileRecordStore : FileRecordStore) :
    (∃ code, handleReadFileRecord pdu fileRecords fileRecordStore =
      .ok (exception functionCodeReadFileRecord code)) ∨
    ∃ request resolved, ReadFileRecordRequest.decode pdu = .ok request ∧
      Described fileRecords request.subRequests resolved ∧
      (ReadFileRecordResponse.mk (resolved.map (storedRecord fileRecordStore))).encode.length ≤ maxPduLen ∧
      handleReadFileRecord pdu fileRecords fileRecordStore =
        .ok (ReadFileRecordResponse.mk (resolved.map (storedRecord fileRecordStore))).encode := by
  rw [handleReadFileRecord]
  cases hdec : ReadFileRecordRequest.decode pdu with
  | panic => exact absurd hdec (ReadFileRecordRequest.decode_ne_panic pdu)
  | err e => exact .inl ⟨_, rfl⟩
  | ok request =>
    rw [letOk_ok]
    cases hres : resolveFileReads fileRecords request.subRequests with
    | error code => exact .inl ⟨code, rfl⟩
    | ok resolved =>
      by_cases hlen : (ReadFileRecordResponse.mk (resolved.map (storedRecord fileRecordStore))).encode.length >
          maxPduLen
      · exact .inl ⟨exceptionIllegalDataValue, by simp only [hlen, if_true]⟩
      · exact .inr ⟨request, resolved, rfl, resolveFileReads_eq_ok.mp hres, by omega, by
          simp only [hlen, if_false]⟩

end Read

/-! ### Write File Record -/

/-- The check loop of a write: the exception code of the first bad sub-request. -/
def checkFileWrites (fileRecords : List FileRecordDescription) :
    List WriteFileRecordSubRequest → Option UInt8
  | [] => none
  | subRequest :: subRequests =>
    match findFileRecord fileRecords subRequest.fileNumber subRequest.recordNumber with
    | none => some exceptionIllegalDataAddress
    | some description =>
      if subRequest.recordData.length ≠ description.recordLength.toNat * 2 then some exceptionIllegalDataValue
      else checkFileWrites fileRecords subRequests

/-- The key and value pairs a checked write stores. -/
def storeRecords (subRequests : List WriteFileRecordSubRequest) : List ((UInt16 × UInt16) × Bytes) :=
  subRequests.map fun subRequest => ((subRequest.fileNumber, subRequest.recordNumber), subRequest.recordData)

def handleWriteFileRecord (pdu : Bytes) (fileRecords : List FileRecordDescription)
    (fileRecordStore : FileRecordStore) : Handled (Bytes × FileRecordStore) :=
  letOk (WriteFileRecordRequest.decode pdu)
    (.ok (exception functionCodeWriteFileRecord exceptionIllegalDataValue, fileRecordStore)) fun request =>
    match checkFileWrites fileRecords request.subRequests with
    | some code => .ok (exception functionCodeWriteFileRecord code, fileRecordStore)
    | none => do
      let fileRecordStore := fileRecordStore.setAll (storeRecords request.subRequests)
      let response ← unwrap (WriteFileRecordResponse.mk request.subRequests).encode
      pure (response, fileRecordStore)

/-- A sub-request names a described record and carries as many bytes as declared. -/
def WritesDeclaredLength (fileRecords : List FileRecordDescription) (subRequest : WriteFileRecordSubRequest) :
    Prop :=
  ∃ description, findFileRecord fileRecords subRequest.fileNumber subRequest.recordNumber = some description ∧
    subRequest.recordData.length = description.recordLength.toNat * 2

theorem checkFileWrites_eq_none {fileRecords : List FileRecordDescription}
    {subRequests : List WriteFileRecordSubRequest} :
    checkFileWrites fileRecords subRequests = none ↔ ∀ s ∈ subRequests, WritesDeclaredLength fileRecords s := by
  induction subRequests with
  | nil => simp [checkFileWrites]
  | cons subRequest subRequests ih =>
    rw [checkFileWrites, List.forall_mem_cons, ← ih, WritesDeclaredLength]
    cases findFileRecord fileRecords subRequest.fileNumber subRequest.recordNumber with
    | none => simp
    | some description =>
      by_cases hlen : subRequest.recordData.length = description.recordLength.toNat * 2 <;> simp [hlen]

/-- A checked write can be echoed: declared lengths are whole words. -/
theorem encode_of_checked {fileRecords : List FileRecordDescription} {subRequests : List WriteFileRecordSubRequest}
    (h : checkFileWrites fileRecords subRequests = none) :
    ∃ response, (WriteFileRecordResponse.mk subRequests).encode = .ok response := by
  have heven : ∀ s ∈ subRequests, s.recordData.length % 2 = 0 := by
    intro s hs
    obtain ⟨description, _, hlen⟩ := checkFileWrites_eq_none.mp h s hs
    omega
  exact ⟨_, encodeWriteFileRecord_eq_ok.mpr ⟨heven, rfl⟩⟩

/-- A file record write is answered with an exception and no change, or with an echo
of the sub-requests, which are then stored. -/
theorem handleWriteFileRecord_cases (pdu : Bytes) (fileRecords : List FileRecordDescription)
    (fileRecordStore : FileRecordStore) :
    (∃ code, handleWriteFileRecord pdu fileRecords fileRecordStore =
      .ok (exception functionCodeWriteFileRecord code, fileRecordStore)) ∨
    ∃ request response, WriteFileRecordRequest.decode pdu = .ok request ∧
      (∀ s ∈ request.subRequests, WritesDeclaredLength fileRecords s) ∧
      (WriteFileRecordResponse.mk request.subRequests).encode = .ok response ∧
      handleWriteFileRecord pdu fileRecords fileRecordStore =
        .ok (response, fileRecordStore.setAll (storeRecords request.subRequests)) := by
  rw [handleWriteFileRecord]
  cases hdec : WriteFileRecordRequest.decode pdu with
  | panic => exact absurd hdec (map_ne_panic.mpr (decodeWriteFileRecord_ne_panic pdu _))
  | err e => exact .inl ⟨_, rfl⟩
  | ok request =>
    rw [letOk_ok]
    cases hcheck : checkFileWrites fileRecords request.subRequests with
    | some code => exact .inl ⟨code, rfl⟩
    | none =>
      obtain ⟨response, hencode⟩ := encode_of_checked hcheck
      refine .inr ⟨request, response, rfl, checkFileWrites_eq_none.mp hcheck, hencode, ?_⟩
      simp only [hencode, unwrap_ok, ok_bind, pure_eq]

/-! ### The compressed device description -/

/-- The loop over the sub-requests: the padded chunk of each, or an exception code. -/
def bulkTransferRecords (compressedToml : Bytes) : List FileRecordSubRequest → Outcome UInt8 (List Bytes)
  | [] => .ok []
  | subRequest :: subRequests =>
    match bulkTransferChunkRange compressedToml.length subRequest.recordNumber with
    | none => .err exceptionIllegalDataAddress
    | some range => do
      let chunk ← slice compressedToml range.1 range.2
      if subRequest.recordLength ≠ UInt16.ofNat (divCeil chunk.length 2) then .err exceptionIllegalDataValue
      else do
        let data := if chunk.length % 2 ≠ 0 then chunk ++ [0] else chunk
        let records ← bulkTransferRecords compressedToml subRequests
        pure (data :: records)

def handleReadDeviceDescriptionBulkTransfer (request : ReadFileRecordRequest) (compressedToml : Bytes) :
    Handled Bytes :=
  match bulkTransferRecords compressedToml request.subRequests with
  | .panic => .panic
  | .err code => .ok (exception functionCodeReadFileRecord code)
  | .ok records =>
    let encoded := (ReadFileRecordResponse.mk records).encode
    if encoded.length > maxPduLen then .ok (exception functionCodeReadFileRecord exceptionIllegalDataValue)
    else .ok encoded

theorem bulkTransferRecords_ne_panic (compressedToml : Bytes) (subRequests : List FileRecordSubRequest) :
    bulkTransferRecords compressedToml subRequests ≠ .panic := by
  induction subRequests with
  | nil => simp [bulkTransferRecords]
  | cons subRequest subRequests ih =>
    rw [bulkTransferRecords]
    cases hrange : bulkTransferChunkRange compressedToml.length subRequest.recordNumber with
    | none => simp
    | some range =>
      obtain ⟨_, hlt, hle, _⟩ := bulkTransferChunkRange_eq_some hrange
      simp only [slice_of_le hlt.le hle, ok_bind]
      split
      · simp
      · exact bind_ne_panic ih fun _ _ => by simp

/-- A bulk transfer is answered with an exception or with records that fit a PDU. -/
theorem handleReadDeviceDescriptionBulkTransfer_cases (request : ReadFileRecordRequest)
    (compressedToml : Bytes) :
    (∃ code, handleReadDeviceDescriptionBulkTransfer request compressedToml =
      .ok (exception functionCodeReadFileRecord code)) ∨
    ∃ records, bulkTransferRecords compressedToml request.subRequests = .ok records ∧
      (ReadFileRecordResponse.mk records).encode.length ≤ maxPduLen ∧
      handleReadDeviceDescriptionBulkTransfer request compressedToml =
        .ok (ReadFileRecordResponse.mk records).encode := by
  rw [handleReadDeviceDescriptionBulkTransfer]
  cases hrecords : bulkTransferRecords compressedToml request.subRequests with
  | panic => exact absurd hrecords (bulkTransferRecords_ne_panic _ _)
  | err code => exact .inl ⟨code, rfl⟩
  | ok records =>
    by_cases hlen : (ReadFileRecordResponse.mk records).encode.length > maxPduLen
    · exact .inl ⟨exceptionIllegalDataValue, by simp only [hlen, if_true]⟩
    · exact .inr ⟨records, rfl, by omega, by simp only [hlen, if_false]⟩

end InfusedModbus.Server
