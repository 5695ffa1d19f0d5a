import InfusedModbus.Foundation.Cursor
import InfusedModbus.Protocol.Pdu.FileRecord

/-! How much of its input a file record decoder uses. The byte count declares where the
records end, but the loops hold the length of each record against the bytes there are,
and stop at the first offset that is not below the declared end. The last record may so
run past it: what was decoded is the declared payload, encoded again, exactly when the
lengths of the records tile it. -/

namespace InfusedModbus.Protocol

open Foundation Foundation.Outcome

/-! ### One turn of each loop -/

/-- A record of a response and the offset behind it. -/
def readRecord (bytes : Bytes) (offset : ℕ) : Outcome DecodeError (Bytes × ℕ) :=
  if bytes.length < offset + 1 then .err .tooShort
  else do
    let subResponseLength ← index bytes offset
    if subResponseLength.toNat = 0 then .err (.invalidFileRecordSubResponseLength subResponseLength)
    else if bytes.length < offset + 1 + 1 then .err .tooShort
    else do
      let referenceType ← index bytes (offset + 1)
      if referenceType ≠ fileRecordReferenceType then .err (.invalidFileRecordReferenceType referenceType)
      else
        let dataStart := offset + 1 + 1
        let dataLen := subResponseLength.toNat - 1
        if bytes.length < dataStart + dataLen then .err .tooShort
        else do
          let record ← slice bytes dataStart (dataStart + dataLen)
          pure (record, dataStart + dataLen)

/-- A sub-request of a write and the offset behind it. -/
def readWriteSubRequest (bytes : Bytes) (offset : ℕ) : Outcome DecodeError (WriteFileRecordSubRequest × ℕ) :=
  if bytes.length < offset + fileRecordSubRequestLen then .err .tooShort
  else do
    let referenceType ← index bytes offset
    if referenceType ≠ fileRecordReferenceType then .err (.invalidFileRecordReferenceType referenceType)
    else do
      let fileNumber ← readU16Be bytes (offset + 1)
      let recordNumber ← readU16Be bytes (offset + 3)
      let recordLength ← readU16Be bytes (offset + 5)
      let dataStart := offset + fileRecordSubRequestLen
      let dataLen := recordLength.toNat * 2
      if bytes.length < dataStart + dataLen then .err .tooShort
      else do
        let recordData ← slice bytes dataStart (dataStart + dataLen)
        pure (⟨fileNumber, recordNumber, recordData⟩, dataStart + dataLen)

theorem readsWhile_decodeRecords (bytes : Bytes) (limit : ℕ) :
    ReadsWhile (readRecord bytes) limit (decodeRecords bytes limit) := by
  intro offset
  rw [decodeRecords]
  by_cases hlt : offset < limit
  · rw [dif_pos hlt, if_pos hlt]
    simp only [readRecord, ite_bind, err_bind, Outcome.bind_assoc, pure_eq, ok_bind]
  · rw [dif_neg hlt, if_neg hlt]

theorem readsWhile_decodeWriteSubRequests (bytes : Bytes) (limit : ℕ) :
    ReadsWhile (readWriteSubRequest bytes) limit (decodeWriteSubRequests bytes limit) := by
  intro offset
  rw [decodeWriteSubRequests]
  by_cases hlt : offset < limit
  · rw [dif_pos hlt, if_pos hlt]
    simp only [readWriteSubRequest, ite_bind, err_bind, Outcome.bind_assoc, pure_eq, ok_bind]
  · rw [dif_neg hlt, if_neg hlt]

/-! ### What a turn takes off the bytes -/

/-- The size that the record at an offset states for itself. -/
def recordSize (bytes : Bytes) (offset : ℕ) : Option ℕ :=
  bytes[offset]?.map fun subResponseLength => 1 + subResponseLength.toNat

/-- The size that the sub-request at an offset states for itself. -/
def writeSubRequestSize (bytes : Bytes) (offset : ℕ) : Option ℕ :=
  bytes[offset + 5]?.bind fun hi => bytes[offset + 6]?.map fun lo =>
    fileRecordSubRequestLen + (u16FromBeBytes hi lo).toNat * 2

theorem drop_of_readU16Be {ε : Type} {bytes : Bytes} {offset : ℕ} {v : UInt16}
    (h : (readU16Be bytes offset : Outcome ε UInt16) = .ok v) :
    bytes.drop offset = u16ToBeBytes v ++ bytes.drop (offset + 2) := by
  obtain ⟨hi, hhi, h⟩ := bind_eq_ok.mp h
  obtain ⟨lo, hlo, h⟩ := bind_eq_ok.mp h
  obtain rfl := ok.inj h
  rw [drop_of_index hhi, drop_of_index hlo, u16ToBeBytes, hiByte_fromBeBytes, loByte_fromBeBytes]
  rfl

theorem readRecord_eq_ok {bytes record : Bytes} {offset next : ℕ} (h : readRecord bytes offset = .ok (record, next)) :
    next = offset + (2 + record.length) ∧ next ≤ bytes.length ∧
      bytes.drop offset = encodeRecord record ++ bytes.drop next ∧
      recordSize bytes offset = some (next - offset) := by
  unfold readRecord at h
  split at h
  · cases h
  next hone =>
  obtain ⟨subResponseLength, hlength, h⟩ := bind_eq_ok.mp h
  split at h
  · cases h
  next hzero =>
  split at h
  · cases h
  next htwo =>
  obtain ⟨referenceType, hreference, h⟩ := bind_eq_ok.mp h
  split at h
  · cases h
  next href =>
  dsimp only at h
  split at h
  · cases h
  next hdata =>
  obtain ⟨data, hslice, h⟩ := bind_eq_ok.mp h
  obtain ⟨rfl, rfl⟩ := Prod.mk.inj (ok.inj h)
  obtain ⟨hlen, hdrop⟩ := drop_of_slice hslice
  have hstated : 1 + data.length = subResponseLength.toNat := by omega
  refine ⟨by omega, by omega, ?_, ?_⟩
  · rw [drop_of_index hlength, drop_of_index hreference, hdrop, encodeRecord, hstated, UInt8.ofNat_toNat,
      not_not.mp href]
    rfl
  · have hbyte : (bytes.drop offset)[0]? = bytes[offset + 0]? := List.getElem?_drop
    rw [drop_of_index hlength, List.getElem?_cons_zero, Nat.add_zero] at hbyte
    rw [recordSize, ← hbyte, Option.map_some, Option.some.injEq]
    omega

theorem readWriteSubRequest_eq_ok {bytes : Bytes} {s : WriteFileRecordSubRequest} {offset next : ℕ}
    (h : readWriteSubRequest bytes offset = .ok (s, next)) :
    next = offset + (7 + s.recordData.length) ∧ next ≤ bytes.length ∧ s.recordData.length % 2 = 0 ∧
      bytes.drop offset = encodeWriteSubRequest s ++ bytes.drop next ∧
      writeSubRequestSize bytes offset = some (next - offset) := by
  have hseven : fileRecordSubRequestLen = 7 := rfl
  unfold readWriteSubRequest at h
  split at h
  · cases h
  next hheader =>
  obtain ⟨referenceType, hreference, h⟩ := bind_eq_ok.mp h
  split at h
  · cases h
  next href =>
  obtain ⟨fileNumber, hfile, h⟩ := bind_eq_ok.mp h
  obtain ⟨recordNumber, hrecord, h⟩ := bind_eq_ok.mp h
  obtain ⟨recordLength, hlength, h⟩ := bind_eq_ok.mp h
  dsimp only at h
  split at h
  · cases h
  next hdata =>
  obtain ⟨data, hslice, h⟩ := bind_eq_ok.mp h
  obtain ⟨rfl, rfl⟩ := Prod.mk.inj (ok.inj h)
  obtain ⟨hlen, hdrop⟩ := drop_of_slice hslice
  have hwords : data.length / 2 = recordLength.toNat := by omega
  dsimp only
  refine ⟨by omega, by omega, by omega, ?_, ?_⟩
  · rw [drop_of_index hreference, drop_of_readU16Be hfile, drop_of_readU16Be hrecord, drop_of_readU16Be hlength,
      show offset + 5 + 2 = offset + fileRecordSubRequestLen from rfl, hdrop, encodeWriteSubRequest, hwords,
      UInt16.ofNat_toNat, not_not.mp href]
    simp only [List.cons_append, List.append_assoc]
  · have hhi : (bytes.drop (offset + 5))[0]? = bytes[offset + 5 + 0]? := List.getElem?_drop
    have hlo : (bytes.drop (offset + 5))[1]? = bytes[offset + 5 + 1]? := List.getElem?_drop
    rw [drop_of_readU16Be hlength, u16ToBeBytes, List.cons_append, List.cons_append] at hhi hlo
    rw [writeSubRequestSize, ← hhi, show offset + 6 = offset + 5 + 1 from rfl, ← hlo]
    simp only [List.getElem?_cons_zero, List.getElem?_cons_succ, Option.bind_some, Option.map_some,
      u16FromBeBytes_toBeBytes, Option.some.injEq]
    omega

theorem advances_readRecord (bytes : Bytes) : Advances (readRecord bytes) bytes.length where
  lt h := by
    have := (readRecord_eq_ok h).1
    omega
  le h := (readRecord_eq_ok h).2.1

theorem advances_readWriteSubRequest (bytes : Bytes) : Advances (readWriteSubRequest bytes) bytes.length where
  lt h := by
    have := (readWriteSubRequest_eq_ok h).1
    omega
  le h := (readWriteSubRequest_eq_ok h).2.1

/-! ### The declared payload -/

/-- Where the byte count of a file record PDU says that it ends. -/
def declaredEnd (bytes : Bytes) : ℕ := responseDataStart + (bytes.getD byteCountByte 0).toNat

/-- The PDU up to there. -/
def declared (bytes : Bytes) : Bytes := bytes.take (declaredEnd bytes)

/-- The sizes that the records state for themselves tile the declared payload. -/
def RecordsTile (size : Bytes → ℕ → Option ℕ) (bytes : Bytes) : Prop :=
  ∃ sizes, Tiles (size bytes) id (· + ·) responseDataStart (declaredEnd bytes - responseDataStart) sizes

/-- A header, a body and what follows it: the body is the declared payload exactly when it ends where that does. -/
theorem header_body_eq_declared_iff {functionCode byteCount : UInt8} {data body : Bytes} {stop : ℕ}
    (hcount : byteCount.toNat ≤ data.length) (hstop : declaredEnd (functionCode :: byteCount :: data) ≤ stop)
    (hle : stop ≤ data.length + 2) (hdata : data = body ++ (functionCode :: byteCount :: data).drop stop) :
    functionCode :: UInt8.ofNat body.length :: body = declared (functionCode :: byteCount :: data) ↔
      stop = declaredEnd (functionCode :: byteCount :: data) := by
  have hend : declaredEnd (functionCode :: byteCount :: data) = byteCount.toNat + 2 := by
    simp [declaredEnd, responseDataStart, byteCountByte, Nat.add_comm]
  have hbody : body.length + 2 = stop := by
    have hlen := congrArg List.length hdata
    simp only [List.length_append, List.length_drop, List.length_cons] at hlen
    omega
  rw [declared, hend, List.take_succ_cons, List.take_succ_cons]
  constructor
  · intro heq
    have hlen := congrArg List.length heq
    simp only [List.length_cons, List.length_take] at hlen
    omega
  · rintro hexact
    have htake : data.take byteCount.toNat = body := by
      rw [hdata, List.take_left' (by omega)]
    rw [htake, show body.length = byteCount.toNat by omega, UInt8.ofNat_toNat]

theorem decodeWriteFileRecord_eq_ok {bytes : Bytes} {functionCode : UInt8} {subRequests : List WriteFileRecordSubRequest}
    (h : decodeWriteFileRecord bytes functionCode = .ok subRequests) :
    ∃ byteCount data, bytes = functionCode :: byteCount :: data ∧ byteCount.toNat ≤ data.length ∧
      decodeWriteSubRequests bytes (declaredEnd bytes) responseDataStart = .ok subRequests := by
  rcases checkHeader_cases bytes functionCode (show 0 < responseDataStart by decide) with
    ⟨rest, rfl, hlen⟩ | ⟨e, he⟩
  · match rest, hlen with
    | byteCount :: data, _ =>
      rw [decodeWriteFileRecord_cons] at h
      split at h
      · cases h
      · next hcount => exact ⟨byteCount, data, rfl, by omega, h⟩
  · simp [decodeWriteFileRecord, he] at h

theorem ReadFileRecordResponse.decode_eq_ok {bytes : Bytes} {m : ReadFileRecordResponse} (h : decode bytes = .ok m) :
    ∃ byteCount data, bytes = functionCodeReadFileRecord :: byteCount :: data ∧ byteCount.toNat ≤ data.length ∧
      decodeRecords bytes (declaredEnd bytes) responseDataStart = .ok m.records := by
  rcases checkHeader_cases bytes functionCodeReadFileRecord (show 0 < responseDataStart by decide) with
    ⟨rest, rfl, hlen⟩ | ⟨e, he⟩
  · match rest, hlen with
    | byteCount :: data, _ =>
      rw [decode_cons] at h
      split at h
      · cases h
      · next hcount =>
        obtain ⟨records, hrecords, rfl⟩ := map_eq_ok.mp h
        exact ⟨byteCount, data, rfl, by omega, hrecords⟩
  · simp [decode, he] at h

/-- A decoder used the declared payload and nothing else: its message is that payload,
encoded again, and is read from it alone. -/
def UsesDeclared {μ : Type} (decode : Bytes → Outcome DecodeError μ) (encode : μ → Outcome EncodeError Bytes)
    (bytes : Bytes) (m : μ) : Prop :=
  encode m = .ok (declared bytes) ∧ decode (declared bytes) = .ok m

instance {μ : Type} [DecidableEq μ] (decode : Bytes → Outcome DecodeError μ) (encode : μ → Outcome EncodeError Bytes)
    (bytes : Bytes) (m : μ) : Decidable (UsesDeclared decode encode bytes m) :=
  inferInstanceAs (Decidable (_ ∧ _))

theorem WriteFileRecordRequest.encode_eq_declared_iff {bytes : Bytes} {m : WriteFileRecordRequest}
    (h : decode bytes = .ok m) : m.encode = .ok (declared bytes) ↔ RecordsTile writeSubRequestSize bytes := by
  obtain ⟨subRequests, hdecode, rfl⟩ := map_eq_ok.mp h
  obtain ⟨byteCount, data, rfl, hcount, hsubs⟩ := decodeWriteFileRecord_eq_ok hdecode
  obtain ⟨stop, hstop⟩ := (readsWhile_decodeWriteSubRequests _ _).exists_stop (advances_readWriteSubRequest _) hsubs
  have hle : stop ≤ data.length + 2 := hstop.stop_le (advances_readWriteSubRequest _) (by simp [responseDataStart])
  have hdata := hstop.drop_eq fun ha => (readWriteSubRequest_eq_ok ha).2.2.2.1
  have heven : ∀ s ∈ subRequests, s.recordData.length % 2 = 0 :=
    hstop.forall_mem fun ha => (readWriteSubRequest_eq_ok ha).2.2.1
  have hstart : responseDataStart ≤ declaredEnd (functionCodeWriteFileRecord :: byteCount :: data) :=
    Nat.le_add_right _ _
  calc WriteFileRecordRequest.encode ⟨subRequests⟩ = .ok (declared (functionCodeWriteFileRecord :: byteCount :: data))
      ↔ declared (functionCodeWriteFileRecord :: byteCount :: data) = functionCodeWriteFileRecord ::
          UInt8.ofNat (subRequests.flatMap encodeWriteSubRequest).length :: subRequests.flatMap encodeWriteSubRequest :=
        encodeWriteFileRecord_eq_ok.trans (and_iff_right heven)
    _ ↔ stop = declaredEnd (functionCodeWriteFileRecord :: byteCount :: data) :=
        eq_comm.trans (header_body_eq_declared_iff hcount hstop.le_stop hle hdata)
    _ ↔ RecordsTile writeSubRequestSize (functionCodeWriteFileRecord :: byteCount :: data) :=
        hstop.stop_eq_iff (advances_readWriteSubRequest _) (fun ha => (readWriteSubRequest_eq_ok ha).2.2.2.2) hstart

theorem ReadFileRecordResponse.encode_eq_declared_iff {bytes : Bytes} {m : ReadFileRecordResponse}
    (h : decode bytes = .ok m) : m.encode = declared bytes ↔ RecordsTile recordSize bytes := by
  obtain ⟨records⟩ := m
  obtain ⟨byteCount, data, rfl, hcount, hrecords⟩ := decode_eq_ok h
  obtain ⟨stop, hstop⟩ := (readsWhile_decodeRecords _ _).exists_stop (advances_readRecord _) hrecords
  have hle : stop ≤ data.length + 2 := hstop.stop_le (advances_readRecord _) (by simp [responseDataStart])
  have hdata := hstop.drop_eq fun ha => (readRecord_eq_ok ha).2.2.1
  have hstart : responseDataStart ≤ declaredEnd (functionCodeReadFileRecord :: byteCount :: data) :=
    Nat.le_add_right _ _
  calc encode ⟨records⟩ = declared (functionCodeReadFileRecord :: byteCount :: data)
      ↔ stop = declaredEnd (functionCodeReadFileRecord :: byteCount :: data) := by
        rw [encode]
        simp only [← length_flatMap_encodeRecord]
        exact header_body_eq_declared_iff hcount hstop.le_stop hle hdata
    _ ↔ RecordsTile recordSize (functionCodeReadFileRecord :: byteCount :: data) :=
        hstop.stop_eq_iff (advances_readRecord _) (fun ha => (readRecord_eq_ok ha).2.2.2) hstart

theorem length_declared_lt (bytes : Bytes) : (declared bytes).length < 258 := by
  have := (bytes.getD byteCountByte 0).toNat_lt
  rw [declared, List.length_take, declaredEnd, responseDataStart]
  omega

/-- What is the declared payload is read from the declared payload alone. -/
theorem WriteFileRecordRequest.usesDeclared_iff {bytes : Bytes} {m : WriteFileRecordRequest} (h : decode bytes = .ok m) :
    UsesDeclared decode encode bytes m ↔ RecordsTile writeSubRequestSize bytes := by
  rw [← encode_eq_declared_iff h]
  refine and_iff_left_of_imp fun henc => ?_
  exact map_eq_ok.mpr ⟨_, decodeWriteFileRecord_encode henc (length_declared_lt bytes), rfl⟩

theorem ReadFileRecordResponse.usesDeclared_iff {bytes : Bytes} {m : ReadFileRecordResponse} (h : decode bytes = .ok m) :
    UsesDeclared decode (fun m => .ok m.encode) bytes m ↔ RecordsTile recordSize bytes := by
  rw [← encode_eq_declared_iff h, UsesDeclared, ok.injEq]
  refine and_iff_left_of_imp fun henc => ?_
  have hlen := length_declared_lt bytes
  rw [← henc, length_encode] at hlen
  rw [← henc]
  exact decode_encode (by omega)

/-- Both file record decoders use the declared payload and nothing else on exactly the
inputs whose records tile it by the lengths they state. -/
theorem file_records_use_declared_iff (bytes : Bytes) :
    (∀ m, WriteFileRecordRequest.decode bytes = .ok m →
      (UsesDeclared WriteFileRecordRequest.decode WriteFileRecordRequest.encode bytes m ↔
        RecordsTile writeSubRequestSize bytes)) ∧
    (∀ m, ReadFileRecordResponse.decode bytes = .ok m →
      (UsesDeclared ReadFileRecordResponse.decode (fun m => .ok m.encode) bytes m ↔
        RecordsTile recordSize bytes)) :=
  ⟨fun _ h => WriteFileRecordRequest.usesDeclared_iff h, fun _ h => ReadFileRecordResponse.usesDeclared_iff h⟩

/-- One record of one register fills the declared payload. -/
theorem file_records_use_declared_one :
    UsesDeclared WriteFileRecordRequest.decode WriteFileRecordRequest.encode
      [0x15, 9, 6, 0, 1, 0, 0, 0, 1, 0xAB, 0xCD] ⟨[⟨1, 0, [0xAB, 0xCD]⟩]⟩ :=
  ((file_records_use_declared_iff _).1 _ (by decide +kernel)).mpr ⟨[9], rfl, by decide, rfl⟩

/-- One register of data is taken from behind the declared payload. -/
theorem file_record_runs_past_declared :
    WriteFileRecordRequest.decode [0x15, 7, 6, 0, 1, 0, 0, 0, 1, 0xAB, 0xCD] = .ok ⟨[⟨1, 0, [0xAB, 0xCD]⟩]⟩ ∧
      ¬UsesDeclared WriteFileRecordRequest.decode WriteFileRecordRequest.encode
        [0x15, 7, 6, 0, 1, 0, 0, 0, 1, 0xAB, 0xCD] ⟨[⟨1, 0, [0xAB, 0xCD]⟩]⟩ ∧
      ReadFileRecordResponse.decode [0x14, 2, 3, 6, 0xAB, 0xCD] = .ok ⟨[[0xAB, 0xCD]]⟩ ∧
      ¬UsesDeclared ReadFileRecordResponse.decode (fun m => .ok m.encode) [0x14, 2, 3, 6, 0xAB, 0xCD] ⟨[[0xAB, 0xCD]]⟩ := by
  decide +kernel

end InfusedModbus.Protocol
