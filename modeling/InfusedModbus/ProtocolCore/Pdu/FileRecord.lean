import InfusedModbus.ProtocolCore.FlatList
import InfusedModbus.ProtocolCore.Pdu.Fields

/-! The file record PDUs of the port. A request for records and a write never name
more sub-requests than the port has room for. A response can: its records may be
empty and then take two bytes each, and the port gives up at the thirty-sixth. -/

namespace InfusedModbus.ProtocolCore

open Foundation Foundation.Outcome Protocol

variable {ε : Type}

/-! ### Read File Record request -/

structure ReadFileRecordRequest where
  subRequests : FileRecordSubRequests
  deriving DecidableEq, Repr

/-- The loop that reads `n` sub-requests from `offset` on into a list. -/
def decodeSubRequests (bytes : Bytes) :
    ℕ → ℕ → FileRecordSubRequests → Outcome DecodeError FileRecordSubRequests
  | 0, _, subRequests => pure subRequests
  | n + 1, offset, subRequests => do
    let referenceType ← index bytes offset
    if referenceType ≠ fileRecordReferenceType then .err (.invalidFileRecordReferenceType referenceType)
    else do
      let fileNumber ← readU16Be bytes (offset + 1)
      let recordNumber ← readU16Be bytes (offset + 3)
      let recordLength ← readU16Be bytes (offset + 5)
      let subRequests ← (subRequests.push ⟨fileNumber, recordNumber, recordLength⟩).mapErr
        fun _ => .tooLargeForBuffer
      decodeSubRequests bytes n (offset + fileRecordSubRequestLen) subRequests

/-- The port's loop is the original one when there is room for every sub-request. -/
theorem decodeSubRequests_eq {bytes : Bytes} (n : ℕ) {offset : ℕ} {subRequests : FileRecordSubRequests}
    (hoff : offset + n * fileRecordSubRequestLen ≤ bytes.length)
    (hroom : subRequests.asSlice.length + n ≤ maxFileRecordSubRequests) :
    (decodeSubRequests bytes n offset subRequests).map FileRecordSubRequests.asSlice =
      ((Protocol.decodeSubRequests bytes n offset).mapErr .ofProtocol).map (subRequests.asSlice ++ ·) := by
  induction n generalizing offset subRequests with
  | zero => simp [decodeSubRequests, Protocol.decodeSubRequests]
  | succ n ih =>
    simp only [fileRecordSubRequestLen] at hoff
    rw [decodeSubRequests, Protocol.decodeSubRequests, index_of_lt (show offset < bytes.length by omega),
      index_of_lt (show offset < bytes.length by omega), ok_bind, ok_bind]
    split
    · rfl
    · simp only [readU16Be_of_le (show offset + 1 + 2 ≤ bytes.length by omega),
        readU16Be_of_le (show offset + 3 + 2 ≤ bytes.length by omega),
        readU16Be_of_le (show offset + 5 + 2 ≤ bytes.length by omega), ok_bind]
      generalize hsub : FileRecordSubRequest.mk _ _ _ = subRequest
      obtain ⟨after, hpush, hslice⟩ := @FileRecordSubRequests.push_of_room _ subRequest
        (show subRequests.asSlice.length < maxFileRecordSubRequests by omega)
      have hafter : after.asSlice.length = subRequests.asSlice.length + 1 := by simp [hslice]
      rw [hpush, mapErr_ok, ok_bind, ih (by simp only [fileRecordSubRequestLen]; omega) (by omega), hslice]
      cases Protocol.decodeSubRequests bytes n (offset + fileRecordSubRequestLen) <;> simp

namespace ReadFileRecordRequest

def encode (m : ReadFileRecordRequest) : Outcome ε PduBytes := do
  let buffer ← (PduBytes.new.push functionCodeReadFileRecord).unwrap
  let buffer ← (buffer.push (UInt8.ofNat (m.subRequests.len * fileRecordSubRequestLen))).unwrap
  m.subRequests.asSlice.foldlM (fun buffer s => do
    let buffer ← (buffer.push fileRecordReferenceType).unwrap
    let buffer ← (buffer.extendFromSlice (u16ToBeBytes s.fileNumber)).unwrap
    let buffer ← (buffer.extendFromSlice (u16ToBeBytes s.recordNumber)).unwrap
    (buffer.extendFromSlice (u16ToBeBytes s.recordLength)).unwrap) buffer

def decode (bytes : Bytes) : Outcome DecodeError ReadFileRecordRequest := do
  checkHeader bytes responseDataStart functionCodeReadFileRecord
  let byteCount ← index bytes byteCountByte
  if byteCount.toNat = 0 ∨ byteCount.toNat % fileRecordSubRequestLen ≠ 0 then
    .err (.invalidFileRecordByteCount byteCount)
  else if bytes.length < responseDataStart + byteCount.toNat then .err .tooShort
  else do
    let subRequests ← decodeSubRequests bytes (byteCount.toNat / fileRecordSubRequestLen) responseDataStart
      FileRecordSubRequests.new
    pure ⟨subRequests⟩

/-- The message of the original codec with the same fields. -/
def toProtocol (m : ReadFileRecordRequest) : Protocol.ReadFileRecordRequest := ⟨m.subRequests.asSlice⟩

theorem encode_eq (m : ReadFileRecordRequest) :
    (m.encode : Outcome ε PduBytes) = emit PduBytes.new m.toProtocol.encode := by
  simp only [encode, unwrap_push, unwrap_extendFromSlice, emit_bind_emit, foldlM_emit]
  rfl

theorem decode_eq {bytes : Bytes} (hbytes : bytes.length ≤ maxPduLen) :
    (decode bytes).map toProtocol = (Protocol.ReadFileRecordRequest.decode bytes).mapErr .ofProtocol := by
  rcases checkHeader_cases bytes functionCodeReadFileRecord (show 0 < responseDataStart by decide)
    with ⟨rest, rfl, hlen⟩ | ⟨e, he⟩
  · match rest, hlen with
    | byteCount :: data, hlen =>
      have hseven : fileRecordSubRequestLen = 7 := rfl
      rw [decode, checkHeader_eq, checkHeader_cons _ hlen, mapErr_ok, ok_bind, byteCountByte, index_cons_succ,
        index_cons_zero, ok_bind, Protocol.ReadFileRecordRequest.decode_cons, responseDataStart]
      simp only [List.length_cons, maxPduLen] at hbytes
      by_cases hcount : byteCount.toNat = 0 ∨ byteCount.toNat % fileRecordSubRequestLen ≠ 0
      · rw [if_pos hcount, if_pos hcount]
        rfl
      by_cases hshort : data.length < byteCount.toNat
      · rw [if_neg hcount, if_neg hcount, if_pos hshort, if_pos (by simp only [List.length_cons]; omega)]
        rfl
      have hdiv : byteCount.toNat / fileRecordSubRequestLen * fileRecordSubRequestLen ≤ byteCount.toNat :=
        Nat.div_mul_le_self _ _
      have hmost : byteCount.toNat / fileRecordSubRequestLen ≤ maxFileRecordSubRequests := by
        rw [hseven, maxFileRecordSubRequests]
        omega
      have hloop := @decodeSubRequests_eq (functionCodeReadFileRecord :: byteCount :: data)
        (byteCount.toNat / fileRecordSubRequestLen) 2 FileRecordSubRequests.new
        (by simp only [List.length_cons]; omega) (by simpa [FileRecordSubRequests.new] using hmost)
      rw [if_neg hcount, if_neg hcount, if_neg hshort, if_neg (by simp only [List.length_cons]; omega), mapErr_map]
      generalize decodeSubRequests _ _ _ _ = decoded at hloop ⊢
      have hmap : (decoded >>= fun subRequests => pure ⟨subRequests⟩).map toProtocol =
          (decoded.map FileRecordSubRequests.asSlice).map Protocol.ReadFileRecordRequest.mk := by
        cases decoded <;> rfl
      rw [hmap, hloop, map_map]
      rfl
  · simp [decode, checkHeader_eq, Protocol.ReadFileRecordRequest.decode, he]

end ReadFileRecordRequest

/-! ### Read File Record response -/

structure ReadFileRecordResponse where
  records : FileRecordResponseData
  deriving DecidableEq, Repr

/-- The loop that reads records from `offset` up to `limit` into a list. -/
def decodeRecords (bytes : Bytes) (limit offset : ℕ) (records : FileRecordResponseData) :
    Outcome DecodeError FileRecordResponseData :=
  if _h : offset < limit then
    if bytes.length < offset + 1 then .err .tooShort
    else do
      let subResponseLength ← index bytes offset
      if subResponseLength.toNat = 0 then .err (.invalidFileRecordSubResponseLength subResponseLength)
      else
        let referenceTypeOffset := offset + 1
        if bytes.length < referenceTypeOffset + 1 then .err .tooShort
        else do
          let referenceType ← index bytes referenceTypeOffset
          if referenceType ≠ fileRecordReferenceType then .err (.invalidFileRecordReferenceType referenceType)
          else
            let dataStart := referenceTypeOffset + 1
            let dataLen := subResponseLength.toNat - 1
            if bytes.length < dataStart + dataLen then .err .tooShort
            else do
              let record ← slice bytes dataStart (dataStart + dataLen)
              let records ← (records.pushRecord record).mapErr fun _ => .tooLargeForBuffer
              decodeRecords bytes limit (dataStart + dataLen) records
  else pure records
termination_by limit - offset

section Turns

variable {bytes : Bytes} {limit offset : ℕ}

/-- The offset behind the record at `offset`. -/
def recordEnd (bytes : Bytes) (offset : ℕ) : ℕ := offset + 1 + (bytes.getD offset 0).toNat

/-- A record can be read at `offset`. -/
def RecordAt (bytes : Bytes) (offset : ℕ) : Prop :=
  offset + 2 ≤ bytes.length ∧ (bytes.getD offset 0).toNat ≠ 0 ∧
    bytes.getD (offset + 1) 0 = fileRecordReferenceType ∧ recordEnd bytes offset ≤ bytes.length

instance (bytes : Bytes) (offset : ℕ) : Decidable (RecordAt bytes offset) :=
  inferInstanceAs (Decidable (_ ∧ _))

/-- The data of the record at `offset`. -/
def recordAt (bytes : Bytes) (offset : ℕ) : Bytes :=
  (bytes.drop (offset + 2)).take ((bytes.getD offset 0).toNat - 1)

/-- How many records can be read from `offset` up to `limit` or to the first malformed one. -/
def recordsRead (bytes : Bytes) (limit offset : ℕ) : ℕ :=
  if _h : offset < limit ∧ RecordAt bytes offset then 1 + recordsRead bytes limit (recordEnd bytes offset) else 0
termination_by limit - offset
decreasing_by unfold recordEnd; omega

theorem protocol_decodeRecords_turn (hlt : offset < limit) (h : RecordAt bytes offset) :
    Protocol.decodeRecords bytes limit offset =
      (Protocol.decodeRecords bytes limit (recordEnd bytes offset)).map (recordAt bytes offset :: ·) := by
  obtain ⟨htwo, hpos, hreference, hend⟩ := h
  have hnext : offset + 1 + 1 + ((bytes.getD offset 0).toNat - 1) = recordEnd bytes offset := by
    unfold recordEnd
    omega
  rw [Protocol.decodeRecords, dif_pos hlt, if_neg (by omega), index_eq_getD (by omega) 0, ok_bind]
  dsimp only
  rw [if_neg hpos, if_neg (by omega), index_eq_getD (by omega) 0, ok_bind, hreference, if_neg (by simp), hnext,
    if_neg (by omega), slice_of_le (by omega) hend, ok_bind, recordAt, ← hnext, Nat.add_sub_cancel_left]
  generalize Protocol.decodeRecords bytes limit _ = decoded
  cases decoded <;> rfl

theorem decodeRecords_turn (records : FileRecordResponseData) (hlt : offset < limit) (h : RecordAt bytes offset) :
    decodeRecords bytes limit offset records =
      ((records.pushRecord (recordAt bytes offset)).mapErr fun _ => .tooLargeForBuffer) >>=
        decodeRecords bytes limit (recordEnd bytes offset) := by
  obtain ⟨htwo, hpos, hreference, hend⟩ := h
  have hnext : offset + 1 + 1 + ((bytes.getD offset 0).toNat - 1) = recordEnd bytes offset := by
    unfold recordEnd
    omega
  rw [decodeRecords, dif_pos hlt, if_neg (by omega), index_eq_getD (by omega) 0, ok_bind]
  dsimp only
  rw [if_neg hpos, if_neg (by omega), index_eq_getD (by omega) 0, ok_bind, hreference, if_neg (by simp), hnext,
    if_neg (by omega), slice_of_le (by omega) hend, ok_bind, recordAt, ← hnext, Nat.add_sub_cancel_left]

/-- Both codecs reject a malformed record alike. -/
theorem decodeRecords_stop (records : FileRecordResponseData) (hlt : offset < limit) (h : ¬RecordAt bytes offset) :
    ∃ e, Protocol.decodeRecords bytes limit offset = .err e ∧
      decodeRecords bytes limit offset records = .err (.ofProtocol e) := by
  rw [Protocol.decodeRecords, decodeRecords, dif_pos hlt, dif_pos hlt]
  by_cases hone : bytes.length < offset + 1
  · rw [if_pos hone, if_pos hone]
    exact ⟨_, rfl, rfl⟩
  rw [if_neg hone, if_neg hone, index_eq_getD (by omega) 0, index_eq_getD (by omega) 0, ok_bind, ok_bind]
  dsimp only
  by_cases hpos : (bytes.getD offset 0).toNat = 0
  · rw [if_pos hpos, if_pos hpos]
    exact ⟨_, rfl, rfl⟩
  rw [if_neg hpos, if_neg hpos]
  by_cases htwo : bytes.length < offset + 1 + 1
  · rw [if_pos htwo, if_pos htwo]
    exact ⟨_, rfl, rfl⟩
  rw [if_neg htwo, if_neg htwo, index_eq_getD (by omega) 0, index_eq_getD (by omega) 0, ok_bind, ok_bind]
  by_cases hreference : bytes.getD (offset + 1) 0 ≠ fileRecordReferenceType
  · rw [if_pos hreference, if_pos hreference]
    exact ⟨_, rfl, rfl⟩
  have hend : ¬recordEnd bytes offset ≤ bytes.length := fun hend =>
    h ⟨by omega, hpos, not_not.mp hreference, hend⟩
  unfold recordEnd at hend
  rw [if_neg hreference, if_neg hreference, if_pos (by omega), if_pos (by omega)]
  exact ⟨_, rfl, rfl⟩

end Turns

/-- The port's loop is the original one, as long as it has room for every record it meets. -/
theorem decodeRecords_eq {bytes : Bytes} (hbytes : bytes.length ≤ maxPduLen) {limit offset : ℕ}
    {records : FileRecordResponseData} (hdata : records.data.asSlice.length ≤ offset)
    (hcount : records.records.length ≤ maxFileRecords) :
    (maxFileRecords < records.records.length + recordsRead bytes limit offset →
        decodeRecords bytes limit offset records = .err .tooLargeForBuffer) ∧
      (records.records.length + recordsRead bytes limit offset ≤ maxFileRecords →
        (decodeRecords bytes limit offset records).map FileRecordResponseData.records =
          ((Protocol.decodeRecords bytes limit offset).mapErr .ofProtocol).map (records.records ++ ·)) := by
  induction hn : limit - offset using Nat.strongRecOn generalizing offset records with
  | ind n ih =>
    by_cases hlt : offset < limit
    · by_cases hrecord : RecordAt bytes offset
      · have hread : recordsRead bytes limit offset = 1 + recordsRead bytes limit (recordEnd bytes offset) := by
          rw [recordsRead, dif_pos ⟨hlt, hrecord⟩]
        rw [hread, decodeRecords_turn records hlt hrecord, protocol_decodeRecords_turn hlt hrecord]
        by_cases hfull : records.records.length = maxFileRecords
        · rw [FileRecordResponseData.pushRecord_of_full hfull]
          exact ⟨fun _ => rfl, fun h => absurd h (by omega)⟩
        · have hnext : offset < recordEnd bytes offset := by
            unfold recordEnd
            omega
          have hlen : offset + (recordAt bytes offset).length ≤ recordEnd bytes offset := by
            rw [recordAt, recordEnd, List.length_take]
            omega
          have hend := hrecord.2.2.2
          obtain ⟨after, hpush, hrecords, hslice⟩ := FileRecordResponseData.pushRecord_of_room
            (show records.records.length < maxFileRecords by omega)
            (show records.data.asSlice.length + (recordAt bytes offset).length ≤ maxPduLen by omega)
          have hafter : after.records.length = records.records.length + 1 := by simp [hrecords]
          have hdata' : after.data.asSlice.length ≤ recordEnd bytes offset := by
            rw [hslice, List.length_append]
            omega
          obtain ⟨hlarge, hfits⟩ := ih (limit - recordEnd bytes offset) (by omega) hdata' (by omega) rfl
          rw [hpush, mapErr_ok, ok_bind, mapErr_map, map_map]
          refine ⟨fun h => hlarge (by omega), fun h => ?_⟩
          rw [hfits (by omega), hrecords]
          simp only [List.append_assoc, List.singleton_append]
      · obtain ⟨e, horiginal, hport⟩ := decodeRecords_stop records hlt hrecord
        rw [recordsRead, dif_neg (fun h => hrecord h.2), horiginal, hport]
        exact ⟨fun h => absurd h (by omega), fun _ => rfl⟩
    · rw [recordsRead, dif_neg (fun h => hlt h.1), decodeRecords, Protocol.decodeRecords, dif_neg hlt, dif_neg hlt]
      refine ⟨fun h => absurd h (by omega), fun _ => ?_⟩
      simp

theorem length_of_decodeRecords {bytes : Bytes} {limit offset : ℕ} {records : List Bytes}
    (h : Protocol.decodeRecords bytes limit offset = .ok records) :
    records.length = recordsRead bytes limit offset := by
  induction hn : limit - offset using Nat.strongRecOn generalizing offset records with
  | ind n ih =>
    by_cases hlt : offset < limit
    · by_cases hrecord : RecordAt bytes offset
      · rw [protocol_decodeRecords_turn hlt hrecord] at h
        obtain ⟨tail, htail, rfl⟩ := map_eq_ok.mp h
        have hnext : offset < recordEnd bytes offset := by
          unfold recordEnd
          omega
        rw [recordsRead, dif_pos ⟨hlt, hrecord⟩, List.length_cons, ih _ (by omega) htail rfl, Nat.add_comm]
      · obtain ⟨e, horiginal, _⟩ := decodeRecords_stop FlatList.new hlt hrecord
        rw [horiginal] at h
        cases h
    · rw [Protocol.decodeRecords, dif_neg hlt] at h
      obtain rfl := Outcome.ok.inj h
      rw [recordsRead, dif_neg (fun h => hlt h.1)]
      rfl

namespace ReadFileRecordResponse

def encode (m : ReadFileRecordResponse) : Outcome EncodeError PduBytes := do
  let records ← m.records.each
  let dataLen := (records.map fun r => 2 + r.2.length).sum
  if maxPduLen < responseDataStart + dataLen then .err .tooLargeForBuffer
  else do
    let buffer ← (PduBytes.new.push functionCodeReadFileRecord).unwrap
    let buffer ← (buffer.push (UInt8.ofNat dataLen)).unwrap
    records.foldlM (fun buffer r => do
      let buffer ← (buffer.push (UInt8.ofNat (1 + r.2.length))).unwrap
      let buffer ← (buffer.push fileRecordReferenceType).unwrap
      (buffer.extendFromSlice r.2).unwrap) buffer

def decode (bytes : Bytes) : Outcome DecodeError ReadFileRecordResponse := do
  checkHeader bytes responseDataStart functionCodeReadFileRecord
  let byteCount ← index bytes byteCountByte
  if bytes.length < responseDataStart + byteCount.toNat then .err .tooShort
  else do
    let records ← decodeRecords bytes (responseDataStart + byteCount.toNat) responseDataStart FlatList.new
    pure ⟨records⟩

def toProtocol (m : ReadFileRecordResponse) : Protocol.ReadFileRecordResponse := ⟨m.records.records⟩

theorem encode_eq (m : ReadFileRecordResponse) : m.encode = guarded m.toProtocol.encode := by
  have hsum : (m.toProtocol.records.map fun record => 2 + record.length).sum =
      ((FlatList.entries m.records).map fun r => 2 + r.2.length).sum := by
    rw [toProtocol, FileRecordResponseData.records, List.map_map]
    rfl
  have hrecords : m.toProtocol.records.flatMap encodeRecord = (FlatList.entries m.records).flatMap fun r =>
      [UInt8.ofNat (1 + r.2.length)] ++ ([fileRecordReferenceType] ++ r.2) := by
    rw [toProtocol, FileRecordResponseData.records, List.flatMap_map]
    rfl
  simp only [encode, FlatList.each_eq, ok_bind, guarded, Protocol.ReadFileRecordResponse.length_encode, hsum,
    unwrap_push, unwrap_extendFromSlice, emit_bind_emit, foldlM_emit]
  rw [Protocol.ReadFileRecordResponse.encode, hsum, hrecords]
  rfl

/-- How many records the front of a message holds. -/
def recordsCarried : Bytes → ℕ
  | functionCode :: byteCount :: data =>
    if functionCode = functionCodeReadFileRecord ∧ byteCount.toNat ≤ data.length then
      recordsRead (functionCode :: byteCount :: data) (responseDataStart + byteCount.toNat) responseDataStart
    else 0
  | _ => 0

/-- The port decodes as the original codec does, unless there are more records than it has room for. -/
theorem decode_eq {bytes : Bytes} (hbytes : bytes.length ≤ maxPduLen) :
    (maxFileRecords < recordsCarried bytes → decode bytes = .err .tooLargeForBuffer) ∧
      (recordsCarried bytes ≤ maxFileRecords →
        (decode bytes).map toProtocol = (Protocol.ReadFileRecordResponse.decode bytes).mapErr .ofProtocol) := by
  rcases checkHeader_cases bytes functionCodeReadFileRecord (show 0 < responseDataStart by decide)
    with ⟨rest, rfl, hlen⟩ | ⟨e, he⟩
  · match rest, hlen with
    | byteCount :: data, hlen =>
      have hshort : (functionCodeReadFileRecord :: byteCount :: data).length < responseDataStart + byteCount.toNat ↔
          data.length < byteCount.toNat := by
        simp only [List.length_cons, responseDataStart]
        omega
      rw [decode, checkHeader_eq, checkHeader_cons _ hlen, mapErr_ok, ok_bind, byteCountByte, index_cons_succ,
        index_cons_zero, ok_bind, Protocol.ReadFileRecordResponse.decode_cons]
      simp only [hshort, recordsCarried, true_and]
      by_cases hdata : data.length < byteCount.toNat
      · rw [if_pos hdata, if_neg (show ¬byteCount.toNat ≤ data.length by omega), if_pos hdata]
        exact ⟨fun h => absurd h (by omega), fun _ => rfl⟩
      · obtain ⟨hlarge, hfits⟩ := @decodeRecords_eq _ hbytes (responseDataStart + byteCount.toNat)
          responseDataStart FlatList.new (Nat.zero_le _) (Nat.zero_le _)
        rw [if_neg hdata, if_pos (show byteCount.toNat ≤ data.length by omega), if_neg hdata]
        generalize decodeRecords _ _ _ _ = decoded at hlarge hfits ⊢
        refine ⟨fun h => ?_, fun h => ?_⟩
        · rw [hlarge (by simpa [FileRecordResponseData.records] using h)]
          rfl
        · have hmap : (decoded >>= fun records => pure (⟨records⟩ : ReadFileRecordResponse)).map toProtocol =
              (decoded.map FileRecordResponseData.records).map Protocol.ReadFileRecordResponse.mk := by
            cases decoded <;> rfl
          rw [hmap, hfits (by simpa [FileRecordResponseData.records] using h), map_map, mapErr_map]
          rfl
  · have hnone : recordsCarried bytes = 0 := by
      unfold recordsCarried
      split
      · refine if_neg ?_
        rintro ⟨rfl, -⟩
        rw [checkHeader_cons _ (by simp [responseDataStart])] at he
        cases he
      · rfl
    rw [hnone]
    refine ⟨fun h => absurd h (by omega), fun _ => ?_⟩
    simp [decode, checkHeader_eq, Protocol.ReadFileRecordResponse.decode, he]

theorem length_of_decode {bytes : Bytes} {m : Protocol.ReadFileRecordResponse}
    (h : Protocol.ReadFileRecordResponse.decode bytes = .ok m) : m.records.length = recordsCarried bytes := by
  rcases checkHeader_cases bytes functionCodeReadFileRecord (show 0 < responseDataStart by decide)
    with ⟨rest, rfl, hlen⟩ | ⟨e, he⟩
  · match rest, hlen with
    | byteCount :: data, _ =>
      rw [Protocol.ReadFileRecordResponse.decode_cons] at h
      split at h
      · cases h
      · next hdata =>
        obtain ⟨records, hrecords, rfl⟩ := map_eq_ok.mp h
        rw [recordsCarried, if_pos ⟨rfl, by omega⟩]
        exact length_of_decodeRecords hrecords
  · simp [Protocol.ReadFileRecordResponse.decode, he] at h

end ReadFileRecordResponse

/-! ### Write File Record -/

def encodeWriteFileRecord (functionCode : UInt8) (subRequests : WriteFileRecordSubRequests) :
    Outcome EncodeError PduBytes := do
  let subRequests ← subRequests.each
  match subRequests.find? fun s => s.2.length % 2 != 0 with
  | some s => .err (.oddFileRecordDataLength s.1.fileNumber s.1.recordNumber s.2.length)
  | none =>
    let dataLen := (subRequests.map fun s => fileRecordSubRequestLen + s.2.length).sum
    if maxPduLen < responseDataStart + dataLen then .err .tooLargeForBuffer
    else do
      let buffer ← (PduBytes.new.push functionCode).unwrap
      let buffer ← (buffer.push (UInt8.ofNat dataLen)).unwrap
      subRequests.foldlM (fun buffer s => do
        let buffer ← (buffer.push fileRecordReferenceType).unwrap
        let buffer ← (buffer.extendFromSlice (u16ToBeBytes s.1.fileNumber)).unwrap
        let buffer ← (buffer.extendFromSlice (u16ToBeBytes s.1.recordNumber)).unwrap
        let buffer ← (buffer.extendFromSlice (u16ToBeBytes (UInt16.ofNat (s.2.length / 2)))).unwrap
        (buffer.extendFromSlice s.2).unwrap) buffer

/-- The loop that reads sub-requests from `offset` up to `limit` into a list. -/
def decodeWriteSubRequests (bytes : Bytes) (limit offset : ℕ) (subRequests : WriteFileRecordSubRequests) :
    Outcome DecodeError WriteFileRecordSubRequests :=
  if _h : offset < limit then
    if bytes.length < offset + fileRecordSubRequestLen then .err .tooShort
    else do
      let referenceType ← index bytes offset
      if referenceType ≠ fileRecordReferenceType then .err (.invalidFileRecordReferenceType referenceType)
      else do
        let fileNumber ← readU16Be bytes (offset + 1)
        let recordNumber ← readU16Be bytes (offset + 3)
        let recordLength ← readU16Be bytes (offset + 5)
        let dataStart := offset + fileRecordSubRequestLen
        let dataLen := recordLength.toNat * 2
        if bytes.length < dataStart + dataLen then .err .tooShort
        else do
          let recordData ← slice bytes dataStart (dataStart + dataLen)
          let subRequests ← (subRequests.push fileNumber recordNumber recordData).mapErr fun _ => .tooLargeForBuffer
          decodeWriteSubRequests bytes limit (dataStart + dataLen) subRequests
  else pure subRequests
termination_by limit - offset
decreasing_by simp only [fileRecordSubRequestLen]; omega

def decodeWriteFileRecord (bytes : Bytes) (expectedFunctionCode : UInt8) :
    Outcome DecodeError WriteFileRecordSubRequests := do
  checkHeader bytes responseDataStart expectedFunctionCode
  let byteCount ← index bytes byteCountByte
  if bytes.length < responseDataStart + byteCount.toNat then .err .tooShort
  else decodeWriteSubRequests bytes (responseDataStart + byteCount.toNat) responseDataStart FlatList.new

theorem encodeWriteFileRecord_eq (functionCode : UInt8) (subRequests : WriteFileRecordSubRequests) :
    encodeWriteFileRecord functionCode subRequests =
      (Protocol.encodeWriteFileRecord functionCode subRequests.subRequests).mapErr .ofProtocol >>= guarded := by
  have hsum : (subRequests.subRequests.map fun s => fileRecordSubRequestLen + s.recordData.length).sum =
      ((FlatList.entries subRequests).map fun s => fileRecordSubRequestLen + s.2.length).sum := by
    rw [WriteFileRecordSubRequests.subRequests, List.map_map]
    rfl
  have hbytes : subRequests.subRequests.flatMap encodeWriteSubRequest = (FlatList.entries subRequests).flatMap
      fun s => [fileRecordReferenceType] ++ (u16ToBeBytes s.1.fileNumber ++ (u16ToBeBytes s.1.recordNumber ++
        (u16ToBeBytes (UInt16.ofNat (s.2.length / 2)) ++ s.2))) := by
    rw [WriteFileRecordSubRequests.subRequests, List.flatMap_map]
    rfl
  have hlen : ∀ byteCount, (functionCode :: byteCount ::
      subRequests.subRequests.flatMap encodeWriteSubRequest).length = responseDataStart +
        ((FlatList.entries subRequests).map fun s => fileRecordSubRequestLen + s.2.length).sum := by
    intro byteCount
    rw [List.length_cons, List.length_cons, length_flatMap_encodeWriteSubRequest, hsum, responseDataStart]
    omega
  have hfind : subRequests.subRequests.find? (fun s => s.recordData.length % 2 != 0) =
      ((FlatList.entries subRequests).find? fun s => s.2.length % 2 != 0).map WriteFileRecordSubRequests.ofEntry := by
    rw [WriteFileRecordSubRequests.subRequests, List.find?_map]
    rfl
  rw [encodeWriteFileRecord, FlatList.each_eq, ok_bind, Protocol.encodeWriteFileRecord, hfind]
  cases (FlatList.entries subRequests).find? fun s => s.2.length % 2 != 0 with
  | some s => rfl
  | none =>
    simp only [Option.map_none, mapErr_ok, ok_bind, guarded, hlen, hsum, unwrap_push, unwrap_extendFromSlice,
      emit_bind_emit, foldlM_emit]
    rw [hbytes]
    rfl

theorem encodeWriteFileRecord_ne_panic (functionCode : UInt8) (subRequests : List WriteFileRecordSubRequest) :
    Protocol.encodeWriteFileRecord functionCode subRequests ≠ .panic := by
  unfold Protocol.encodeWriteFileRecord
  split <;> simp

/-- The port's loop is the original one: sub-requests of seven bytes and more leave room for each other. -/
theorem decodeWriteSubRequests_eq {bytes : Bytes} (hbytes : bytes.length ≤ maxPduLen) {limit offset : ℕ}
    {subRequests : WriteFileRecordSubRequests} (hdata : subRequests.data.asSlice.length ≤ offset)
    (hcount : responseDataStart + subRequests.subRequests.length * fileRecordSubRequestLen ≤ offset) :
    (decodeWriteSubRequests bytes limit offset subRequests).map WriteFileRecordSubRequests.subRequests =
      ((Protocol.decodeWriteSubRequests bytes limit offset).mapErr .ofProtocol).map
        (subRequests.subRequests ++ ·) := by
  induction hn : limit - offset using Nat.strongRecOn generalizing offset subRequests with
  | ind n ih =>
    have hseven : fileRecordSubRequestLen = 7 := rfl
    have hmax : maxPduLen = 253 := rfl
    have hmost : maxWriteFileRecordSubRequests = 35 := rfl
    simp only [responseDataStart, fileRecordSubRequestLen] at hcount
    rw [decodeWriteSubRequests, Protocol.decodeWriteSubRequests]
    by_cases hlt : offset < limit
    · rw [dif_pos hlt, dif_pos hlt]
      by_cases hshort : bytes.length < offset + fileRecordSubRequestLen
      · rw [if_pos hshort, if_pos hshort]
        rfl
      rw [if_neg hshort, if_neg hshort, index_eq_getD (by omega) 0, index_eq_getD (by omega) 0, ok_bind, ok_bind]
      by_cases hreference : bytes.getD offset 0 ≠ fileRecordReferenceType
      · rw [if_pos hreference, if_pos hreference]
        rfl
      rw [if_neg hreference, if_neg hreference]
      simp only [readU16Be_of_le (show offset + 1 + 2 ≤ bytes.length by omega),
        readU16Be_of_le (show offset + 3 + 2 ≤ bytes.length by omega),
        readU16Be_of_le (show offset + 5 + 2 ≤ bytes.length by omega), ok_bind]
      generalize hlength : (u16FromBeBytes bytes[offset + 5] bytes[offset + 5 + 1]).toNat * 2 = dataLen
      by_cases hend : bytes.length < offset + fileRecordSubRequestLen + dataLen
      · rw [if_pos hend, if_pos hend]
        rfl
      rw [if_neg hend, if_neg hend, slice_of_le (by omega) (by omega), slice_of_le (by omega) (by omega), ok_bind,
        ok_bind, Nat.add_sub_cancel_left]
      generalize hrecord : (bytes.drop (offset + fileRecordSubRequestLen)).take dataLen = recordData
      have hlen : recordData.length ≤ dataLen := by
        rw [← hrecord, List.length_take]
        omega
      obtain ⟨after, hpush, hafter, hslice⟩ := WriteFileRecordSubRequests.push_of_room
        (u16FromBeBytes bytes[offset + 1] bytes[offset + 1 + 1])
        (u16FromBeBytes bytes[offset + 3] bytes[offset + 3 + 1])
        (show subRequests.subRequests.length < maxWriteFileRecordSubRequests by omega)
        (show subRequests.data.asSlice.length + recordData.length ≤ maxPduLen by omega)
      have hdata' : after.data.asSlice.length ≤ offset + fileRecordSubRequestLen + dataLen := by
        rw [hslice, List.length_append]
        omega
      have hcount' : responseDataStart + after.subRequests.length * fileRecordSubRequestLen ≤
          offset + fileRecordSubRequestLen + dataLen := by
        simp only [hafter, List.length_append, List.length_singleton, responseDataStart, fileRecordSubRequestLen]
        omega
      have hnext := ih (limit - (offset + fileRecordSubRequestLen + dataLen)) (by omega) hdata' hcount' rfl
      rw [hpush, mapErr_ok, ok_bind, hnext, hafter, mapErr_bind, Outcome.map_bind]
      cases Protocol.decodeWriteSubRequests bytes limit (offset + fileRecordSubRequestLen + dataLen) <;> simp
    · rw [dif_neg hlt, dif_neg hlt]
      simp

theorem decodeWriteFileRecord_eq {bytes : Bytes} (hbytes : bytes.length ≤ maxPduLen) (functionCode : UInt8) :
    (decodeWriteFileRecord bytes functionCode).map WriteFileRecordSubRequests.subRequests =
      (Protocol.decodeWriteFileRecord bytes functionCode).mapErr .ofProtocol := by
  simp only [decodeWriteFileRecord, Protocol.decodeWriteFileRecord, checkHeader_eq, Outcome.map_bind, map_ite, map_err,
    mapErr_bind, mapErr_ite, mapErr_index, mapErr_err, DecodeError.ofProtocol]
  have hloop : ∀ limit, (decodeWriteSubRequests bytes limit responseDataStart FlatList.new).map
      WriteFileRecordSubRequests.subRequests =
      (Protocol.decodeWriteSubRequests bytes limit responseDataStart).mapErr .ofProtocol := by
    intro limit
    rw [@decodeWriteSubRequests_eq _ hbytes _ _ FlatList.new (Nat.zero_le _) (Nat.le_refl responseDataStart)]
    cases Protocol.decodeWriteSubRequests bytes limit responseDataStart <;> rfl
  simp only [hloop]

structure WriteFileRecordRequest where
  subRequests : WriteFileRecordSubRequests
  deriving DecidableEq, Repr

structure WriteFileRecordResponse where
  subRequests : WriteFileRecordSubRequests
  deriving DecidableEq, Repr

namespace WriteFileRecordRequest

def encode (m : WriteFileRecordRequest) : Outcome EncodeError PduBytes :=
  encodeWriteFileRecord functionCodeWriteFileRecord m.subRequests

def decode (bytes : Bytes) : Outcome DecodeError WriteFileRecordRequest :=
  (decodeWriteFileRecord bytes functionCodeWriteFileRecord).map WriteFileRecordRequest.mk

def toProtocol (m : WriteFileRecordRequest) : Protocol.WriteFileRecordRequest := ⟨m.subRequests.subRequests⟩

end WriteFileRecordRequest

namespace WriteFileRecordResponse

def encode (m : WriteFileRecordResponse) : Outcome EncodeError PduBytes :=
  encodeWriteFileRecord functionCodeWriteFileRecord m.subRequests

def decode (bytes : Bytes) : Outcome DecodeError WriteFileRecordResponse :=
  (decodeWriteFileRecord bytes functionCodeWriteFileRecord).map WriteFileRecordResponse.mk

def toProtocol (m : WriteFileRecordResponse) : Protocol.WriteFileRecordResponse := ⟨m.subRequests.subRequests⟩

end WriteFileRecordResponse

end InfusedModbus.ProtocolCore
