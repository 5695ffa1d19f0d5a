import InfusedModbus.Protocol.Pdu.Basic

/-! The file record PDUs. A read request is a list of fixed seven-byte sub-requests;
its response is a list of length-prefixed records; a write request and its response
are one list of sub-requests that carry their own data. The variable-length lists
are walked by offset, every length checked against the bytes left. -/

namespace InfusedModbus.Protocol

open Foundation Foundation.Outcome

/-! ### Read File Record request -/

structure FileRecordSubRequest where
  fileNumber : UInt16
  recordNumber : UInt16
  recordLength : UInt16
  deriving DecidableEq, Repr

structure ReadFileRecordRequest where
  subRequests : List FileRecordSubRequest
  deriving DecidableEq, Repr

def encodeSubRequest (s : FileRecordSubRequest) : Bytes :=
  fileRecordReferenceType ::
    (u16ToBeBytes s.fileNumber ++ (u16ToBeBytes s.recordNumber ++ u16ToBeBytes s.recordLength))

/-- The loop that reads `n` sub-requests from `offset` on. -/
def decodeSubRequests (bytes : Bytes) : ℕ → ℕ → Outcome DecodeError (List FileRecordSubRequest)
  | 0, _ => pure []
  | n + 1, offset => do
    let referenceType ← index bytes offset
    if referenceType ≠ fileRecordReferenceType then .err (.invalidFileRecordReferenceType referenceType)
    else do
      let fileNumber ← readU16Be bytes (offset + 1)
      let recordNumber ← readU16Be bytes (offset + 3)
      let recordLength ← readU16Be bytes (offset + 5)
      let subRequests ← decodeSubRequests bytes n (offset + fileRecordSubRequestLen)
      pure (⟨fileNumber, recordNumber, recordLength⟩ :: subRequests)

theorem decodeSubRequests_encode {bytes rest : Bytes} {subRequests : List FileRecordSubRequest} {offset : ℕ}
    (h : bytes.drop offset = subRequests.flatMap encodeSubRequest ++ rest) :
    decodeSubRequests bytes subRequests.length offset = .ok subRequests := by
  induction subRequests generalizing offset with
  | nil => rfl
  | cons s subRequests ih =>
    simp only [List.flatMap_cons, encodeSubRequest, u16ToBeBytes, List.cons_append, List.nil_append] at h
    have hrest : bytes.drop (offset + fileRecordSubRequestLen) = subRequests.flatMap encodeSubRequest ++ rest := by
      rw [← List.drop_drop, h]
      rfl
    simp only [List.length_cons, decodeSubRequests, index_of_drop h, readU16Be_add, h, ok_bind,
      readU16Be_cons_succ, readU16Be_cons_zero, u16FromBeBytes_toBeBytes, ih hrest, ne_eq,
      not_true_eq_false, if_false, pure_eq]

theorem decodeSubRequests_ne_panic (bytes : Bytes) (n : ℕ) {offset : ℕ}
    (h : offset + n * fileRecordSubRequestLen ≤ bytes.length) : decodeSubRequests bytes n offset ≠ .panic := by
  induction n generalizing offset with
  | zero => simp [decodeSubRequests]
  | succ n ih =>
    simp only [fileRecordSubRequestLen] at h
    rw [decodeSubRequests, index_of_lt (show offset < bytes.length by omega), ok_bind]
    split
    · simp
    · rw [readU16Be_of_le (by omega), ok_bind, readU16Be_of_le (by omega), ok_bind,
        readU16Be_of_le (by omega), ok_bind]
      exact bind_ne_panic (ih (by simp only [fileRecordSubRequestLen]; omega)) fun _ _ => by simp

namespace ReadFileRecordRequest

def encode (m : ReadFileRecordRequest) : Bytes :=
  functionCodeReadFileRecord :: UInt8.ofNat (m.subRequests.length * fileRecordSubRequestLen) ::
    m.subRequests.flatMap encodeSubRequest

def decode (bytes : Bytes) : Outcome DecodeError ReadFileRecordRequest := do
  checkHeader bytes responseDataStart functionCodeReadFileRecord
  let byteCount ← index bytes byteCountByte
  if byteCount.toNat = 0 ∨ byteCount.toNat % fileRecordSubRequestLen ≠ 0 then
    .err (.invalidFileRecordByteCount byteCount)
  else if bytes.length < responseDataStart + byteCount.toNat then .err .tooShort
  else do
    let subRequests ← decodeSubRequests bytes (byteCount.toNat / fileRecordSubRequestLen) responseDataStart
    pure ⟨subRequests⟩

theorem length_flatMap_encodeSubRequest (subRequests : List FileRecordSubRequest) :
    (subRequests.flatMap encodeSubRequest).length = subRequests.length * fileRecordSubRequestLen := by
  induction subRequests with
  | nil => rfl
  | cons s subRequests ih =>
    rw [List.flatMap_cons, List.length_append, ih, List.length_cons, Nat.succ_mul, Nat.add_comm]
    rfl

theorem length_encode (m : ReadFileRecordRequest) : m.encode.length = 2 + m.subRequests.length * 7 := by
  rw [encode, List.length_cons, List.length_cons, length_flatMap_encodeSubRequest, fileRecordSubRequestLen]
  omega

theorem decode_cons (byteCount : UInt8) (data : Bytes) :
    decode (functionCodeReadFileRecord :: byteCount :: data) =
      if byteCount.toNat = 0 ∨ byteCount.toNat % fileRecordSubRequestLen ≠ 0 then
        .err (.invalidFileRecordByteCount byteCount)
      else if data.length < byteCount.toNat then .err .tooShort
      else (decodeSubRequests (functionCodeReadFileRecord :: byteCount :: data)
        (byteCount.toNat / fileRecordSubRequestLen) responseDataStart).map ReadFileRecordRequest.mk := by
  rw [decode, checkHeader_cons _ (by simp [responseDataStart]), ok_bind, byteCountByte, index_cons_succ,
    index_cons_zero, ok_bind, responseDataStart]
  simp only [List.length_cons, Nat.add_comm 2, Nat.add_assoc, Nat.reduceAdd, Nat.add_lt_add_iff_right]
  generalize decodeSubRequests _ _ _ = decoded
  cases decoded <;> rfl

theorem decode_encode {m : ReadFileRecordRequest} (hne : m.subRequests ≠ [])
    (hlen : m.subRequests.length * fileRecordSubRequestLen < 256) : decode m.encode = .ok m := by
  have hcount : (UInt8.ofNat (m.subRequests.length * fileRecordSubRequestLen)).toNat =
      m.subRequests.length * fileRecordSubRequestLen := by
    rw [UInt8.ofNat_toNat_mod, Nat.mod_eq_of_lt hlen]
  have hpos : 0 < m.subRequests.length := List.length_pos_iff.mpr hne
  have hdiv : m.subRequests.length * fileRecordSubRequestLen / fileRecordSubRequestLen = m.subRequests.length :=
    Nat.mul_div_cancel _ (by simp [fileRecordSubRequestLen])
  rw [encode, decode_cons, hcount, hdiv, length_flatMap_encodeSubRequest, if_neg (by
    simp only [fileRecordSubRequestLen]; omega), if_neg (by omega),
    @decodeSubRequests_encode _ [] _ _ (by simp [responseDataStart])]
  rfl

theorem decode_ne_panic (bytes : Bytes) : decode bytes ≠ .panic := by
  rcases checkHeader_cases bytes functionCodeReadFileRecord
    (show 0 < responseDataStart by decide) with ⟨rest, rfl, hlen⟩ | ⟨e, he⟩
  · match rest, hlen with
    | byteCount :: data, _ =>
      rw [decode_cons]
      split
      · simp
      · split
        · simp
        · refine map_ne_panic.mpr (decodeSubRequests_ne_panic _ _ ?_)
          simp only [responseDataStart, fileRecordSubRequestLen, List.length_cons]
          omega
  · simp [decode, he]

end ReadFileRecordRequest

/-! ### Read File Record response -/

structure ReadFileRecordResponse where
  records : List Bytes
  deriving DecidableEq, Repr

/-- The length of a record counts its reference type but not itself. -/
def encodeRecord (record : Bytes) : Bytes :=
  UInt8.ofNat (1 + record.length) :: fileRecordReferenceType :: record

/-- The loop that reads records from `offset` up to `limit`. -/
def decodeRecords (bytes : Bytes) (limit offset : ℕ) : Outcome DecodeError (List Bytes) :=
  if _h : offset < limit then
    if bytes.length < offset + 1 then .err .tooShort
    else do
      let subResponseLength ← index bytes offset
      if subResponseLength.toNat = 0 then .err (.invalidFileRecordSubResponseLength subResponseLength)
      else
        let referenceTypeOffset := offset + 1
        if bytes.length < referenceTypeOffset + 1 then .err .tooShort
        else do
          let referenceType ← index bytes referenceTypeOffset
          if referenceType ≠ fileRecordReferenceType then .err (.invalidFileRecordReferenceType referenceType)
          else
            let dataStart := referenceTypeOffset + 1
            let dataLen := subResponseLength.toNat - 1
            if bytes.length < dataStart + dataLen then .err .tooShort
            else do
              let record ← slice bytes dataStart (dataStart + dataLen)
              let records ← decodeRecords bytes limit (dataStart + dataLen)
              pure (record :: records)
  else pure []
termination_by limit - offset

theorem length_encodeRecord (record : Bytes) : (encodeRecord record).length = 2 + record.length := by
  simp [encodeRecord]
  omega

theorem decodeRecords_encode {bytes rest : Bytes} {records : List Bytes} {limit offset : ℕ}
    (hlen : ∀ r ∈ records, 1 + r.length < 256) (hoff : offset ≤ bytes.length)
    (hlimit : limit = offset + (records.flatMap encodeRecord).length)
    (h : bytes.drop offset = records.flatMap encodeRecord ++ rest) :
    decodeRecords bytes limit offset = .ok records := by
  induction records generalizing offset with
  | nil =>
    rw [decodeRecords, dif_neg (by simp at hlimit; omega)]
    rfl
  | cons r records ih =>
    have hlen0 : (UInt8.ofNat (1 + r.length)).toNat = 1 + r.length := by
      rw [UInt8.ofNat_toNat_mod, Nat.mod_eq_of_lt (hlen r (by simp))]
    rw [List.flatMap_cons, List.length_append, length_encodeRecord] at hlimit
    simp only [List.flatMap_cons, encodeRecord, List.cons_append, List.append_assoc] at h
    have htotal := congrArg List.length h
    simp only [List.length_drop, List.length_cons, List.length_append] at htotal
    have hrest : bytes.drop (offset + (2 + r.length)) = records.flatMap encodeRecord ++ rest := by
      rw [← List.drop_drop, h, Nat.add_comm 2]
      simp
    have hrecord : (slice bytes (offset + 2) (offset + (2 + r.length)) : Outcome DecodeError Bytes) = .ok r := by
      rw [slice_add hoff, h, Nat.add_comm 2, slice_cons_succ, slice_cons_succ]
      exact slice_append _ _ rfl
    have htail : decodeRecords bytes limit (offset + (2 + r.length)) = .ok records :=
      ih (fun p hp => hlen p (by simp [hp])) (by omega) (by omega) hrest
    rw [decodeRecords, dif_pos (by omega), if_neg (by omega), index_of_drop h, ok_bind]
    simp only [hlen0, index_add bytes offset 1, h, index_cons_succ, index_cons_zero, ok_bind,
      Nat.add_sub_cancel_left, Nat.add_assoc, Nat.reduceAdd, hrecord, htail, ne_eq, not_true_eq_false, if_false]
    rw [if_neg (by omega), if_neg (by omega), if_neg (by omega)]
    rfl

theorem decodeRecords_ne_panic (bytes : Bytes) (limit offset : ℕ) : decodeRecords bytes limit offset ≠ .panic := by
  induction hn : limit - offset using Nat.strong_induction_on generalizing offset with
  | h n ih =>
    rw [decodeRecords]
    split
    · next hlt =>
      split
      · simp
      · rw [index_of_lt (show offset < bytes.length by omega), ok_bind]
        dsimp only
        split
        · simp
        · split
          · simp
          · rw [index_of_lt (show offset + 1 < bytes.length by omega), ok_bind]
            split
            · simp
            · split
              · simp
              · rw [slice_of_le (by omega) (by omega), ok_bind]
                exact bind_ne_panic (ih _ (by omega) _ rfl) fun _ _ => by simp
    · simp

namespace ReadFileRecordResponse

def encode (m : ReadFileRecordResponse) : Bytes :=
  let dataLen := (m.records.map fun record => 2 + record.length).sum
  functionCodeReadFileRecord :: UInt8.ofNat dataLen :: m.records.flatMap encodeRecord

def decode (bytes : Bytes) : Outcome DecodeError ReadFileRecordResponse := do
  checkHeader bytes responseDataStart functionCodeReadFileRecord
  let byteCount ← index bytes byteCountByte
  if bytes.length < responseDataStart + byteCount.toNat then .err .tooShort
  else do
    let records ← decodeRecords bytes (responseDataStart + byteCount.toNat) responseDataStart
    pure ⟨records⟩

theorem length_flatMap_encodeRecord (records : List Bytes) :
    (records.flatMap encodeRecord).length = (records.map fun record => 2 + record.length).sum := by
  simp only [List.length_flatMap, length_encodeRecord]

theorem length_encode (m : ReadFileRecordResponse) :
    m.encode.length = 2 + (m.records.map fun record => 2 + record.length).sum := by
  rw [encode, List.length_cons, List.length_cons, length_flatMap_encodeRecord]
  omega

theorem decode_cons (byteCount : UInt8) (data : Bytes) :
    decode (functionCodeReadFileRecord :: byteCount :: data) =
      if data.length < byteCount.toNat then .err .tooShort
      else (decodeRecords (functionCodeReadFileRecord :: byteCount :: data)
        (responseDataStart + byteCount.toNat) responseDataStart).map ReadFileRecordResponse.mk := by
  rw [decode, checkHeader_cons _ (by simp [responseDataStart]), ok_bind, byteCountByte, index_cons_succ,
    index_cons_zero, ok_bind, responseDataStart]
  simp only [List.length_cons, Nat.add_comm 2, Nat.add_assoc, Nat.reduceAdd, Nat.add_lt_add_iff_right]
  generalize decodeRecords _ _ _ = decoded
  cases decoded <;> rfl

theorem decode_encode {m : ReadFileRecordResponse}
    (hlen : (m.records.map fun record => 2 + record.length).sum < 256) : decode m.encode = .ok m := by
  have hcount : (UInt8.ofNat (m.records.map fun record => 2 + record.length).sum).toNat =
      (m.records.flatMap encodeRecord).length := by
    rw [UInt8.ofNat_toNat_mod, Nat.mod_eq_of_lt hlen, length_flatMap_encodeRecord]
  have hrecord : ∀ r ∈ m.records, 1 + r.length < 256 := by
    intro r hr
    have := List.le_sum_of_mem (List.mem_map_of_mem (f := fun record : Bytes => 2 + record.length) hr)
    omega
  simp only [encode, decode_cons, hcount]
  rw [if_neg (by omega), @decodeRecords_encode _ [] _ _ _ hrecord (by simp [responseDataStart]) rfl
    (by simp [responseDataStart])]
  rfl

theorem decode_ne_panic (bytes : Bytes) : decode bytes ≠ .panic := by
  rcases checkHeader_cases bytes functionCodeReadFileRecord
    (show 0 < responseDataStart by decide) with ⟨rest, rfl, hlen⟩ | ⟨e, he⟩
  · match rest, hlen with
    | byteCount :: data, _ =>
      rw [decode_cons]
      split
      · simp
      · exact map_ne_panic.mpr (decodeRecords_ne_panic _ _ _)
  · simp [decode, he]

end ReadFileRecordResponse

/-! ### Write File Record -/

structure WriteFileRecordSubRequest where
  fileNumber : UInt16
  recordNumber : UInt16
  recordData : Bytes
  deriving DecidableEq, Repr

def encodeWriteSubRequest (s : WriteFileRecordSubRequest) : Bytes :=
  fileRecordReferenceType :: (u16ToBeBytes s.fileNumber ++ (u16ToBeBytes s.recordNumber ++
    (u16ToBeBytes (UInt16.ofNat (s.recordData.length / 2)) ++ s.recordData)))

def encodeWriteFileRecord (functionCode : UInt8) (subRequests : List WriteFileRecordSubRequest) :
    Outcome EncodeError Bytes :=
  match subRequests.find? fun s => s.recordData.length % 2 != 0 with
  | some s => .err (.oddFileRecordDataLength s.fileNumber s.recordNumber s.recordData.length)
  | none =>
    let dataLen := (subRequests.map fun s => fileRecordSubRequestLen + s.recordData.length).sum
    .ok (functionCode :: UInt8.ofNat dataLen :: subRequests.flatMap encodeWriteSubRequest)

/-- The loop that reads sub-requests from `offset` up to `limit`. -/
def decodeWriteSubRequests (bytes : Bytes) (limit offset : ℕ) :
    Outcome DecodeError (List WriteFileRecordSubRequest) :=
  if _h : offset < limit then
    if bytes.length < offset + fileRecordSubRequestLen then .err .tooShort
    else do
      let referenceType ← index bytes offset
      if referenceType ≠ fileRecordReferenceType then .err (.invalidFileRecordReferenceType referenceType)
      else do
        let fileNumber ← readU16Be bytes (offset + 1)
        let recordNumber ← readU16Be bytes (offset + 3)
        let recordLength ← readU16Be bytes (offset + 5)
        let dataStart := offset + fileRecordSubRequestLen
        let dataLen := recordLength.toNat * 2
        if bytes.length < dataStart + dataLen then .err .tooShort
        else do
          let recordData ← slice bytes dataStart (dataStart + dataLen)
          let subRequests ← decodeWriteSubRequests bytes limit (dataStart + dataLen)
          pure (⟨fileNumber, recordNumber, recordData⟩ :: subRequests)
  else pure []
termination_by limit - offset
decreasing_by simp only [fileRecordSubRequestLen]; omega

theorem length_encodeWriteSubRequest (s : WriteFileRecordSubRequest) :
    (encodeWriteSubRequest s).length = 7 + s.recordData.length := by
  simp [encodeWriteSubRequest]
  omega

/-- One turn of the loop takes an encoded sub-request off. -/
theorem decodeWriteSubRequests_cons {bytes rest : Bytes} {s : WriteFileRecordSubRequest} {limit offset : ℕ}
    (heven : s.recordData.length % 2 = 0) (hlen : s.recordData.length < 131072) (hoff : offset ≤ bytes.length)
    (hlimit : offset < limit) (h : bytes.drop offset = encodeWriteSubRequest s ++ rest) :
    decodeWriteSubRequests bytes limit offset =
      decodeWriteSubRequests bytes limit (offset + (7 + s.recordData.length)) >>= fun subRequests =>
        pure (s :: subRequests) := by
  have hwords : (UInt16.ofNat (s.recordData.length / 2)).toNat * 2 = s.recordData.length := by
    rw [UInt16.ofNat_toNat_mod]
    omega
  simp only [encodeWriteSubRequest, u16ToBeBytes, List.cons_append, List.nil_append] at h
  have htotal := congrArg List.length h
  simp only [List.length_drop, List.length_cons, List.length_append] at htotal
  have hdata : (slice bytes (offset + 7) (offset + (7 + s.recordData.length)) : Outcome DecodeError Bytes) =
      .ok s.recordData := by
    rw [slice_add hoff, h, Nat.add_comm 7]
    simp only [slice_cons_succ]
    exact slice_append _ _ rfl
  rw [decodeWriteSubRequests, dif_pos hlimit, fileRecordSubRequestLen, if_neg (by omega), index_of_drop h, ok_bind]
  simp only [readU16Be_add, h, readU16Be_cons_succ, readU16Be_cons_zero, u16FromBeBytes_toBeBytes, ok_bind,
    hwords, Nat.add_assoc, hdata, ne_eq, not_true_eq_false, if_false]
  rw [if_neg (by omega)]

theorem decodeWriteSubRequests_encode {bytes rest : Bytes} {subRequests : List WriteFileRecordSubRequest}
    {limit offset : ℕ} (heven : ∀ s ∈ subRequests, s.recordData.length % 2 = 0)
    (hlen : ∀ s ∈ subRequests, s.recordData.length < 131072) (hoff : offset ≤ bytes.length)
    (hlimit : limit = offset + (subRequests.flatMap encodeWriteSubRequest).length)
    (h : bytes.drop offset = subRequests.flatMap encodeWriteSubRequest ++ rest) :
    decodeWriteSubRequests bytes limit offset = .ok subRequests := by
  induction subRequests generalizing offset with
  | nil =>
    rw [decodeWriteSubRequests, dif_neg (by simp at hlimit; omega)]
    rfl
  | cons s subRequests ih =>
    rw [List.flatMap_cons, List.length_append, length_encodeWriteSubRequest] at hlimit
    rw [List.flatMap_cons, List.append_assoc] at h
    have htotal := congrArg List.length h
    rw [List.length_drop, List.length_append, length_encodeWriteSubRequest] at htotal
    have hrest : bytes.drop (offset + (7 + s.recordData.length)) =
        subRequests.flatMap encodeWriteSubRequest ++ rest := by
      rw [← List.drop_drop, h, List.drop_left' (length_encodeWriteSubRequest s)]
    have htail : decodeWriteSubRequests bytes limit (offset + (7 + s.recordData.length)) = .ok subRequests :=
      ih (fun p hp => heven p (by simp [hp])) (fun p hp => hlen p (by simp [hp])) (by omega) (by omega) hrest
    rw [decodeWriteSubRequests_cons (heven s (by simp)) (hlen s (by simp)) hoff (by omega) h, htail, ok_bind]
    rfl

theorem decodeWriteSubRequests_ne_panic (bytes : Bytes) (limit offset : ℕ) :
    decodeWriteSubRequests bytes limit offset ≠ .panic := by
  induction hn : limit - offset using Nat.strong_induction_on generalizing offset with
  | h n ih =>
    rw [decodeWriteSubRequests]
    split
    · next hlt =>
      have hseven : fileRecordSubRequestLen = 7 := rfl
      split
      · simp
      · rw [index_of_lt (show offset < bytes.length by omega), ok_bind]
        dsimp only
        split
        · simp
        · rw [readU16Be_of_le (by omega), ok_bind, readU16Be_of_le (by omega), ok_bind,
            readU16Be_of_le (by omega), ok_bind]
          split
          · simp
          · rw [slice_of_le (by omega) (by omega), ok_bind]
            exact bind_ne_panic (ih _ (by omega) _ rfl) fun _ _ => by simp
    · simp

/-- The sub-requests that were read lie within the bytes they were read from. -/
theorem length_of_decodeWriteSubRequests {bytes : Bytes} {limit offset : ℕ}
    {subRequests : List WriteFileRecordSubRequest} (hoff : offset ≤ bytes.length)
    (h : decodeWriteSubRequests bytes limit offset = .ok subRequests) :
    offset + (subRequests.flatMap encodeWriteSubRequest).length ≤ bytes.length := by
  induction hn : limit - offset using Nat.strong_induction_on generalizing offset subRequests with
  | h n ih =>
    have hseven : fileRecordSubRequestLen = 7 := rfl
    rw [decodeWriteSubRequests] at h
    split at h
    · next hlt =>
      split at h
      · cases h
      · obtain ⟨referenceType, _, h⟩ := bind_eq_ok.mp h
        split at h
        · cases h
        · obtain ⟨fileNumber, _, h⟩ := bind_eq_ok.mp h
          obtain ⟨recordNumber, _, h⟩ := bind_eq_ok.mp h
          obtain ⟨recordLength, _, h⟩ := bind_eq_ok.mp h
          dsimp only at h
          split at h
          · cases h
          · rw [slice_of_le (by omega) (by omega), ok_bind] at h
            obtain ⟨tail, htail, h⟩ := bind_eq_ok.mp h
            obtain rfl := Outcome.ok.inj h
            have hle := ih _ (by omega) (by omega) htail rfl
            rw [List.flatMap_cons, List.length_append, length_encodeWriteSubRequest]
            simp only [List.length_take, List.length_drop]
            omega
    · obtain rfl := Outcome.ok.inj h
      simpa using hoff

def decodeWriteFileRecord (bytes : Bytes) (expectedFunctionCode : UInt8) :
    Outcome DecodeError (List WriteFileRecordSubRequest) := do
  checkHeader bytes responseDataStart expectedFunctionCode
  let byteCount ← index bytes byteCountByte
  if bytes.length < responseDataStart + byteCount.toNat then .err .tooShort
  else decodeWriteSubRequests bytes (responseDataStart + byteCount.toNat) responseDataStart

theorem decodeWriteFileRecord_cons (functionCode byteCount : UInt8) (data : Bytes) :
    decodeWriteFileRecord (functionCode :: byteCount :: data) functionCode =
      if data.length < byteCount.toNat then .err .tooShort
      else decodeWriteSubRequests (functionCode :: byteCount :: data)
        (responseDataStart + byteCount.toNat) responseDataStart := by
  rw [decodeWriteFileRecord, checkHeader_cons _ (by simp [responseDataStart]), ok_bind, byteCountByte,
    index_cons_succ, index_cons_zero, ok_bind, responseDataStart]
  simp only [List.length_cons, Nat.add_comm 2, Nat.add_assoc, Nat.reduceAdd, Nat.add_lt_add_iff_right]

theorem length_flatMap_encodeWriteSubRequest (subRequests : List WriteFileRecordSubRequest) :
    (subRequests.flatMap encodeWriteSubRequest).length =
      (subRequests.map fun s => fileRecordSubRequestLen + s.recordData.length).sum := by
  simp only [List.length_flatMap, length_encodeWriteSubRequest, fileRecordSubRequestLen]

theorem encodeWriteFileRecord_eq_ok {functionCode : UInt8} {subRequests : List WriteFileRecordSubRequest}
    {bytes : Bytes} : encodeWriteFileRecord functionCode subRequests = .ok bytes ↔
      (∀ s ∈ subRequests, s.recordData.length % 2 = 0) ∧
        bytes = functionCode :: UInt8.ofNat (subRequests.flatMap encodeWriteSubRequest).length ::
          subRequests.flatMap encodeWriteSubRequest := by
  unfold encodeWriteFileRecord
  split
  · next s hs =>
    have hodd := List.find?_some hs
    have hmem := List.mem_of_find?_eq_some hs
    simp only [reduceCtorEq, false_iff, not_and]
    intro heven
    simp [heven s hmem] at hodd
  · next hnone =>
    have heven : ∀ s ∈ subRequests, s.recordData.length % 2 = 0 := by simpa using List.find?_eq_none.mp hnone
    simp only [Outcome.ok.injEq, length_flatMap_encodeWriteSubRequest]
    exact ⟨fun h => ⟨heven, h.symm⟩, fun h => h.2.symm⟩

theorem decodeWriteFileRecord_encode {functionCode : UInt8} {subRequests : List WriteFileRecordSubRequest}
    {bytes : Bytes} (h : encodeWriteFileRecord functionCode subRequests = .ok bytes)
    (hlen : bytes.length < 258) : decodeWriteFileRecord bytes functionCode = .ok subRequests := by
  obtain ⟨heven, rfl⟩ := encodeWriteFileRecord_eq_ok.mp h
  simp only [List.length_cons] at hlen
  have hcount : (UInt8.ofNat (subRequests.flatMap encodeWriteSubRequest).length).toNat =
      (subRequests.flatMap encodeWriteSubRequest).length := by
    rw [UInt8.ofNat_toNat_mod, Nat.mod_eq_of_lt (by omega)]
  have hdata : ∀ s ∈ subRequests, s.recordData.length < 131072 := by
    intro s hs
    have hle := List.le_sum_of_mem
      (List.mem_map_of_mem (f := fun s => fileRecordSubRequestLen + s.recordData.length) hs)
    rw [← length_flatMap_encodeWriteSubRequest] at hle
    omega
  rw [decodeWriteFileRecord_cons, hcount, if_neg (by omega),
    @decodeWriteSubRequests_encode _ [] _ _ _ heven hdata (by simp [responseDataStart]) rfl
    (by simp [responseDataStart])]

/-- A single sub-request is read back whatever its length: its byte count is odd, so even
cut off at a byte it lets the loop take one turn, and no more than one. -/
theorem decodeWriteFileRecord_encode_single {functionCode : UInt8} {s : WriteFileRecordSubRequest} {bytes : Bytes}
    (h : encodeWriteFileRecord functionCode [s] = .ok bytes) (hlen : s.recordData.length < 131072) :
    decodeWriteFileRecord bytes functionCode = .ok [s] := by
  obtain ⟨heven, rfl⟩ := encodeWriteFileRecord_eq_ok.mp h
  have heven := heven s List.mem_cons_self
  have hcount : (UInt8.ofNat ([s].flatMap encodeWriteSubRequest).length).toNat =
      (7 + s.recordData.length) % 256 := by
    rw [UInt8.ofNat_toNat_mod, List.flatMap_singleton, length_encodeWriteSubRequest]
  rw [decodeWriteFileRecord_cons, hcount, List.flatMap_singleton, length_encodeWriteSubRequest, if_neg (by omega),
    @decodeWriteSubRequests_cons _ [] s _ _ heven hlen (by simp [responseDataStart]) (by omega)
      (by simp [responseDataStart]),
    decodeWriteSubRequests, dif_neg (by omega)]
  rfl

theorem decodeWriteFileRecord_ne_panic (bytes : Bytes) (functionCode : UInt8) :
    decodeWriteFileRecord bytes functionCode ≠ .panic := by
  rcases checkHeader_cases bytes functionCode
    (show 0 < responseDataStart by decide) with ⟨rest, rfl, hlen⟩ | ⟨e, he⟩
  · match rest, hlen with
    | byteCount :: data, _ =>
      rw [decodeWriteFileRecord_cons]
      split
      · simp
      · exact decodeWriteSubRequests_ne_panic _ _ _
  · simp [decodeWriteFileRecord, he]

structure WriteFileRecordRequest where
  subRequests : List WriteFileRecordSubRequest
  deriving DecidableEq, Repr

structure WriteFileRecordResponse where
  subRequests : List WriteFileRecordSubRequest
  deriving DecidableEq, Repr

/-- Encoding what was decoded makes no more bytes than there were. -/
theorem length_encode_of_decodeWriteFileRecord {bytes encoded : Bytes} {functionCode : UInt8}
    {subRequests : List WriteFileRecordSubRequest} (h : decodeWriteFileRecord bytes functionCode = .ok subRequests)
    (henc : encodeWriteFileRecord functionCode subRequests = .ok encoded) : encoded.length ≤ bytes.length := by
  obtain ⟨_, rfl⟩ := encodeWriteFileRecord_eq_ok.mp henc
  rcases checkHeader_cases bytes functionCode (show 0 < responseDataStart by decide) with
    ⟨rest, rfl, hlen⟩ | ⟨e, he⟩
  · match rest, hlen with
    | byteCount :: data, _ =>
      rw [decodeWriteFileRecord_cons] at h
      split at h
      · cases h
      · have hle := length_of_decodeWriteSubRequests (by simp [responseDataStart]) h
        simp only [responseDataStart, List.length_cons] at hle ⊢
        omega
  · simp [decodeWriteFileRecord, he] at h

def WriteFileRecordRequest.encode (m : WriteFileRecordRequest) : Outcome EncodeError Bytes :=
  encodeWriteFileRecord functionCodeWriteFileRecord m.subRequests

def WriteFileRecordRequest.decode (bytes : Bytes) : Outcome DecodeError WriteFileRecordRequest :=
  (decodeWriteFileRecord bytes functionCodeWriteFileRecord).map WriteFileRecordRequest.mk

def WriteFileRecordResponse.encode (m : WriteFileRecordResponse) : Outcome EncodeError Bytes :=
  encodeWriteFileRecord functionCodeWriteFileRecord m.subRequests

def WriteFileRecordResponse.decode (bytes : Bytes) : Outcome DecodeError WriteFileRecordResponse :=
  (decodeWriteFileRecord bytes functionCodeWriteFileRecord).map WriteFileRecordResponse.mk

end InfusedModbus.Protocol
