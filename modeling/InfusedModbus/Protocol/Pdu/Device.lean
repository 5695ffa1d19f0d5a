import InfusedModbus.Protocol.Pdu.Basic

/-! The PDUs about the device itself: Report Server ID, Read Device Identification
with its list of length-prefixed objects, and the exception response, which marks
itself by the top bit of the function code. -/

namespace InfusedModbus.Protocol

open Foundation Foundation.Outcome

/-! ### Report Server ID -/

structure ReportServerIdRequest where
  deriving DecidableEq, Repr

def ReportServerIdRequest.encode (_ : ReportServerIdRequest) : Bytes := [functionCodeReportServerId]

def ReportServerIdRequest.decode (bytes : Bytes) : Outcome DecodeError ReportServerIdRequest :=
  match bytes.head? with
  | none => .err .tooShort
  | some functionCode =>
    if functionCode ≠ functionCodeReportServerId then
      .err (.unexpectedFunctionCode functionCodeReportServerId functionCode)
    else .ok ⟨⟩

theorem ReportServerIdRequest.decode_ne_panic (bytes : Bytes) : decode bytes ≠ .panic := by
  unfold decode
  split
  · simp
  · split <;> simp

structure ReportServerIdResponse where
  serverId : Bytes
  runIndicatorStatus : Bool
  deriving DecidableEq, Repr

namespace ReportServerIdResponse

/-- The byte count covers the identity and the run indicator after it. -/
def encode (m : ReportServerIdResponse) : Bytes :=
  functionCodeReportServerId :: UInt8.ofNat (m.serverId.length + 1) ::
    (m.serverId ++ [if m.runIndicatorStatus then runIndicatorOn else runIndicatorOff])

def decode (bytes : Bytes) : Outcome DecodeError ReportServerIdResponse := do
  checkHeader bytes reportServerIdResponseHeaderLen functionCodeReportServerId
  let byteCount ← index bytes reportServerIdByteCountByte
  if byteCount.toNat = 0 then .err .tooShort
  else if bytes.length < reportServerIdDataStart + byteCount.toNat then .err .tooShort
  else do
    let serverIdEnd := reportServerIdDataStart + byteCount.toNat - 1
    let serverId ← slice bytes reportServerIdDataStart serverIdEnd
    let status ← index bytes serverIdEnd
    pure ⟨serverId, status != runIndicatorOff⟩

@[simp] theorem length_encode (m : ReportServerIdResponse) : m.encode.length = m.serverId.length + 3 := by
  simp [encode]

theorem decode_cons (byteCount : UInt8) (data : Bytes) :
    decode (functionCodeReportServerId :: byteCount :: data) =
      if h : byteCount.toNat = 0 ∨ data.length < byteCount.toNat then .err .tooShort
      else .ok ⟨data.take (byteCount.toNat - 1), data[byteCount.toNat - 1] != runIndicatorOff⟩ := by
  rw [decode, checkHeader_cons _ (by simp [reportServerIdResponseHeaderLen]), ok_bind,
    reportServerIdByteCountByte, index_cons_succ, index_cons_zero, ok_bind, reportServerIdDataStart]
  simp only [List.length_cons, Nat.add_comm 2, Nat.add_assoc, Nat.reduceAdd, Nat.add_lt_add_iff_right]
  by_cases hzero : byteCount.toNat = 0
  · simp [hzero]
  by_cases hshort : data.length < byteCount.toNat
  · simp [hzero, hshort]
  have hend : byteCount.toNat + 2 - 1 = byteCount.toNat - 1 + 2 := by omega
  rw [if_neg hzero, if_neg hshort, dif_neg (by omega), hend, slice_of_le (by omega) (by simp; omega),
    index_of_lt (by simp; omega)]
  simp

theorem decode_encode {m : ReportServerIdResponse} (h : m.serverId.length < 255) :
    decode m.encode = .ok m := by
  have hcount : (UInt8.ofNat (m.serverId.length + 1)).toNat = m.serverId.length + 1 := by
    rw [UInt8.ofNat_toNat_mod]
    omega
  have hstatus : ((if m.runIndicatorStatus then runIndicatorOn else runIndicatorOff) != runIndicatorOff) =
      m.runIndicatorStatus := by
    cases m.runIndicatorStatus <;> decide
  rw [encode, decode_cons, dif_neg (by rw [hcount]; simp)]
  simp only [hcount, Nat.add_sub_cancel, List.take_left, List.getElem_concat_length, hstatus]

theorem decode_ne_panic (bytes : Bytes) : decode bytes ≠ .panic := by
  rcases checkHeader_cases bytes functionCodeReportServerId
    (show 0 < reportServerIdResponseHeaderLen by decide) with ⟨rest, rfl, hlen⟩ | ⟨e, he⟩
  · match rest, hlen with
    | byteCount :: data, _ =>
      rw [decode_cons]
      split <;> simp
  · simp [decode, he]

end ReportServerIdResponse

/-! ### Read Device Identification -/

structure ReadDeviceIdentificationRequest where
  readDeviceIdCode : UInt8
  objectId : UInt8
  deriving DecidableEq, Repr

namespace ReadDeviceIdentificationRequest

def encode (m : ReadDeviceIdentificationRequest) : Bytes :=
  [functionCodeEncapsulatedInterfaceTransport, meiTypeReadDeviceIdentification, m.readDeviceIdCode, m.objectId]

def decode (bytes : Bytes) : Outcome DecodeError ReadDeviceIdentificationRequest := do
  checkHeader bytes readDeviceIdentificationRequestLen functionCodeEncapsulatedInterfaceTransport
  let meiType ← index bytes meiTypeByte
  if meiType ≠ meiTypeReadDeviceIdentification then
    .err (.unexpectedMeiType meiTypeReadDeviceIdentification meiType)
  else do
    let readDeviceIdCode ← index bytes readDeviceIdCodeByte
    let objectId ← index bytes requestObjectIdByte
    pure ⟨readDeviceIdCode, objectId⟩

theorem decode_cons (meiType code objectId : UInt8) (rest : Bytes) :
    decode (functionCodeEncapsulatedInterfaceTransport :: meiType :: code :: objectId :: rest) =
      if meiType ≠ meiTypeReadDeviceIdentification then
        .err (.unexpectedMeiType meiTypeReadDeviceIdentification meiType)
      else .ok ⟨code, objectId⟩ := by
  rw [decode, checkHeader_cons _ (by simp [readDeviceIdentificationRequestLen])]
  simp [meiTypeByte, readDeviceIdCodeByte, requestObjectIdByte]

theorem decode_encode (m : ReadDeviceIdentificationRequest) : decode m.encode = .ok m := by
  simp [encode, decode_cons]

theorem decode_ne_panic (bytes : Bytes) : decode bytes ≠ .panic := by
  rcases checkHeader_cases bytes functionCodeEncapsulatedInterfaceTransport
    (show 0 < readDeviceIdentificationRequestLen by decide) with ⟨rest, rfl, hlen⟩ | ⟨e, he⟩
  · match rest, hlen with
    | meiType :: code :: objectId :: rest, _ =>
      rw [decode_cons]
      split <;> simp
  · simp [decode, he]

end ReadDeviceIdentificationRequest

/-- One object of a device identification; its own length byte caps the value. -/
structure DeviceIdentificationObject where
  id : UInt8
  value : Bytes
  deriving DecidableEq, Repr

def encodeObject (o : DeviceIdentificationObject) : Bytes :=
  o.id :: UInt8.ofNat o.value.length :: o.value

/-- The loop that reads `n` objects from `offset` on. -/
def decodeObjects (bytes : Bytes) : ℕ → ℕ → Outcome DecodeError (List DeviceIdentificationObject)
  | 0, _ => pure []
  | n + 1, offset =>
    if bytes.length < offset + 2 then .err .tooShort
    else do
      let id ← index bytes offset
      let length ← index bytes (offset + 1)
      let valueStart := offset + 2
      if bytes.length < valueStart + length.toNat then .err .tooShort
      else do
        let value ← slice bytes valueStart (valueStart + length.toNat)
        let objects ← decodeObjects bytes n (valueStart + length.toNat)
        pure (⟨id, value⟩ :: objects)

theorem decodeObjects_encode {bytes rest : Bytes} {objects : List DeviceIdentificationObject} {offset : ℕ}
    (hlen : ∀ o ∈ objects, o.value.length < 256) (hoff : offset ≤ bytes.length)
    (h : bytes.drop offset = objects.flatMap encodeObject ++ rest) :
    decodeObjects bytes objects.length offset = .ok objects := by
  induction objects generalizing offset with
  | nil => rfl
  | cons o objects ih =>
    have hlen0 : (UInt8.ofNat o.value.length).toNat = o.value.length := by
      rw [UInt8.ofNat_toNat_mod, Nat.mod_eq_of_lt (hlen o (by simp))]
    simp only [List.flatMap_cons, encodeObject, List.cons_append, List.append_assoc] at h
    have htotal := congrArg List.length h
    simp only [List.length_drop, List.length_cons, List.length_append] at htotal
    have hrest : bytes.drop (offset + 2 + o.value.length) = objects.flatMap encodeObject ++ rest := by
      rw [Nat.add_assoc, ← List.drop_drop, h, Nat.add_comm 2]
      simp
    have hvalue : (slice bytes (offset + 2) (offset + 2 + o.value.length) : Outcome DecodeError Bytes) =
        .ok o.value := by
      rw [Nat.add_assoc, slice_add hoff, h, Nat.add_comm 2, slice_cons_succ, slice_cons_succ]
      exact slice_append _ _ rfl
    simp only [List.length_cons, decodeObjects, index_of_drop h, index_add bytes offset 1, h,
      index_cons_succ, index_cons_zero, ok_bind, hlen0, hvalue]
    rw [if_neg (by omega), if_neg (by omega),
      ih (fun p hp => hlen p (by simp [hp])) (by omega) hrest]
    rfl

theorem decodeObjects_ne_panic (bytes : Bytes) (n offset : ℕ) : decodeObjects bytes n offset ≠ .panic := by
  induction n generalizing offset with
  | zero => simp [decodeObjects]
  | succ n ih =>
    rw [decodeObjects]
    split
    · simp
    · rw [index_of_lt (show offset < bytes.length by omega), ok_bind,
        index_of_lt (show offset + 1 < bytes.length by omega), ok_bind]
      dsimp only
      split
      · simp
      · rw [slice_of_le (by omega) (by omega), ok_bind]
        exact bind_ne_panic (ih _) fun _ _ => by simp

structure ReadDeviceIdentificationResponse where
  readDeviceIdCode : UInt8
  conformityLevel : UInt8
  moreFollows : Bool
  nextObjectId : UInt8
  objects : List DeviceIdentificationObject
  deriving DecidableEq, Repr

namespace ReadDeviceIdentificationResponse

def encode (m : ReadDeviceIdentificationResponse) : Bytes :=
  [functionCodeEncapsulatedInterfaceTransport, meiTypeReadDeviceIdentification, m.readDeviceIdCode,
    m.conformityLevel, if m.moreFollows then moreFollowsYes else moreFollowsNo, m.nextObjectId,
    UInt8.ofNat m.objects.length] ++ m.objects.flatMap encodeObject

def decode (bytes : Bytes) : Outcome DecodeError ReadDeviceIdentificationResponse := do
  checkHeader bytes readDeviceIdentificationResponseHeaderLen functionCodeEncapsulatedInterfaceTransport
  let meiType ← index bytes meiTypeByte
  if meiType ≠ meiTypeReadDeviceIdentification then
    .err (.unexpectedMeiType meiTypeReadDeviceIdentification meiType)
  else do
    let readDeviceIdCode ← index bytes readDeviceIdCodeByte
    let conformityLevel ← index bytes conformityLevelByte
    let moreFollows ← index bytes moreFollowsByte
    let nextObjectId ← index bytes nextObjectIdByte
    let numberOfObjects ← index bytes numberOfObjectsByte
    let objects ← decodeObjects bytes numberOfObjects.toNat responseObjectsStart
    pure ⟨readDeviceIdCode, conformityLevel, moreFollows != moreFollowsNo, nextObjectId, objects⟩

theorem length_encode (m : ReadDeviceIdentificationResponse) :
    m.encode.length = 7 + (m.objects.map fun o => 2 + o.value.length).sum := by
  have hobj : ∀ o : DeviceIdentificationObject, (encodeObject o).length = 2 + o.value.length := by
    intro o
    simp [encodeObject]
    omega
  simp [encode, List.length_flatMap, hobj]
  omega

theorem decode_cons (meiType code level more next count : UInt8) (data : Bytes) :
    decode (functionCodeEncapsulatedInterfaceTransport :: meiType :: code :: level :: more :: next ::
        count :: data) =
      if meiType ≠ meiTypeReadDeviceIdentification then
        .err (.unexpectedMeiType meiTypeReadDeviceIdentification meiType)
      else (decodeObjects (functionCodeEncapsulatedInterfaceTransport :: meiType :: code :: level :: more ::
        next :: count :: data) count.toNat responseObjectsStart).map
          fun objects => ⟨code, level, more != moreFollowsNo, next, objects⟩ := by
  rw [decode, checkHeader_cons _ (by simp [readDeviceIdentificationResponseHeaderLen])]
  simp only [ok_bind, meiTypeByte, readDeviceIdCodeByte, conformityLevelByte, moreFollowsByte,
    nextObjectIdByte, numberOfObjectsByte, index_cons_succ, index_cons_zero]
  split
  · rfl
  · generalize decodeObjects _ _ _ = decoded
    cases decoded <;> rfl

theorem decode_encode {m : ReadDeviceIdentificationResponse} (hcount : m.objects.length < 256)
    (hlen : ∀ o ∈ m.objects, o.value.length < 256) : decode m.encode = .ok m := by
  have hcount' : (UInt8.ofNat m.objects.length).toNat = m.objects.length := by
    rw [UInt8.ofNat_toNat_mod, Nat.mod_eq_of_lt hcount]
  have hmore : ((if m.moreFollows then moreFollowsYes else moreFollowsNo) != moreFollowsNo) = m.moreFollows := by
    cases m.moreFollows <;> decide
  simp only [encode, List.cons_append, List.nil_append, decode_cons, ne_eq, not_true_eq_false, if_false,
    hcount', hmore]
  rw [@decodeObjects_encode _ [] _ _ hlen (by simp [responseObjectsStart]) (by simp [responseObjectsStart])]
  rfl

theorem decode_ne_panic (bytes : Bytes) : decode bytes ≠ .panic := by
  rcases checkHeader_cases bytes functionCodeEncapsulatedInterfaceTransport
    (show 0 < readDeviceIdentificationResponseHeaderLen by decide) with ⟨rest, rfl, hlen⟩ | ⟨e, he⟩
  · match rest, hlen with
    | meiType :: code :: level :: more :: next :: count :: data, _ =>
      rw [decode_cons]
      split
      · simp
      · exact map_ne_panic.mpr (decodeObjects_ne_panic _ _ _)
  · simp [decode, he]

end ReadDeviceIdentificationResponse

/-! ### Exceptions -/

structure ExceptionResponse where
  functionCode : UInt8
  exceptionCode : UInt8
  deriving DecidableEq, Repr

namespace ExceptionResponse

def encode (m : ExceptionResponse) : Bytes :=
  [m.functionCode ||| exceptionResponseFunctionCodeBit, m.exceptionCode]

def decode (bytes : Bytes) : Outcome DecodeError ExceptionResponse :=
  if bytes.length < exceptionResponseLen then .err .tooShort
  else do
    let rawFunctionCode ← index bytes functionCodeByte
    if rawFunctionCode &&& exceptionResponseFunctionCodeBit = 0 then
      .err (.notAnExceptionResponse rawFunctionCode)
    else do
      let exceptionCode ← index bytes exceptionCodeByte
      pure ⟨rawFunctionCode &&& ~~~exceptionResponseFunctionCodeBit, exceptionCode⟩

@[simp] theorem length_encode (m : ExceptionResponse) : m.encode.length = 2 := rfl

theorem decode_cons (rawFunctionCode exceptionCode : UInt8) (rest : Bytes) :
    decode (rawFunctionCode :: exceptionCode :: rest) =
      if rawFunctionCode &&& exceptionResponseFunctionCodeBit = 0 then
        .err (.notAnExceptionResponse rawFunctionCode)
      else .ok ⟨rawFunctionCode &&& ~~~exceptionResponseFunctionCodeBit, exceptionCode⟩ := by
  simp [decode, exceptionResponseLen, functionCodeByte, exceptionCodeByte]

/-- Setting the exception bit of a code below it is visible and undone by clearing it. -/
theorem exceptionBit_set_and_clear {c : UInt8} (h : c < 0x80) :
    (c ||| exceptionResponseFunctionCodeBit) &&& exceptionResponseFunctionCodeBit ≠ 0 ∧
      (c ||| exceptionResponseFunctionCodeBit) &&& ~~~exceptionResponseFunctionCodeBit = c := by
  have hall : ∀ n < 128,
      (UInt8.ofNat n ||| exceptionResponseFunctionCodeBit) &&& exceptionResponseFunctionCodeBit ≠ 0 ∧
        (UInt8.ofNat n ||| exceptionResponseFunctionCodeBit) &&& ~~~exceptionResponseFunctionCodeBit =
          UInt8.ofNat n := by
    decide
  have hc := hall c.toNat (by simpa using UInt8.lt_iff_toNat_lt.mp h)
  rwa [UInt8.ofNat_toNat] at hc

theorem decode_encode {m : ExceptionResponse} (h : m.functionCode < 0x80) : decode m.encode = .ok m := by
  obtain ⟨hset, hclear⟩ := exceptionBit_set_and_clear h
  rw [encode, decode_cons, if_neg hset, hclear]

theorem decode_ne_panic (bytes : Bytes) : decode bytes ≠ .panic := by
  match bytes with
  | [] => simp [decode, exceptionResponseLen]
  | [_] => simp [decode, exceptionResponseLen]
  | rawFunctionCode :: exceptionCode :: rest =>
    rw [decode_cons]
    split <;> simp

end ExceptionResponse

end InfusedModbus.Protocol
