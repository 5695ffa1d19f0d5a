import InfusedModbus.ProtocolCore.FlatList
import InfusedModbus.ProtocolCore.Pdu.Fields

/-! The two responses of the port about the device itself. Both can hold more than a
PDU takes and refuse to encode it. A message may name more objects than the port has
room for; the port then gives up at the first one too many, before it has looked at
those behind it. -/

namespace InfusedModbus.ProtocolCore

open Foundation Foundation.Outcome Protocol

/-! ### Report Server ID -/

structure ReportServerIdResponse where
  serverId : PduBytes
  runIndicatorStatus : Bool
  deriving DecidableEq, Repr

namespace ReportServerIdResponse

def encode (m : ReportServerIdResponse) : Outcome EncodeError PduBytes :=
  let byteCount := m.serverId.len + 1
  if maxPduLen < reportServerIdResponseHeaderLen + byteCount then .err .tooLargeForBuffer
  else do
    let buffer ← (PduBytes.new.push functionCodeReportServerId).unwrap
    let buffer ← (buffer.push (UInt8.ofNat byteCount)).unwrap
    let buffer ← (buffer.extendFromSlice m.serverId.asSlice).unwrap
    (buffer.push (if m.runIndicatorStatus then runIndicatorOn else runIndicatorOff)).unwrap

def decode (bytes : Bytes) : Outcome DecodeError ReportServerIdResponse := do
  checkHeader bytes reportServerIdResponseHeaderLen functionCodeReportServerId
  let byteCount ← index bytes reportServerIdByteCountByte
  if byteCount.toNat = 0 then .err .tooShort
  else if bytes.length < reportServerIdDataStart + byteCount.toNat then .err .tooShort
  else do
    let serverIdEnd := reportServerIdDataStart + byteCount.toNat - 1
    let slice ← slice bytes reportServerIdDataStart serverIdEnd
    let serverId ← (PduBytes.new.extendFromSlice slice).mapErr fun _ => .tooLargeForBuffer
    let status ← index bytes serverIdEnd
    pure ⟨serverId, status != runIndicatorOff⟩

/-- The message of the original codec with the same fields. -/
def toProtocol (m : ReportServerIdResponse) : Protocol.ReportServerIdResponse :=
  ⟨m.serverId.asSlice, m.runIndicatorStatus⟩

theorem encode_eq (m : ReportServerIdResponse) : m.encode = guarded m.toProtocol.encode := by
  have hlen : m.toProtocol.encode.length = reportServerIdResponseHeaderLen + (m.serverId.len + 1) := by
    rw [Protocol.ReportServerIdResponse.length_encode]
    show m.serverId.len + 3 = 2 + (m.serverId.len + 1)
    omega
  simp only [encode, guarded, hlen, unwrap_push, unwrap_extendFromSlice, emit_bind_emit]
  rfl

theorem decode_eq (bytes : Bytes) :
    (decode bytes).map toProtocol =
      capped (fun m => m.serverId.length) maxPduLen (Protocol.ReportServerIdResponse.decode bytes) := by
  rcases checkHeader_cases bytes functionCodeReportServerId (show 0 < reportServerIdResponseHeaderLen by decide)
    with ⟨rest, rfl, hlen⟩ | ⟨e, he⟩
  · match rest, hlen with
    | byteCount :: data, hlen =>
      rw [decode, checkHeader_eq, checkHeader_cons _ hlen, mapErr_ok, ok_bind, reportServerIdByteCountByte,
        index_cons_succ, index_cons_zero, ok_bind, Protocol.ReportServerIdResponse.decode_cons,
        reportServerIdDataStart]
      simp only [List.length_cons, Nat.add_comm 2, Nat.add_assoc, Nat.reduceAdd, Nat.add_lt_add_iff_right]
      by_cases hzero : byteCount.toNat = 0
      · simp [hzero, capped, DecodeError.ofProtocol]
      by_cases hshort : data.length < byteCount.toNat
      · simp [hzero, hshort, capped, DecodeError.ofProtocol]
      have hend : byteCount.toNat + 2 - 1 = byteCount.toNat - 1 + 2 := by omega
      rw [if_neg hzero, if_neg hshort, dif_neg (by omega), hend, slice_of_le (by omega) (by simp; omega),
        index_of_lt (by simp; omega), ok_bind, capped_ok]
      simp only [List.drop_succ_cons, List.drop_zero, Nat.add_sub_cancel, List.getElem_cons_succ, ok_bind, pure_eq]
      by_cases hroom : maxPduLen < (data.take (byteCount.toNat - 1)).length
      · rw [PduBytes.extendFromSlice_of_lt (by rw [PduBytes.asSlice_new, List.length_nil]; omega), if_pos hroom]
        rfl
      · rw [PduBytes.extendFromSlice_of_le (by rw [PduBytes.asSlice_new, List.length_nil]; omega), if_neg hroom]
        rfl
  · simp [decode, checkHeader_eq, Protocol.ReportServerIdResponse.decode, capped, he]

/-- A PDU does not carry a longer identity than a buffer holds. -/
theorem length_of_decode {bytes : Bytes} {m : Protocol.ReportServerIdResponse} (hlen : bytes.length ≤ maxPduLen)
    (h : Protocol.ReportServerIdResponse.decode bytes = .ok m) : m.serverId.length ≤ maxPduLen := by
  rcases checkHeader_cases bytes functionCodeReportServerId (show 0 < reportServerIdResponseHeaderLen by decide)
    with ⟨rest, rfl, hrest⟩ | ⟨e, he⟩
  · match rest, hrest with
    | byteCount :: data, _ =>
      simp only [List.length_cons, maxPduLen] at hlen
      rw [Protocol.ReportServerIdResponse.decode_cons] at h
      split at h
      · cases h
      · obtain rfl := Outcome.ok.inj h
        rw [List.length_take, maxPduLen]
        omega
  · simp [Protocol.ReportServerIdResponse.decode, he] at h

end ReportServerIdResponse

/-! ### Read Device Identification -/

/-- The loop that reads `n` objects from `offset` on into a list. -/
def decodeObjects (bytes : Bytes) :
    ℕ → ℕ → DeviceIdentificationObjects → Outcome DecodeError DeviceIdentificationObjects
  | 0, _, objects => pure objects
  | n + 1, offset, objects =>
    if bytes.length < offset + 2 then .err .tooShort
    else do
      let id ← index bytes offset
      let length ← index bytes (offset + 1)
      let valueStart := offset + 2
      if bytes.length < valueStart + length.toNat then .err .tooShort
      else do
        let value ← slice bytes valueStart (valueStart + length.toNat)
        let objects ← (objects.push id value).mapErr fun _ => .tooLargeForBuffer
        decodeObjects bytes n (valueStart + length.toNat) objects

/-- The offset behind the object at `offset`. -/
def objectEnd (bytes : Bytes) (offset : ℕ) : ℕ := offset + 2 + (bytes.getD (offset + 1) 0).toNat

/-- How many of `n` objects can be read from `offset` on before the bytes run out. -/
def objectsRead (bytes : Bytes) : ℕ → ℕ → ℕ
  | 0, _ => 0
  | n + 1, offset =>
    if objectEnd bytes offset ≤ bytes.length then 1 + objectsRead bytes n (objectEnd bytes offset) else 0

section Turns

variable {bytes : Bytes} {offset : ℕ}

/-- The object at `offset`. -/
def objectAt (bytes : Bytes) (offset : ℕ) : DeviceIdentificationObject :=
  ⟨bytes.getD offset 0, (bytes.drop (offset + 2)).take (bytes.getD (offset + 1) 0).toNat⟩

theorem protocol_decodeObjects_turn (n : ℕ) (h : objectEnd bytes offset ≤ bytes.length) :
    Protocol.decodeObjects bytes (n + 1) offset =
      (Protocol.decodeObjects bytes n (objectEnd bytes offset)).map (objectAt bytes offset :: ·) := by
  unfold objectEnd at h
  rw [Protocol.decodeObjects, if_neg (by omega), index_eq_getD (by omega) 0, ok_bind,
    index_eq_getD (by omega) 0, ok_bind]
  dsimp only
  rw [if_neg (by omega), slice_of_le (by omega) (by omega), ok_bind, Nat.add_sub_cancel_left, objectEnd]
  cases Protocol.decodeObjects bytes n (offset + 2 + (bytes.getD (offset + 1) 0).toNat) <;> rfl

theorem decodeObjects_turn (n : ℕ) (objects : DeviceIdentificationObjects)
    (h : objectEnd bytes offset ≤ bytes.length) :
    decodeObjects bytes (n + 1) offset objects =
      ((objects.push (objectAt bytes offset).id (objectAt bytes offset).value).mapErr
        fun _ => .tooLargeForBuffer) >>= decodeObjects bytes n (objectEnd bytes offset) := by
  unfold objectEnd at h
  rw [decodeObjects, if_neg (by omega), index_eq_getD (by omega) 0, ok_bind, index_eq_getD (by omega) 0, ok_bind]
  dsimp only
  rw [if_neg (by omega), slice_of_le (by omega) (by omega), ok_bind, Nat.add_sub_cancel_left]
  rfl

/-- Both codecs notice the end of the bytes alike. -/
theorem decodeObjects_stop (n : ℕ) (objects : DeviceIdentificationObjects)
    (h : bytes.length < objectEnd bytes offset) :
    Protocol.decodeObjects bytes (n + 1) offset = .err .tooShort ∧
      decodeObjects bytes (n + 1) offset objects = .err .tooShort := by
  unfold objectEnd at h
  rw [Protocol.decodeObjects, decodeObjects]
  by_cases hhead : bytes.length < offset + 2
  · rw [if_pos hhead, if_pos hhead]
    exact ⟨rfl, rfl⟩
  · simp only [if_neg hhead, index_eq_getD (show offset < bytes.length by omega) 0,
      index_eq_getD (show offset + 1 < bytes.length by omega) 0, ok_bind, if_pos h, and_self]

end Turns

/-- The port's loop is the original one, as long as it has room for every object it meets. -/
theorem decodeObjects_eq {bytes : Bytes} (hbytes : bytes.length ≤ maxPduLen) (n : ℕ) {offset : ℕ}
    {objects : DeviceIdentificationObjects} (hdata : objects.data.asSlice.length ≤ offset)
    (hcount : objects.objects.length ≤ maxDeviceIdentificationObjects) :
    (maxDeviceIdentificationObjects < objects.objects.length + objectsRead bytes n offset →
        decodeObjects bytes n offset objects = .err .tooLargeForBuffer) ∧
      (objects.objects.length + objectsRead bytes n offset ≤ maxDeviceIdentificationObjects →
        (decodeObjects bytes n offset objects).map DeviceIdentificationObjects.objects =
          ((Protocol.decodeObjects bytes n offset).mapErr .ofProtocol).map (objects.objects ++ ·)) := by
  induction n generalizing offset objects with
  | zero =>
    refine ⟨fun h => absurd h (by rw [objectsRead]; omega), fun _ => ?_⟩
    simp [decodeObjects, Protocol.decodeObjects]
  | succ n ih =>
    by_cases hend : objectEnd bytes offset ≤ bytes.length
    · have hread : objectsRead bytes (n + 1) offset = 1 + objectsRead bytes n (objectEnd bytes offset) := by
        rw [objectsRead, if_pos hend]
      rw [hread, decodeObjects_turn n objects hend, protocol_decodeObjects_turn n hend]
      by_cases hfull : objects.objects.length = maxDeviceIdentificationObjects
      · rw [DeviceIdentificationObjects.push_of_full _ hfull]
        exact ⟨fun _ => rfl, fun h => absurd h (by omega)⟩
      · have hvalue : offset + (objectAt bytes offset).value.length ≤ objectEnd bytes offset := by
          rw [objectAt, objectEnd, List.length_take]
          omega
        obtain ⟨after, hpush, hobjects, hslice⟩ := DeviceIdentificationObjects.push_of_room
          (objectAt bytes offset).id (show objects.objects.length < _ by omega)
          (show objects.data.asSlice.length + (objectAt bytes offset).value.length ≤ maxPduLen by omega)
        have hafter : after.objects.length = objects.objects.length + 1 := by simp [hobjects]
        have hdata' : after.data.asSlice.length ≤ objectEnd bytes offset := by
          rw [hslice, List.length_append]
          omega
        obtain ⟨hlarge, hfits⟩ := ih hdata' (by omega)
        rw [hpush, mapErr_ok, ok_bind, mapErr_map, map_map]
        refine ⟨fun h => hlarge (by omega), fun h => ?_⟩
        rw [hfits (by omega), hobjects]
        simp only [List.append_assoc, List.singleton_append]
    · obtain ⟨horiginal, hport⟩ := decodeObjects_stop n objects (show bytes.length < objectEnd bytes offset by omega)
      rw [objectsRead, if_neg hend, horiginal, hport]
      exact ⟨fun h => absurd h (by omega), fun _ => rfl⟩

theorem length_of_decodeObjects {bytes : Bytes} {n offset : ℕ} {objects : List DeviceIdentificationObject}
    (h : Protocol.decodeObjects bytes n offset = .ok objects) : objects.length = objectsRead bytes n offset := by
  induction n generalizing offset objects with
  | zero =>
    obtain rfl := Outcome.ok.inj h
    rfl
  | succ n ih =>
    by_cases hend : objectEnd bytes offset ≤ bytes.length
    · rw [protocol_decodeObjects_turn n hend] at h
      obtain ⟨tail, htail, rfl⟩ := map_eq_ok.mp h
      rw [objectsRead, if_pos hend, List.length_cons, ih htail, Nat.add_comm]
    · rw [(decodeObjects_stop n FlatList.new (by omega)).1] at h
      cases h

structure ReadDeviceIdentificationResponse where
  readDeviceIdCode : UInt8
  conformityLevel : UInt8
  moreFollows : Bool
  nextObjectId : UInt8
  objects : DeviceIdentificationObjects
  deriving DecidableEq, Repr

namespace ReadDeviceIdentificationResponse

def encode (m : ReadDeviceIdentificationResponse) : Outcome EncodeError PduBytes := do
  let objects ← m.objects.each
  let dataLen := (objects.map fun o => 2 + o.2.length).sum
  if maxPduLen < responseObjectsStart + dataLen then .err .tooLargeForBuffer
  else do
    let buffer ← (PduBytes.new.push functionCodeEncapsulatedInterfaceTransport).unwrap
    let buffer ← (buffer.push meiTypeReadDeviceIdentification).unwrap
    let buffer ← (buffer.push m.readDeviceIdCode).unwrap
    let buffer ← (buffer.push m.conformityLevel).unwrap
    let buffer ← (buffer.push (if m.moreFollows then moreFollowsYes else moreFollowsNo)).unwrap
    let buffer ← (buffer.push m.nextObjectId).unwrap
    let buffer ← (buffer.push (UInt8.ofNat m.objects.count)).unwrap
    objects.foldlM (fun buffer o => do
      let buffer ← (buffer.push o.1.id).unwrap
      let buffer ← (buffer.push (UInt8.ofNat o.2.length)).unwrap
      (buffer.extendFromSlice o.2).unwrap) buffer

def decode (bytes : Bytes) : Outcome DecodeError ReadDeviceIdentificationResponse := do
  checkHeader bytes readDeviceIdentificationResponseHeaderLen functionCodeEncapsulatedInterfaceTransport
  let meiType ← index bytes meiTypeByte
  if meiType ≠ meiTypeReadDeviceIdentification then
    .err (.unexpectedMeiType meiTypeReadDeviceIdentification meiType)
  else do
    let readDeviceIdCode ← index bytes readDeviceIdCodeByte
    let conformityLevel ← index bytes conformityLevelByte
    let moreFollows ← index bytes moreFollowsByte
    let nextObjectId ← index bytes nextObjectIdByte
    let numberOfObjects ← index bytes numberOfObjectsByte
    let objects ← decodeObjects bytes numberOfObjects.toNat responseObjectsStart FlatList.new
    pure ⟨readDeviceIdCode, conformityLevel, moreFollows != moreFollowsNo, nextObjectId, objects⟩

def toProtocol (m : ReadDeviceIdentificationResponse) : Protocol.ReadDeviceIdentificationResponse :=
  ⟨m.readDeviceIdCode, m.conformityLevel, m.moreFollows, m.nextObjectId, m.objects.objects⟩

theorem encode_eq (m : ReadDeviceIdentificationResponse) : m.encode = guarded m.toProtocol.encode := by
  have hlen : m.toProtocol.encode.length =
      responseObjectsStart + ((FlatList.entries m.objects).map fun o => 2 + o.2.length).sum := by
    rw [Protocol.ReadDeviceIdentificationResponse.length_encode, toProtocol, DeviceIdentificationObjects.objects,
      List.map_map]
    rfl
  have hcount : m.objects.count = m.toProtocol.objects.length := by
    rw [toProtocol, DeviceIdentificationObjects.objects, List.length_map, FlatList.length_entries, FlatList.count]
  have hobjects : m.toProtocol.objects.flatMap encodeObject =
      (FlatList.entries m.objects).flatMap fun o => [o.1.id] ++ ([UInt8.ofNat o.2.length] ++ o.2) := by
    rw [toProtocol, DeviceIdentificationObjects.objects, List.flatMap_map]
    rfl
  simp only [encode, FlatList.each_eq, ok_bind, guarded, hlen, hcount, unwrap_push, unwrap_extendFromSlice,
    emit_bind_emit, foldlM_emit]
  rw [Protocol.ReadDeviceIdentificationResponse.encode, hobjects]
  rfl

/-- How many objects the front of a message holds. -/
def objectsCarried : Bytes → ℕ
  | functionCode :: meiType :: code :: level :: more :: next :: count :: data =>
    if functionCode = functionCodeEncapsulatedInterfaceTransport ∧ meiType = meiTypeReadDeviceIdentification then
      objectsRead (functionCode :: meiType :: code :: level :: more :: next :: count :: data) count.toNat
        responseObjectsStart
    else 0
  | _ => 0

/-- The port decodes as the original codec does, unless there are more objects than it has room for. -/
theorem decode_eq {bytes : Bytes} (hbytes : bytes.length ≤ maxPduLen) :
    (maxDeviceIdentificationObjects < objectsCarried bytes → decode bytes = .err .tooLargeForBuffer) ∧
      (objectsCarried bytes ≤ maxDeviceIdentificationObjects →
        (decode bytes).map toProtocol =
          (Protocol.ReadDeviceIdentificationResponse.decode bytes).mapErr .ofProtocol) := by
  rcases checkHeader_cases bytes functionCodeEncapsulatedInterfaceTransport
    (show 0 < readDeviceIdentificationResponseHeaderLen by decide) with ⟨rest, rfl, hlen⟩ | ⟨e, he⟩
  · match rest, hlen with
    | meiType :: code :: level :: more :: next :: count :: data, hlen =>
      rw [decode, checkHeader_eq, checkHeader_cons _ hlen, mapErr_ok, ok_bind,
        Protocol.ReadDeviceIdentificationResponse.decode_cons]
      simp only [meiTypeByte, readDeviceIdCodeByte, conformityLevelByte, moreFollowsByte, nextObjectIdByte,
        numberOfObjectsByte, index_cons_succ, index_cons_zero, ok_bind, pure_eq, objectsCarried, true_and]
      by_cases hmei : meiType = meiTypeReadDeviceIdentification
      · obtain ⟨hlarge, hfits⟩ := @decodeObjects_eq _ hbytes count.toNat responseObjectsStart
          FlatList.new (Nat.zero_le _) (Nat.zero_le _)
        rw [if_pos hmei, if_neg (by simp [hmei]), if_neg (by simp [hmei])]
        generalize decodeObjects _ _ _ _ = decoded at hlarge hfits ⊢
        refine ⟨fun h => ?_, fun h => ?_⟩
        · rw [hlarge (by simpa [DeviceIdentificationObjects.objects] using h)]
          rfl
        · have hmap : (decoded >>= fun objects => .ok (⟨code, level, more != moreFollowsNo, next, objects⟩ :
              ReadDeviceIdentificationResponse)).map toProtocol =
              (decoded.map DeviceIdentificationObjects.objects).map fun objects =>
                ⟨code, level, more != moreFollowsNo, next, objects⟩ := by
            cases decoded <;> rfl
          rw [hmap, hfits (by simpa [DeviceIdentificationObjects.objects] using h), map_map, mapErr_map]
          rfl
      · rw [if_neg hmei, if_pos hmei, if_pos hmei]
        exact ⟨fun h => absurd h (by omega), fun _ => rfl⟩
  · have hnone : objectsCarried bytes = 0 := by
      unfold objectsCarried
      split
      · refine if_neg ?_
        rintro ⟨rfl, -⟩
        rw [checkHeader_cons _ (by simp [readDeviceIdentificationResponseHeaderLen])] at he
        cases he
      · rfl
    rw [hnone]
    refine ⟨fun h => absurd h (by omega), fun _ => ?_⟩
    simp [decode, checkHeader_eq, Protocol.ReadDeviceIdentificationResponse.decode, he]

theorem length_of_decode {bytes : Bytes} {m : Protocol.ReadDeviceIdentificationResponse}
    (h : Protocol.ReadDeviceIdentificationResponse.decode bytes = .ok m) : m.objects.length = objectsCarried bytes := by
  rcases checkHeader_cases bytes functionCodeEncapsulatedInterfaceTransport
    (show 0 < readDeviceIdentificationResponseHeaderLen by decide) with ⟨rest, rfl, hlen⟩ | ⟨e, he⟩
  · match rest, hlen with
    | meiType :: code :: level :: more :: next :: count :: data, _ =>
      rw [Protocol.ReadDeviceIdentificationResponse.decode_cons] at h
      split at h
      · cases h
      · next hmei =>
        obtain ⟨objects, hobjects, rfl⟩ := map_eq_ok.mp h
        rw [objectsCarried, if_pos ⟨rfl, by simpa using hmei⟩]
        exact length_of_decodeObjects hobjects
  · simp [Protocol.ReadDeviceIdentificationResponse.decode, he] at h

end ReadDeviceIdentificationResponse

end InfusedModbus.ProtocolCore
