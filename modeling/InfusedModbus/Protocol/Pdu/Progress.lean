import InfusedModbus.Protocol.Adu
import InfusedModbus.Protocol.Pdu.Consistency

/-! The loops of the decoders. Each reads one record, sub-request or object a turn, and
a turn moves the offset strictly forward within the bytes. No turn panics, and so no
decoder does. -/

namespace InfusedModbus.Protocol

open Foundation Foundation.Outcome

/-! ### Objects -/

/-- An object of an identification and the offset behind it. -/
def readObject (bytes : Bytes) (offset : ℕ) : Outcome DecodeError (DeviceIdentificationObject × ℕ) :=
  if bytes.length < offset + 2 then .err .tooShort
  else do
    let id ← index bytes offset
    let length ← index bytes (offset + 1)
    let valueStart := offset + 2
    if bytes.length < valueStart + length.toNat then .err .tooShort
    else do
      let value ← slice bytes valueStart (valueStart + length.toNat)
      pure (⟨id, value⟩, valueStart + length.toNat)

theorem readsTimes_decodeObjects (bytes : Bytes) : ReadsTimes (readObject bytes) (decodeObjects bytes) where
  zero _ := rfl
  succ n offset := by
    rw [decodeObjects]
    simp only [readObject, ite_bind, err_bind, Outcome.bind_assoc, pure_eq, ok_bind]

theorem readObject_eq_ok {bytes : Bytes} {o : DeviceIdentificationObject} {offset next : ℕ}
    (h : readObject bytes offset = .ok (o, next)) : next = offset + (2 + o.value.length) ∧ next ≤ bytes.length := by
  unfold readObject at h
  split at h
  · cases h
  obtain ⟨id, -, h⟩ := bind_eq_ok.mp h
  obtain ⟨length, -, h⟩ := bind_eq_ok.mp h
  dsimp only at h
  split at h
  · cases h
  obtain ⟨value, hslice, h⟩ := bind_eq_ok.mp h
  obtain ⟨rfl, rfl⟩ := Prod.mk.inj (ok.inj h)
  have hlen := (drop_of_slice hslice).1
  dsimp only
  omega

theorem advances_readObject (bytes : Bytes) : Advances (readObject bytes) bytes.length where
  lt h := by
    have := (readObject_eq_ok h).1
    omega
  le h := (readObject_eq_ok h).2

theorem advances_readSubRequest (bytes : Bytes) : Advances (readSubRequest bytes) bytes.length := by
  have hbounds : ∀ {offset s next}, readSubRequest bytes offset = .ok (s, next) →
      offset < next ∧ next ≤ bytes.length := by
    intro offset s next h
    obtain ⟨rfl, hdrop⟩ := readSubRequest_eq_ok h
    have hlen := congrArg List.length hdrop
    simp only [List.length_append, List.length_drop, encodeSubRequest, List.length_cons, length_u16ToBeBytes] at hlen
    omega
  exact ⟨fun h => (hbounds h).1, fun h => (hbounds h).2⟩

/-! ### No turn panics -/

theorem readRecord_ne_panic (bytes : Bytes) (offset : ℕ) : readRecord bytes offset ≠ .panic := by
  unfold readRecord
  split
  · simp
  rw [index_of_lt (by omega), ok_bind]
  split
  · simp
  split
  · simp
  rw [index_of_lt (by omega), ok_bind]
  split
  · simp
  dsimp only
  split
  · simp
  rw [slice_of_le (by omega) (by omega), ok_bind]
  simp

theorem readWriteSubRequest_ne_panic (bytes : Bytes) (offset : ℕ) : readWriteSubRequest bytes offset ≠ .panic := by
  have hseven : fileRecordSubRequestLen = 7 := rfl
  unfold readWriteSubRequest
  split
  · simp
  rw [index_of_lt (by omega), ok_bind]
  split
  · simp
  rw [readU16Be_of_le (by omega), ok_bind, readU16Be_of_le (by omega), ok_bind, readU16Be_of_le (by omega), ok_bind]
  dsimp only
  split
  · simp
  rw [slice_of_le (by omega) (by omega), ok_bind]
  simp

theorem readObject_ne_panic (bytes : Bytes) (offset : ℕ) : readObject bytes offset ≠ .panic := by
  unfold readObject
  split
  · simp
  rw [index_of_lt (by omega), ok_bind, index_of_lt (by omega), ok_bind]
  dsimp only
  split
  · simp
  rw [slice_of_le (by omega) (by omega), ok_bind]
  simp

theorem readSubRequest_ne_panic {bytes : Bytes} {offset : ℕ} (h : offset + fileRecordSubRequestLen ≤ bytes.length) :
    readSubRequest bytes offset ≠ .panic := by
  have hseven : fileRecordSubRequestLen = 7 := rfl
  unfold readSubRequest
  rw [index_of_lt (by omega), ok_bind]
  split
  · simp
  rw [readU16Be_of_le (by omega), ok_bind, readU16Be_of_le (by omega), ok_bind, readU16Be_of_le (by omega), ok_bind]
  simp

/-! ### No decoder panics -/

theorem decode_ne_panic (k : Kind) (bytes : Bytes) : decode k bytes ≠ .panic := by
  cases k with
  | readCoilsRequest | readDiscreteInputsRequest | readHoldingRegistersRequest | readInputRegistersRequest
  | writeSingleRegisterRequest | writeSingleRegisterResponse | writeMultipleCoilsResponse
  | writeMultipleRegistersResponse => exact map_ne_panic.mpr (decodeAddressAndQuantity_ne_panic _ _)
  | writeSingleCoilRequest | writeSingleCoilResponse => exact map_ne_panic.mpr (decodeWriteSingleCoil_ne_panic _)
  | maskWriteRegisterRequest | maskWriteRegisterResponse =>
    exact map_ne_panic.mpr (decodeMaskWriteRegister_ne_panic _)
  | readCoilsResponse | readDiscreteInputsResponse => exact map_ne_panic.mpr (decodeBitfieldResponse_ne_panic _ _)
  | readHoldingRegistersResponse | readInputRegistersResponse | readWriteMultipleRegistersResponse =>
    exact map_ne_panic.mpr (decodeRegisterArrayResponse_ne_panic _ _)
  | reportServerIdRequest => exact ReportServerIdRequest.decode_ne_panic bytes
  | reportServerIdResponse => exact ReportServerIdResponse.decode_ne_panic bytes
  | readWriteMultipleRegistersRequest => exact ReadWriteMultipleRegistersRequest.decode_ne_panic bytes
  | writeMultipleCoilsRequest => exact WriteMultipleCoilsRequest.decode_ne_panic bytes
  | writeMultipleRegistersRequest => exact WriteMultipleRegistersRequest.decode_ne_panic bytes
  | readFileRecordRequest => exact ReadFileRecordRequest.decode_ne_panic bytes
  | readFileRecordResponse => exact ReadFileRecordResponse.decode_ne_panic bytes
  | writeFileRecordRequest | writeFileRecordResponse => exact map_ne_panic.mpr (decodeWriteFileRecord_ne_panic _ _)
  | readDeviceIdentificationRequest => exact ReadDeviceIdentificationRequest.decode_ne_panic bytes
  | readDeviceIdentificationResponse => exact ReadDeviceIdentificationResponse.decode_ne_panic bytes
  | exceptionResponse => exact ExceptionResponse.decode_ne_panic bytes

theorem TcpAdu.decode_ne_panic (bytes : Bytes) : decode bytes ≠ .panic := by
  have hheader : mbapHeaderLen = 7 := rfl
  unfold decode
  split
  · simp
  rw [mbapProtocolIdByte, readU16Be_of_le (by omega), ok_bind]
  split
  · simp
  rw [mbapLengthByte, readU16Be_of_le (by omega), ok_bind]
  split
  · simp
  next hlength =>
  rw [usizeSub_of_le (one_le_length hlength), ok_bind]
  split
  · simp
  rw [mbapTransactionIdByte, readU16Be_of_le (by omega), ok_bind, mbapUnitIdByte, index_of_lt (by omega), ok_bind,
    slice_of_le (by omega) (by omega), ok_bind]
  simp

theorem RtuAdu.decode_ne_panic (bytes : Bytes) : decode bytes ≠ .panic := by
  have hmin : rtuMinFrameLen = 3 := rfl
  have hcrc : rtuCrcLen = 2 := rfl
  unfold decode
  split
  · simp
  dsimp only
  rw [slice_of_le (by omega) (by omega), ok_bind, index_of_lt (by omega), ok_bind, index_of_lt (by omega), ok_bind]
  split
  · simp
  rw [rtuUnitIdByte, index_of_lt (by omega), ok_bind, slice_of_le (by simp; omega) le_rfl, ok_bind]
  simp

end InfusedModbus.Protocol
