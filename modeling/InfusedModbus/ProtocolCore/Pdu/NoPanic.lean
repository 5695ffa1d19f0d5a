import InfusedModbus.ProtocolCore.Pdu.Message

/-! Which encoders of the port can panic. Every write of an encoder without a result is
expected to fit the buffer; for all types but one the capacity of the containers sees to
that. A Write Multiple Coils request has a header of six bytes and takes the same bit
list as the two-byte responses: from 1977 coils on it does not fit. -/

namespace InfusedModbus.ProtocolCore

open Foundation Foundation.Outcome Protocol

/-- An encoder gives at most one PDU, or an error if its type has a result. -/
def EncodesToPdu (k : Kind) (v : Payload k) : Prop :=
  match encode k v with
  | .ok buffer => buffer.asSlice.length ≤ maxPduLen
  | .err _ => Fallible k
  | .panic => False

/-- A write of coils is of a size that its PDU takes. -/
def CoilsFit : (k : Kind) → Payload k → Prop
  | .writeMultipleCoilsRequest, m => m.coilValues.len ≤ 1976
  | _, _ => True

variable {k : Kind} {v : Payload k} {bytes : Bytes}

theorem encodesToPdu_of_emit (h : encode k v = emit PduBytes.new bytes) (hlen : bytes.length ≤ maxPduLen) :
    EncodesToPdu k v := by
  rw [EncodesToPdu, h, emit_new_of_le hlen]
  exact hlen

theorem encodesToPdu_of_guarded (hk : Fallible k) (h : encode k v = guarded bytes) : EncodesToPdu k v := by
  unfold guarded at h
  split at h
  · rw [EncodesToPdu, h]
    exact hk
  · next hlen => exact encodesToPdu_of_emit h (by omega)

theorem encodesToPdu_of_err {e : EncodeError} (hk : Fallible k) (h : encode k v = .err e) : EncodesToPdu k v := by
  rw [EncodesToPdu, h]
  exact hk

/-- An error of the original encoder is an error of the port. -/
theorem encodesToPdu_of_bind {original : Outcome Protocol.EncodeError Bytes}
    {finish : Bytes → Outcome EncodeError PduBytes} (hk : Fallible k)
    (h : encode k v = original.mapErr .ofProtocol >>= finish) (horiginal : original ≠ .panic)
    (hfinish : ∀ bytes, original = .ok bytes → encode k v = finish bytes → EncodesToPdu k v) :
    EncodesToPdu k v := by
  cases original with
  | ok bytes => exact hfinish bytes rfl h
  | err e => exact encodesToPdu_of_err hk h
  | panic => exact absurd rfl horiginal

/-- A bit list, full or not, fits a response. -/
theorem encodesToPdu_of_bitfield {functionCode : UInt8} {values : BitValues}
    (h : encode k v = encodeBitfieldResponse functionCode values) : EncodesToPdu k v := by
  rw [encodeBitfieldResponse_emit] at h
  refine encodesToPdu_of_emit h ?_
  have hmost : maxBitCount = 2000 := rfl
  have hceil := divCeil_eight values.len
  have hle := values.len_le
  rw [List.length_cons, List.length_cons, values.length_asPackedBytes, maxPduLen]
  omega

/-- A register list, full or not, fits a response. -/
theorem encodesToPdu_of_registers {functionCode : UInt8} {values : RegisterValues}
    (h : encode k v = encodeRegisterArrayResponse functionCode values.asSlice) : EncodesToPdu k v := by
  rw [encodeRegisterArrayResponse_eq] at h
  refine encodesToPdu_of_emit h ?_
  have hmost : maxRegisterCount = 125 := rfl
  have hle := values.len_le
  rw [length_encodeRegisterArrayResponse, maxPduLen]
  omega

/-- Sub-requests, as many as the list holds, fit a request. -/
theorem length_encode_readFileRecordRequest (m : ReadFileRecordRequest) :
    m.toProtocol.encode.length ≤ maxPduLen := by
  have hmost : maxFileRecordSubRequests = 35 := rfl
  have hle := m.subRequests.len_le
  rw [Protocol.ReadFileRecordRequest.length_encode, maxPduLen, ReadFileRecordRequest.toProtocol]
  dsimp only
  omega

/-- A full list of coils writes 256 bytes. -/
theorem writeMultipleCoils_encodesToPdu_iff (m : WriteMultipleCoilsRequest) :
    EncodesToPdu .writeMultipleCoilsRequest m ↔ m.coilValues.len ≤ 1976 := by
  obtain ⟨bytes, hlen, heq⟩ := WriteMultipleCoilsRequest.encode_emit (ε := EncodeError) m
  have hceil := divCeil_eight m.coilValues.len
  have hmax : maxPduLen = 253 := rfl
  by_cases hfits : bytes.length ≤ maxPduLen
  · exact iff_of_true (encodesToPdu_of_emit heq hfits) (by omega)
  · refine iff_of_false ?_ (by omega)
    rw [EncodesToPdu, show encode .writeMultipleCoilsRequest m = _ from heq, emit_new_of_lt (by omega)]
    exact id

/-- The encoders of the port do not panic, with the exception of one: it panics on exactly
the writes of more than 1976 coils. -/
theorem port_encodes_iff (k : Kind) (v : Payload k) : EncodesToPdu k v ↔ CoilsFit k v := by
  cases k with
  | readCoilsRequest | readDiscreteInputsRequest | readHoldingRegistersRequest | readInputRegistersRequest
  | writeSingleRegisterRequest | writeSingleRegisterResponse | writeMultipleCoilsResponse
  | writeMultipleRegistersResponse | writeSingleCoilRequest | writeSingleCoilResponse =>
    exact iff_of_true (encodesToPdu_of_emit (encodeAddressAndQuantity_eq _ _ _)
      (by rw [length_encodeAddressAndQuantity]; decide)) trivial
  | maskWriteRegisterRequest | maskWriteRegisterResponse =>
    exact iff_of_true (encodesToPdu_of_emit (encodeMaskWriteRegister_eq _ _ _)
      (show 7 ≤ maxPduLen by decide)) trivial
  | reportServerIdRequest =>
    exact iff_of_true (encodesToPdu_of_emit (unwrap_push PduBytes.new functionCodeReportServerId)
      (show 1 ≤ maxPduLen by decide)) trivial
  | readDeviceIdentificationRequest =>
    exact iff_of_true (encodesToPdu_of_emit rfl (show 4 ≤ maxPduLen by decide)) trivial
  | exceptionResponse => exact iff_of_true (encodesToPdu_of_emit rfl (show 2 ≤ maxPduLen by decide)) trivial
  | readCoilsResponse | readDiscreteInputsResponse => exact iff_of_true (encodesToPdu_of_bitfield rfl) trivial
  | readHoldingRegistersResponse | readInputRegistersResponse | readWriteMultipleRegistersResponse =>
    exact iff_of_true (encodesToPdu_of_registers rfl) trivial
  | reportServerIdResponse =>
    exact iff_of_true (encodesToPdu_of_guarded trivial (ReportServerIdResponse.encode_eq v)) trivial
  | readWriteMultipleRegistersRequest =>
    exact iff_of_true (encodesToPdu_of_bind trivial (ReadWriteMultipleRegistersRequest.encode_eq v)
      (ReadWriteMultipleRegistersRequest.encode_ne_panic _) fun _ hok heq =>
        encodesToPdu_of_emit heq (ReadWriteMultipleRegistersRequest.length_of_encode hok)) trivial
  | writeMultipleCoilsRequest => exact writeMultipleCoils_encodesToPdu_iff v
  | writeMultipleRegistersRequest =>
    exact iff_of_true (encodesToPdu_of_bind trivial (WriteMultipleRegistersRequest.encode_eq v)
      (WriteMultipleRegistersRequest.encode_ne_panic _) fun _ hok heq =>
        encodesToPdu_of_emit heq (WriteMultipleRegistersRequest.length_of_encode hok)) trivial
  | readFileRecordRequest =>
    exact iff_of_true (encodesToPdu_of_emit (ReadFileRecordRequest.encode_eq v)
      (length_encode_readFileRecordRequest v)) trivial
  | readFileRecordResponse =>
    exact iff_of_true (encodesToPdu_of_guarded trivial (ReadFileRecordResponse.encode_eq v)) trivial
  | writeFileRecordRequest | writeFileRecordResponse =>
    exact iff_of_true (encodesToPdu_of_bind trivial (encodeWriteFileRecord_eq _ _)
      (encodeWriteFileRecord_ne_panic _ _) fun _ _ heq => encodesToPdu_of_guarded trivial heq) trivial
  | readDeviceIdentificationResponse =>
    exact iff_of_true (encodesToPdu_of_guarded trivial (ReadDeviceIdentificationResponse.encode_eq v)) trivial

/-- Two thousand coils, as many as the bit list holds, cannot be written. -/
theorem write_of_all_coils_panics :
    ∃ coilValues, BitValues.new.extendFromSlice (List.replicate 2000 true) = .ok coilValues ∧
      encode .writeMultipleCoilsRequest ⟨0, coilValues⟩ = .panic := by
  have hlen : (List.replicate 2000 true).length = 2000 := List.length_replicate
  obtain ⟨coilValues, hok, hcoils⟩ := @BitValues.extendFromSlice_of_le BitValues.new
    (List.replicate 2000 true) (by rw [hlen]; decide)
  have htwo : coilValues.len = 2000 := by rw [hcoils, hlen]; rfl
  obtain ⟨bytes, hbytes, heq⟩ := WriteMultipleCoilsRequest.encode_emit (ε := EncodeError) ⟨0, coilValues⟩
  exact ⟨coilValues, hok, heq.trans (emit_new_of_lt (by rw [hbytes, htwo]; decide))⟩

end InfusedModbus.ProtocolCore
