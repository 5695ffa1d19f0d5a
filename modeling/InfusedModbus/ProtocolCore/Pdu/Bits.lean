import InfusedModbus.Protocol.Pdu.Bits
import InfusedModbus.ProtocolCore.BitValues
import InfusedModbus.ProtocolCore.Pdu.Fields

/-! The PDUs of the port that carry packed bits. Both directions copy whole bytes
between the wire and the bit list, so the bytes are those of the original codec when
the list has no padding, and the bits are always the original ones when they fit. -/

namespace InfusedModbus.ProtocolCore

open Foundation Foundation.Outcome Protocol

variable {ε : Type}

/-! ### Bitfield responses -/

def encodeBitfieldResponse (functionCode : UInt8) (values : BitValues) : Outcome ε PduBytes := do
  let buffer ← (PduBytes.new.push functionCode).unwrap
  let buffer ← (buffer.push (UInt8.ofNat values.asPackedBytes.length)).unwrap
  (buffer.extendFromSlice values.asPackedBytes).unwrap

/-- The bits are appended to `values`, which the callers leave empty. -/
def decodeBitfieldResponse (bytes : Bytes) (functionCode : UInt8) (values : BitValues) :
    Outcome DecodeError BitValues := do
  checkHeader bytes responseHeaderLen functionCode
  let byteCount ← index bytes byteCountByte
  if bytes.length < responseDataStart + byteCount.toNat then .err .tooShort
  else do
    let packed ← slice bytes responseDataStart (responseDataStart + byteCount.toNat)
    (values.extendFromPackedBytes packed (byteCount.toNat * 8)).mapErr fun _ => .tooLargeForBuffer

/-- The response takes the packed bytes and two more, whatever the padding. -/
theorem encodeBitfieldResponse_emit (functionCode : UInt8) (values : BitValues) :
    (encodeBitfieldResponse functionCode values : Outcome ε PduBytes) =
      emit PduBytes.new (functionCode :: UInt8.ofNat values.asPackedBytes.length :: values.asPackedBytes) := by
  simp only [encodeBitfieldResponse, unwrap_push, unwrap_extendFromSlice, emit_bind_emit]
  rfl

theorem encodeBitfieldResponse_eq (functionCode : UInt8) {values : BitValues} (h : values.ZeroPadding) :
    (encodeBitfieldResponse functionCode values : Outcome ε PduBytes) =
      emit PduBytes.new (Protocol.encodeBitfieldResponse functionCode values.bits) := by
  rw [encodeBitfieldResponse_emit, values.length_asPackedBytes, values.asPackedBytes_eq h,
    Protocol.encodeBitfieldResponse_eq, values.length_bits]

/-- Packed bytes read into an empty list give their bits, if there are not too many. -/
theorem extendFromPackedBytes_new {packed : Bytes} {bitCount : ℕ} (h : divCeil bitCount 8 ≤ packed.length) :
    ((BitValues.new.extendFromPackedBytes packed bitCount).mapErr fun _ => DecodeError.tooLargeForBuffer).map
        BitValues.bits =
      if maxBitCount < bitCount then .err .tooLargeForBuffer else .ok (unpackBits bitCount packed) := by
  by_cases hroom : maxBitCount < bitCount
  · rw [BitValues.extendFromPackedBytes_new_of_lt hroom, if_pos hroom]
    rfl
  · rw [← mapErr_map, BitValues.extendFromPackedBytes_new_of_le (by omega) h, if_neg hroom, mapErr_ok]

theorem decodeBitfieldResponse_eq (bytes : Bytes) (functionCode : UInt8) :
    (decodeBitfieldResponse bytes functionCode BitValues.new).map BitValues.bits =
      capped List.length maxBitCount (Protocol.decodeBitfieldResponse bytes functionCode) := by
  rcases checkHeader_cases bytes functionCode (show 0 < responseHeaderLen by decide)
    with ⟨rest, rfl, hlen⟩ | ⟨e, he⟩
  · match rest, hlen with
    | byteCount :: data, hlen =>
      rw [decodeBitfieldResponse, checkHeader_eq, checkHeader_cons functionCode hlen, mapErr_ok, ok_bind,
        byteCountByte, index_cons_succ, index_cons_zero, ok_bind, responseDataStart,
        decodeBitfieldResponse_cons, capped]
      simp only [List.length_cons, Nat.add_comm 2, Nat.add_assoc, Nat.reduceAdd, Nat.add_lt_add_iff_right]
      split
      · rfl
      · next hshort =>
        have htake : (data.take byteCount.toNat).length = byteCount.toNat := by simp; omega
        have hceil := divCeil_eight (byteCount.toNat * 8)
        rw [slice_of_le (by omega) (by simp; omega), Nat.add_sub_cancel, ok_bind]
        simp only [List.drop_succ_cons, List.drop_zero, mapErr_ok, ok_bind, length_unpackBits]
        rw [extendFromPackedBytes_new (by omega), Nat.mul_comm]
  · simp [decodeBitfieldResponse, checkHeader_eq, Protocol.decodeBitfieldResponse, capped, he]

structure ReadCoilsResponse where
  coilValues : BitValues
  deriving DecidableEq, Repr

structure ReadDiscreteInputsResponse where
  discreteInputValues : BitValues
  deriving DecidableEq, Repr

namespace ReadCoilsResponse

def encode (m : ReadCoilsResponse) : Outcome ε PduBytes :=
  encodeBitfieldResponse functionCodeReadCoils m.coilValues

def decode (bytes : Bytes) : Outcome DecodeError ReadCoilsResponse :=
  (decodeBitfieldResponse bytes functionCodeReadCoils BitValues.new).map ReadCoilsResponse.mk

/-- The message of the original codec with the same fields. -/
def toProtocol (m : ReadCoilsResponse) : Protocol.ReadCoilsResponse := ⟨m.coilValues.bits⟩

end ReadCoilsResponse

namespace ReadDiscreteInputsResponse

def encode (m : ReadDiscreteInputsResponse) : Outcome ε PduBytes :=
  encodeBitfieldResponse functionCodeReadDiscreteInputs m.discreteInputValues

def decode (bytes : Bytes) : Outcome DecodeError ReadDiscreteInputsResponse :=
  (decodeBitfieldResponse bytes functionCodeReadDiscreteInputs BitValues.new).map ReadDiscreteInputsResponse.mk

def toProtocol (m : ReadDiscreteInputsResponse) : Protocol.ReadDiscreteInputsResponse :=
  ⟨m.discreteInputValues.bits⟩

end ReadDiscreteInputsResponse

/-! ### Write Multiple Coils -/

structure WriteMultipleCoilsRequest where
  startingAddress : UInt16
  coilValues : BitValues
  deriving DecidableEq, Repr

namespace WriteMultipleCoilsRequest

def encode (m : WriteMultipleCoilsRequest) : Outcome ε PduBytes := do
  let byteCount := divCeil m.coilValues.len 8
  let buffer ← (PduBytes.new.push functionCodeWriteMultipleCoils).unwrap
  let buffer ← (buffer.extendFromSlice (u16ToBeBytes m.startingAddress)).unwrap
  let buffer ← (buffer.extendFromSlice (u16ToBeBytes (UInt16.ofNat m.coilValues.len))).unwrap
  let buffer ← (buffer.push (UInt8.ofNat byteCount)).unwrap
  (buffer.extendFromSlice m.coilValues.asPackedBytes).unwrap

def decode (bytes : Bytes) : Outcome DecodeError WriteMultipleCoilsRequest := do
  checkHeader bytes writeMultipleRequestHeaderLen functionCodeWriteMultipleCoils
  let startingAddress ← readU16Be bytes addressFieldByte
  let quantity ← readU16Be bytes quantityOrValueFieldByte
  let byteCount ← index bytes writeMultipleByteCountByte
  if byteCount.toNat ≠ divCeil quantity.toNat 8 then .err (.quantityByteCountMismatch quantity byteCount)
  else if bytes.length < writeMultipleValuesStart + byteCount.toNat then .err .tooShort
  else do
    let packed ← slice bytes writeMultipleValuesStart (writeMultipleValuesStart + byteCount.toNat)
    let coilValues ← (BitValues.new.extendFromPackedBytes packed quantity.toNat).mapErr fun _ => .tooLargeForBuffer
    pure ⟨startingAddress, coilValues⟩

def toProtocol (m : WriteMultipleCoilsRequest) : Protocol.WriteMultipleCoilsRequest :=
  ⟨m.startingAddress, m.coilValues.bits⟩

/-- The request takes the packed bytes and six more, whatever the padding. -/
theorem encode_emit (m : WriteMultipleCoilsRequest) :
    ∃ bytes : Bytes, bytes.length = 6 + divCeil m.coilValues.len 8 ∧
      (m.encode : Outcome ε PduBytes) = emit PduBytes.new bytes := by
  simp only [encode, unwrap_push, unwrap_extendFromSlice, emit_bind_emit]
  refine ⟨_, ?_, rfl⟩
  simp only [List.length_append, List.length_singleton, length_u16ToBeBytes, m.coilValues.length_asPackedBytes]
  omega

theorem encode_eq {m : WriteMultipleCoilsRequest} (h : m.coilValues.ZeroPadding) :
    (m.encode : Outcome ε PduBytes) = emit PduBytes.new m.toProtocol.encode := by
  simp only [encode, unwrap_push, unwrap_extendFromSlice, emit_bind_emit]
  rw [m.coilValues.asPackedBytes_eq h, Protocol.WriteMultipleCoilsRequest.encode_eq]
  simp only [toProtocol, m.coilValues.length_bits]
  rfl

theorem decode_eq (bytes : Bytes) :
    (decode bytes).map toProtocol =
      capped (fun m => m.coilValues.length) maxBitCount (Protocol.WriteMultipleCoilsRequest.decode bytes) := by
  rcases checkHeader_cases bytes functionCodeWriteMultipleCoils (show 0 < writeMultipleRequestHeaderLen by decide)
    with ⟨rest, rfl, hlen⟩ | ⟨e, he⟩
  · match rest, hlen with
    | a1 :: a0 :: q1 :: q0 :: byteCount :: data, hlen =>
      rw [decode, checkHeader_eq, checkHeader_cons _ hlen, mapErr_ok, ok_bind,
        Protocol.WriteMultipleCoilsRequest.decode_cons, capped]
      simp only [ok_bind, addressFieldByte, quantityOrValueFieldByte, writeMultipleByteCountByte,
        writeMultipleValuesStart, readU16Be_cons_succ, readU16Be_cons_zero, index_cons_succ, index_cons_zero,
        List.length_cons, Nat.add_comm 6, Nat.add_assoc, Nat.reduceAdd, Nat.add_lt_add_iff_right]
      split
      · rfl
      · next hcount =>
        split
        · rfl
        · next hshort =>
          have htake : (data.take byteCount.toNat).length = byteCount.toNat := by simp; omega
          have hbits := extendFromPackedBytes_new
            (show divCeil (u16FromBeBytes q1 q0).toNat 8 ≤ (data.take byteCount.toNat).length by omega)
          rw [slice_of_le (by omega) (by simp; omega), Nat.add_sub_cancel, ok_bind]
          simp only [List.drop_succ_cons, List.drop_zero, mapErr_ok, ok_bind, length_unpackBits]
          generalize (BitValues.new.extendFromPackedBytes _ _).mapErr _ = extended at hbits ⊢
          have hmap : (extended >>= fun coilValues => pure ⟨u16FromBeBytes a1 a0, coilValues⟩).map toProtocol =
              (extended.map BitValues.bits).map fun bits => ⟨u16FromBeBytes a1 a0, bits⟩ := by
            cases extended <;> rfl
          rw [hmap, hbits]
          split <;> rfl
  · simp [decode, checkHeader_eq, Protocol.WriteMultipleCoilsRequest.decode, capped, he]

/-- A PDU does not carry more coils than a bit list holds. -/
theorem length_of_decode {bytes : Bytes} {m : Protocol.WriteMultipleCoilsRequest} (hlen : bytes.length ≤ maxPduLen)
    (h : Protocol.WriteMultipleCoilsRequest.decode bytes = .ok m) : m.coilValues.length ≤ maxBitCount := by
  rcases checkHeader_cases bytes functionCodeWriteMultipleCoils (show 0 < writeMultipleRequestHeaderLen by decide)
    with ⟨rest, rfl, hrest⟩ | ⟨e, he⟩
  · match rest, hrest with
    | a1 :: a0 :: q1 :: q0 :: byteCount :: data, _ =>
      have hceil := divCeil_eight (u16FromBeBytes q1 q0).toNat
      simp only [List.length_cons, maxPduLen] at hlen
      rw [Protocol.WriteMultipleCoilsRequest.decode_cons] at h
      split at h
      · cases h
      · split at h
        · cases h
        · obtain rfl := Outcome.ok.inj h
          simp only [length_unpackBits, maxBitCount]
          omega
  · simp [Protocol.WriteMultipleCoilsRequest.decode, he] at h

end WriteMultipleCoilsRequest

end InfusedModbus.ProtocolCore
