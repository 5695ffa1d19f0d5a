import InfusedModbus.Protocol.Pdu.Registers
import InfusedModbus.ProtocolCore.Pdu.Fields

/-! The PDUs of the port that carry a list of registers. The shared list holds 125 of
them, as many as the largest response; the two write requests take fewer and refuse
to encode more. -/

namespace InfusedModbus.ProtocolCore

open Foundation Foundation.Outcome Protocol

variable {ε : Type}

/-- Registers read into an empty list, if there are not too many. -/
theorem extendFromIter_new (values : List UInt16) :
    ((RegisterValues.new.extendFromIter values).mapErr fun _ => DecodeError.tooLargeForBuffer).map
        RegisterValues.asSlice =
      if maxRegisterCount < values.length then .err .tooLargeForBuffer else .ok values := by
  by_cases hroom : maxRegisterCount < values.length
  · rw [RegisterValues.extendFromIter, dif_pos (by simpa using hroom), if_pos hroom]
    rfl
  · rw [RegisterValues.extendFromIter_new_of_le (by omega), if_neg hroom]
    rfl

/-- The same where a message is built around the registers. -/
theorem extendFromIter_new_bind {β : Type} (f : List UInt16 → β) (values : List UInt16) :
    (((RegisterValues.new.extendFromIter values).mapErr fun _ => DecodeError.tooLargeForBuffer) >>=
        fun registerValues => .ok (f registerValues.asSlice)) =
      if maxRegisterCount < values.length then .err .tooLargeForBuffer else .ok (f values) := by
  have hvalues := congrArg (Outcome.map f) (extendFromIter_new values)
  rw [map_ite, map_err, map_ok] at hvalues
  rw [← hvalues]
  cases RegisterValues.new.extendFromIter values <;> rfl

/-! ### Register responses -/

def encodeRegisterArrayResponse (functionCode : UInt8) (registerValues : List UInt16) : Outcome ε PduBytes := do
  let buffer ← (PduBytes.new.push functionCode).unwrap
  let buffer ← (buffer.push (UInt8.ofNat (registerValues.length * 2))).unwrap
  registerValues.foldlM (fun buffer value => (buffer.extendFromSlice (u16ToBeBytes value)).unwrap) buffer

/-- The registers are appended to `values`, which the callers leave empty. -/
def decodeRegisterArrayResponse (bytes : Bytes) (functionCode : UInt8) (values : RegisterValues) :
    Outcome DecodeError RegisterValues := do
  checkHeader bytes responseHeaderLen functionCode
  let byteCount ← index bytes byteCountByte
  if byteCount.toNat % 2 ≠ 0 then .err (.oddByteCount byteCount)
  else if bytes.length < responseDataStart + byteCount.toNat then .err .tooShort
  else do
    let chunk ← slice bytes responseDataStart (responseDataStart + byteCount.toNat)
    (values.extendFromIter (wordsOfBytes chunk)).mapErr fun _ => .tooLargeForBuffer

theorem encodeRegisterArrayResponse_eq (functionCode : UInt8) (registerValues : List UInt16) :
    (encodeRegisterArrayResponse functionCode registerValues : Outcome ε PduBytes) =
      emit PduBytes.new (Protocol.encodeRegisterArrayResponse functionCode registerValues) := by
  simp only [encodeRegisterArrayResponse, unwrap_push, unwrap_extendFromSlice, foldlM_emit, emit_bind_emit]
  rfl

theorem decodeRegisterArrayResponse_eq (bytes : Bytes) (functionCode : UInt8) :
    (decodeRegisterArrayResponse bytes functionCode RegisterValues.new).map RegisterValues.asSlice =
      capped List.length maxRegisterCount (Protocol.decodeRegisterArrayResponse bytes functionCode) := by
  simp only [decodeRegisterArrayResponse, Protocol.decodeRegisterArrayResponse, checkHeader_eq, capped_bind,
    capped_ite, capped_err, capped_ok, Outcome.map_bind, map_ite, map_err, mapErr_index, mapErr_slice, pure_eq,
    extendFromIter_new, DecodeError.ofProtocol]

structure ReadHoldingRegistersResponse where
  registerValues : RegisterValues
  deriving DecidableEq, Repr

structure ReadInputRegistersResponse where
  registerValues : RegisterValues
  deriving DecidableEq, Repr

structure ReadWriteMultipleRegistersResponse where
  registerValues : RegisterValues
  deriving DecidableEq, Repr

namespace ReadHoldingRegistersResponse

def encode (m : ReadHoldingRegistersResponse) : Outcome ε PduBytes :=
  encodeRegisterArrayResponse functionCodeReadHoldingRegisters m.registerValues.asSlice

def decode (bytes : Bytes) : Outcome DecodeError ReadHoldingRegistersResponse :=
  (decodeRegisterArrayResponse bytes functionCodeReadHoldingRegisters RegisterValues.new).map
    ReadHoldingRegistersResponse.mk

def toProtocol (m : ReadHoldingRegistersResponse) : Protocol.ReadHoldingRegistersResponse :=
  ⟨m.registerValues.asSlice⟩

end ReadHoldingRegistersResponse

namespace ReadInputRegistersResponse

def encode (m : ReadInputRegistersResponse) : Outcome ε PduBytes :=
  encodeRegisterArrayResponse functionCodeReadInputRegisters m.registerValues.asSlice

def decode (bytes : Bytes) : Outcome DecodeError ReadInputRegistersResponse :=
  (decodeRegisterArrayResponse bytes functionCodeReadInputRegisters RegisterValues.new).map
    ReadInputRegistersResponse.mk

def toProtocol (m : ReadInputRegistersResponse) : Protocol.ReadInputRegistersResponse :=
  ⟨m.registerValues.asSlice⟩

end ReadInputRegistersResponse

namespace ReadWriteMultipleRegistersResponse

def encode (m : ReadWriteMultipleRegistersResponse) : Outcome ε PduBytes :=
  encodeRegisterArrayResponse functionCodeReadWriteMultipleRegisters m.registerValues.asSlice

def decode (bytes : Bytes) : Outcome DecodeError ReadWriteMultipleRegistersResponse :=
  (decodeRegisterArrayResponse bytes functionCodeReadWriteMultipleRegisters RegisterValues.new).map
    ReadWriteMultipleRegistersResponse.mk

def toProtocol (m : ReadWriteMultipleRegistersResponse) : Protocol.ReadWriteMultipleRegistersResponse :=
  ⟨m.registerValues.asSlice⟩

end ReadWriteMultipleRegistersResponse

/-! ### Write Multiple Registers -/

structure WriteMultipleRegistersRequest where
  startingAddress : UInt16
  registerValues : RegisterValues
  deriving DecidableEq, Repr

namespace WriteMultipleRegistersRequest

def encode (m : WriteMultipleRegistersRequest) : Outcome EncodeError PduBytes :=
  if m.registerValues.len > maxWriteMultipleRegistersCount then
    .err (.tooManyRegisters m.registerValues.len maxWriteMultipleRegistersCount)
  else do
    let buffer ← (PduBytes.new.push functionCodeWriteMultipleRegisters).unwrap
    let buffer ← (buffer.extendFromSlice (u16ToBeBytes m.startingAddress)).unwrap
    let buffer ← (buffer.extendFromSlice (u16ToBeBytes (UInt16.ofNat m.registerValues.len))).unwrap
    let buffer ← (buffer.push (UInt8.ofNat (m.registerValues.len * 2))).unwrap
    m.registerValues.asSlice.foldlM
      (fun buffer value => (buffer.extendFromSlice (u16ToBeBytes value)).unwrap) buffer

def decode (bytes : Bytes) : Outcome DecodeError WriteMultipleRegistersRequest := do
  checkHeader bytes writeMultipleRequestHeaderLen functionCodeWriteMultipleRegisters
  let startingAddress ← readU16Be bytes addressFieldByte
  let byteCount ← index bytes writeMultipleByteCountByte
  if byteCount.toNat % 2 ≠ 0 then .err (.oddByteCount byteCount)
  else if bytes.length < writeMultipleValuesStart + byteCount.toNat then .err .tooShort
  else do
    let chunk ← slice bytes writeMultipleValuesStart (writeMultipleValuesStart + byteCount.toNat)
    let registerValues ← (RegisterValues.new.extendFromIter (wordsOfBytes chunk)).mapErr fun _ => .tooLargeForBuffer
    pure ⟨startingAddress, registerValues⟩

def toProtocol (m : WriteMultipleRegistersRequest) : Protocol.WriteMultipleRegistersRequest :=
  ⟨m.startingAddress, m.registerValues.asSlice⟩

theorem encode_eq (m : WriteMultipleRegistersRequest) :
    m.encode = m.toProtocol.encode.mapErr .ofProtocol >>= emit PduBytes.new := by
  rw [encode, Protocol.WriteMultipleRegistersRequest.encode]
  by_cases h : m.registerValues.len > maxWriteMultipleRegistersCount
  · rw [if_pos h, if_pos (show m.toProtocol.registerValues.length > _ from h)]
    rfl
  · rw [if_neg h, if_neg (show ¬m.toProtocol.registerValues.length > _ from h)]
    simp only [unwrap_push, unwrap_extendFromSlice, foldlM_emit, emit_bind_emit]
    rfl

theorem encode_ne_panic (m : Protocol.WriteMultipleRegistersRequest) : m.encode ≠ .panic := by
  unfold Protocol.WriteMultipleRegistersRequest.encode
  split <;> simp

/-- Within its limit the request fits a PDU. -/
theorem length_of_encode {m : Protocol.WriteMultipleRegistersRequest} {bytes : Bytes} (h : m.encode = .ok bytes) :
    bytes.length ≤ maxPduLen := by
  unfold Protocol.WriteMultipleRegistersRequest.encode at h
  split at h
  · cases h
  · next hcount =>
    obtain rfl := Outcome.ok.inj h
    simp only [maxWriteMultipleRegistersCount] at hcount
    simp only [List.length_cons, List.length_append, length_u16ToBeBytes, length_bytesOfWords, maxPduLen]
    omega

theorem decode_eq (bytes : Bytes) :
    (decode bytes).map toProtocol =
      capped (fun m => m.registerValues.length) maxRegisterCount
        (Protocol.WriteMultipleRegistersRequest.decode bytes) := by
  have hbuilt := fun startingAddress =>
    extendFromIter_new_bind (Protocol.WriteMultipleRegistersRequest.mk startingAddress)
  simp only [decode, Protocol.WriteMultipleRegistersRequest.decode, checkHeader_eq, capped_bind, capped_ite,
    capped_err, capped_ok, Outcome.map_bind, map_ite, map_err, map_ok, mapErr_index, mapErr_slice, mapErr_readU16Be,
    pure_eq, DecodeError.ofProtocol, toProtocol, hbuilt]

end WriteMultipleRegistersRequest

/-! ### Read/Write Multiple Registers -/

structure ReadWriteMultipleRegistersRequest where
  readStartingAddress : UInt16
  readQuantity : UInt16
  writeStartingAddress : UInt16
  writeValues : RegisterValues
  deriving DecidableEq, Repr

namespace ReadWriteMultipleRegistersRequest

def encode (m : ReadWriteMultipleRegistersRequest) : Outcome EncodeError PduBytes :=
  if m.writeValues.len > maxReadWriteMultipleRegistersWriteCount then
    .err (.tooManyRegisters m.writeValues.len maxReadWriteMultipleRegistersWriteCount)
  else do
    let buffer ← (PduBytes.new.push functionCodeReadWriteMultipleRegisters).unwrap
    let buffer ← (buffer.extendFromSlice (u16ToBeBytes m.readStartingAddress)).unwrap
    let buffer ← (buffer.extendFromSlice (u16ToBeBytes m.readQuantity)).unwrap
    let buffer ← (buffer.extendFromSlice (u16ToBeBytes m.writeStartingAddress)).unwrap
    let buffer ← (buffer.extendFromSlice (u16ToBeBytes (UInt16.ofNat m.writeValues.len))).unwrap
    let buffer ← (buffer.push (UInt8.ofNat (m.writeValues.len * 2))).unwrap
    m.writeValues.asSlice.foldlM
      (fun buffer value => (buffer.extendFromSlice (u16ToBeBytes value)).unwrap) buffer

def decode (bytes : Bytes) : Outcome DecodeError ReadWriteMultipleRegistersRequest := do
  checkHeader bytes readWriteRequestHeaderLen functionCodeReadWriteMultipleRegisters
  let readStartingAddress ← readU16Be bytes addressFieldByte
  let readQuantity ← readU16Be bytes quantityOrValueFieldByte
  let writeStartingAddress ← readU16Be bytes readWriteWriteStartingAddressByte
  let byteCount ← index bytes readWriteByteCountByte
  if byteCount.toNat % 2 ≠ 0 then .err (.oddByteCount byteCount)
  else if bytes.length < readWriteValuesStart + byteCount.toNat then .err .tooShort
  else do
    let chunk ← slice bytes readWriteValuesStart (readWriteValuesStart + byteCount.toNat)
    let writeValues ← (RegisterValues.new.extendFromIter (wordsOfBytes chunk)).mapErr fun _ => .tooLargeForBuffer
    pure ⟨readStartingAddress, readQuantity, writeStartingAddress, writeValues⟩

def toProtocol (m : ReadWriteMultipleRegistersRequest) : Protocol.ReadWriteMultipleRegistersRequest :=
  ⟨m.readStartingAddress, m.readQuantity, m.writeStartingAddress, m.writeValues.asSlice⟩

theorem encode_eq (m : ReadWriteMultipleRegistersRequest) :
    m.encode = m.toProtocol.encode.mapErr .ofProtocol >>= emit PduBytes.new := by
  rw [encode, Protocol.ReadWriteMultipleRegistersRequest.encode]
  by_cases h : m.writeValues.len > maxReadWriteMultipleRegistersWriteCount
  · rw [if_pos h, if_pos (show m.toProtocol.writeValues.length > _ from h)]
    rfl
  · rw [if_neg h, if_neg (show ¬m.toProtocol.writeValues.length > _ from h)]
    simp only [unwrap_push, unwrap_extendFromSlice, foldlM_emit, emit_bind_emit]
    rfl

theorem encode_ne_panic (m : Protocol.ReadWriteMultipleRegistersRequest) : m.encode ≠ .panic := by
  unfold Protocol.ReadWriteMultipleRegistersRequest.encode
  split <;> simp

/-- Within its limit the request fits a PDU. -/
theorem length_of_encode {m : Protocol.ReadWriteMultipleRegistersRequest} {bytes : Bytes} (h : m.encode = .ok bytes) :
    bytes.length ≤ maxPduLen := by
  unfold Protocol.ReadWriteMultipleRegistersRequest.encode at h
  split at h
  · cases h
  · next hcount =>
    obtain rfl := Outcome.ok.inj h
    simp only [maxReadWriteMultipleRegistersWriteCount] at hcount
    simp only [List.length_cons, List.length_append, length_u16ToBeBytes, length_bytesOfWords, maxPduLen]
    omega

theorem decode_eq (bytes : Bytes) :
    (decode bytes).map toProtocol =
      capped (fun m => m.writeValues.length) maxRegisterCount
        (Protocol.ReadWriteMultipleRegistersRequest.decode bytes) := by
  have hbuilt := fun readStartingAddress readQuantity writeStartingAddress => extendFromIter_new_bind
    (Protocol.ReadWriteMultipleRegistersRequest.mk readStartingAddress readQuantity writeStartingAddress)
  simp only [decode, Protocol.ReadWriteMultipleRegistersRequest.decode, checkHeader_eq, capped_bind, capped_ite,
    capped_err, capped_ok, Outcome.map_bind, map_ite, map_err, map_ok, mapErr_index, mapErr_slice, mapErr_readU16Be,
    pure_eq, DecodeError.ofProtocol, toProtocol, hbuilt]

end ReadWriteMultipleRegistersRequest

/-! ### Room -/

/-- A PDU does not carry more registers than a register list holds. -/
theorem length_of_decodeRegisterArrayResponse {bytes : Bytes} {functionCode : UInt8} {values : List UInt16}
    (hlen : bytes.length ≤ maxPduLen)
    (h : Protocol.decodeRegisterArrayResponse bytes functionCode = .ok values) : values.length ≤ maxRegisterCount := by
  rcases checkHeader_cases bytes functionCode (show 0 < responseHeaderLen by decide)
    with ⟨rest, rfl, hrest⟩ | ⟨e, he⟩
  · match rest, hrest with
    | byteCount :: data, _ =>
      simp only [List.length_cons, maxPduLen] at hlen
      rw [decodeRegisterArrayResponse_cons] at h
      split at h
      · cases h
      · split at h
        · cases h
        · obtain rfl := Outcome.ok.inj h
          rw [length_wordsOfBytes, List.length_take, maxRegisterCount]
          omega
  · simp [Protocol.decodeRegisterArrayResponse, he] at h

theorem WriteMultipleRegistersRequest.length_of_decode {bytes : Bytes} {m : Protocol.WriteMultipleRegistersRequest}
    (hlen : bytes.length ≤ maxPduLen) (h : Protocol.WriteMultipleRegistersRequest.decode bytes = .ok m) :
    m.registerValues.length ≤ maxRegisterCount := by
  rcases checkHeader_cases bytes functionCodeWriteMultipleRegisters (show 0 < writeMultipleRequestHeaderLen by decide)
    with ⟨rest, rfl, hrest⟩ | ⟨e, he⟩
  · match rest, hrest with
    | a1 :: a0 :: q1 :: q0 :: byteCount :: data, _ =>
      simp only [List.length_cons, maxPduLen] at hlen
      rw [Protocol.WriteMultipleRegistersRequest.decode_cons] at h
      split at h
      · cases h
      · split at h
        · cases h
        · obtain rfl := Outcome.ok.inj h
          rw [length_wordsOfBytes, List.length_take, maxRegisterCount]
          omega
  · simp [Protocol.WriteMultipleRegistersRequest.decode, he] at h

theorem ReadWriteMultipleRegistersRequest.length_of_decode {bytes : Bytes}
    {m : Protocol.ReadWriteMultipleRegistersRequest} (hlen : bytes.length ≤ maxPduLen)
    (h : Protocol.ReadWriteMultipleRegistersRequest.decode bytes = .ok m) :
    m.writeValues.length ≤ maxRegisterCount := by
  rcases checkHeader_cases bytes functionCodeReadWriteMultipleRegisters (show 0 < readWriteRequestHeaderLen by decide)
    with ⟨rest, rfl, hrest⟩ | ⟨e, he⟩
  · match rest, hrest with
    | r1 :: r0 :: n1 :: n0 :: w1 :: w0 :: q1 :: q0 :: byteCount :: data, _ =>
      simp only [List.length_cons, maxPduLen] at hlen
      rw [Protocol.ReadWriteMultipleRegistersRequest.decode_cons] at h
      split at h
      · cases h
      · split at h
        · cases h
        · obtain rfl := Outcome.ok.inj h
          rw [length_wordsOfBytes, List.length_take, maxRegisterCount]
          omega
  · simp [Protocol.ReadWriteMultipleRegistersRequest.decode, he] at h

end InfusedModbus.ProtocolCore
