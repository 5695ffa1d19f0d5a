import InfusedModbus.Protocol.Adu
import InfusedModbus.ProtocolCore.Pdu.Fields

/-! Application data units of the port. They are written to a buffer of fixed size that
every unit with a PDU in it fits, and read back with the PDU in a buffer of its own; the
longest frame that the original accepts over a serial line may not fit that one. -/

namespace InfusedModbus.ProtocolCore

open Foundation Foundation.Outcome Protocol

variable {ε : Type}

/-! ### The buffer -/

def maxAduLen : ℕ := mbapHeaderLen + maxPduLen

/-- The used part of a buffer of `maxAduLen` bytes. -/
structure AduBytes where
  asSlice : Bytes
  len_le : asSlice.length ≤ maxAduLen
  deriving DecidableEq, Repr

namespace AduBytes

def new : AduBytes := ⟨[], by simp⟩

def push (self : AduBytes) (byte : UInt8) : Outcome CapacityExceeded AduBytes :=
  if h : self.asSlice.length = maxAduLen then .err ⟨⟩
  else .ok ⟨self.asSlice ++ [byte], by have := self.len_le; rw [List.length_append, List.length_singleton]; omega⟩

def extendFromSlice (self : AduBytes) (bytes : Bytes) : Outcome CapacityExceeded AduBytes :=
  if h : maxAduLen < self.asSlice.length + bytes.length then .err ⟨⟩
  else .ok ⟨self.asSlice ++ bytes, by rw [List.length_append]; omega⟩

/-- A byte that fits is written. -/
theorem unwrap_push {self : AduBytes} {byte : UInt8} (h : self.asSlice.length + 1 ≤ maxAduLen) :
    ((self.push byte).unwrap : Outcome ε AduBytes) =
      .ok ⟨self.asSlice ++ [byte], by rw [List.length_append, List.length_singleton]; exact h⟩ := by
  rw [push, dif_neg (by omega), unwrap_ok]

/-- Bytes that fit are written. -/
theorem unwrap_extendFromSlice {self : AduBytes} {bytes : Bytes} (h : self.asSlice.length + bytes.length ≤ maxAduLen) :
    ((self.extendFromSlice bytes).unwrap : Outcome ε AduBytes) =
      .ok ⟨self.asSlice ++ bytes, by rw [List.length_append]; exact h⟩ := by
  rw [extendFromSlice, dif_neg (by omega), unwrap_ok]

end AduBytes

/-- Putting bytes in a new buffer never panics: they fit, or they are refused. -/
theorem extendFromSlice_ne_panic (self : PduBytes) (bytes : Bytes) : self.extendFromSlice bytes ≠ .panic := by
  unfold PduBytes.extendFromSlice
  split <;> simp

/-! ### TCP -/

structure TcpAdu where
  transactionId : UInt16
  unitId : UInt8
  pdu : PduBytes
  deriving DecidableEq, Repr

namespace TcpAdu

def encode (adu : TcpAdu) : Outcome ε AduBytes := do
  let buffer ← (AduBytes.new.extendFromSlice (u16ToBeBytes adu.transactionId)).unwrap
  let buffer ← (buffer.extendFromSlice (u16ToBeBytes mbapProtocolId)).unwrap
  let length := UInt16.ofNat (adu.pdu.len + 1)
  let buffer ← (buffer.extendFromSlice (u16ToBeBytes length)).unwrap
  let buffer ← (buffer.push adu.unitId).unwrap
  (buffer.extendFromSlice adu.pdu.asSlice).unwrap

def decode (bytes : Bytes) : Outcome DecodeError TcpAdu :=
  if bytes.length < mbapHeaderLen then .err .tooShort
  else do
    let protocolId ← readU16Be bytes mbapProtocolIdByte
    if protocolId ≠ mbapProtocolId then .err (.unexpectedProtocolId protocolId)
    else do
      let length ← readU16Be bytes mbapLengthByte
      if length = 0 ∨ mbapMaxLength < length then .err (.invalidAduLength length)
      else do
        let pduLen ← usizeSub length.toNat 1
        if bytes.length < mbapHeaderLen + pduLen then .err .tooShort
        else do
          let transactionId ← readU16Be bytes mbapTransactionIdByte
          let unitId ← index bytes mbapUnitIdByte
          let data ← slice bytes mbapHeaderLen (mbapHeaderLen + pduLen)
          let pdu ← (PduBytes.new.extendFromSlice data).unwrap
          pure ⟨transactionId, unitId, pdu⟩

/-- The unit of the original with the same fields. -/
def toProtocol (adu : TcpAdu) : Protocol.TcpAdu := ⟨adu.transactionId, adu.unitId, adu.pdu.asSlice⟩

theorem decode_ne_panic (bytes : Bytes) : decode bytes ≠ .panic := by
  have hheader : mbapHeaderLen = 7 := rfl
  unfold decode
  split
  · simp
  rw [mbapProtocolIdByte, readU16Be_of_le (by omega), ok_bind]
  split
  · simp
  rw [mbapLengthByte, readU16Be_of_le (by omega), ok_bind]
  split
  · simp
  next hlength =>
  rw [usizeSub_of_le (Protocol.TcpAdu.one_le_length hlength), ok_bind]
  split
  · simp
  have hmax : (u16FromBeBytes bytes[4] bytes[4 + 1]).toNat ≤ 254 := by
    have hnot := fun h => hlength (.inr h)
    simpa [UInt16.lt_iff_toNat_lt, mbapMaxLength] using hnot
  rw [mbapTransactionIdByte, readU16Be_of_le (by omega), ok_bind, mbapUnitIdByte, index_of_lt (by omega), ok_bind,
    slice_of_le (by omega) (by omega), ok_bind, PduBytes.extendFromSlice_of_le]
  · simp
  · rw [PduBytes.asSlice_new, List.length_nil, List.length_take, List.length_drop, maxPduLen]
    omega

/-- The port writes the bytes of the original. -/
theorem encode_eq (adu : TcpAdu) :
    ((encode adu : Outcome ε AduBytes).map AduBytes.asSlice) = .ok adu.toProtocol.encode := by
  have hle := adu.pdu.len_le
  have hmax : maxAduLen = maxPduLen + 7 := rfl
  have hpdu : maxPduLen = 253 := rfl
  rw [encode, AduBytes.unwrap_extendFromSlice (by simp [AduBytes.new]; omega), ok_bind,
    AduBytes.unwrap_extendFromSlice (by simp [AduBytes.new]; omega), ok_bind]
  dsimp only
  rw [AduBytes.unwrap_extendFromSlice (by simp [AduBytes.new]; omega), ok_bind,
    AduBytes.unwrap_push (by simp [AduBytes.new]; omega), ok_bind,
    AduBytes.unwrap_extendFromSlice (by simp [AduBytes.new]; omega), map_ok]
  rfl

/-- The port reads what the original reads; the PDU always fits its buffer. -/
theorem decode_eq (bytes : Bytes) :
    (decode bytes).map toProtocol = (Protocol.TcpAdu.decode bytes).mapErr .ofProtocol := by
  have hheader : mbapHeaderLen = 7 := rfl
  unfold decode Protocol.TcpAdu.decode
  by_cases hshort : bytes.length < mbapHeaderLen
  · rw [if_pos hshort, if_pos hshort]
    rfl
  rw [if_neg hshort, if_neg hshort]
  simp only [mbapProtocolIdByte, mbapLengthByte, mbapTransactionIdByte, mbapUnitIdByte,
    readU16Be_of_le (show 0 + 2 ≤ bytes.length by omega), readU16Be_of_le (show 2 + 2 ≤ bytes.length by omega),
    readU16Be_of_le (show 4 + 2 ≤ bytes.length by omega), index_of_lt (show 6 < bytes.length by omega), ok_bind]
  split
  · rfl
  split
  · rfl
  next hlength =>
  rw [usizeSub_of_le (Protocol.TcpAdu.one_le_length hlength), usizeSub_of_le (Protocol.TcpAdu.one_le_length hlength),
    ok_bind, ok_bind]
  split
  · rfl
  have hmax : (u16FromBeBytes bytes[4] bytes[4 + 1]).toNat ≤ 254 := by
    have hnot := fun h => hlength (.inr h)
    simpa [UInt16.lt_iff_toNat_lt, mbapMaxLength] using hnot
  rw [slice_of_le (by omega) (by omega), slice_of_le (by omega) (by omega), ok_bind, ok_bind,
    PduBytes.extendFromSlice_of_le]
  · rfl
  · rw [PduBytes.asSlice_new, List.length_nil, List.length_take, List.length_drop, maxPduLen]
    omega

end TcpAdu

/-! ### RTU -/

structure RtuAdu where
  unitId : UInt8
  pdu : PduBytes
  deriving DecidableEq, Repr

namespace RtuAdu

def encode (adu : RtuAdu) : Outcome ε AduBytes := do
  let buffer ← (AduBytes.new.push adu.unitId).unwrap
  let buffer ← (buffer.extendFromSlice adu.pdu.asSlice).unwrap
  let crc := crc16Modbus buffer.asSlice
  (buffer.extendFromSlice [loByte crc, hiByte crc]).unwrap

def decode (bytes : Bytes) : Outcome DecodeError RtuAdu :=
  if bytes.length < rtuMinFrameLen then .err .tooShort
  else
    let crcStart := bytes.length - rtuCrcLen
    do
      let unitIdAndPdu ← slice bytes 0 crcStart
      let expectedCrc := crc16Modbus unitIdAndPdu
      let lo ← index bytes crcStart
      let hi ← index bytes (crcStart + 1)
      let actualCrc := u16FromBeBytes hi lo
      if actualCrc ≠ expectedCrc then .err (.crcMismatch expectedCrc actualCrc)
      else do
        let unitId ← index bytes rtuUnitIdByte
        let data ← slice bytes 1 crcStart
        let pdu ← (PduBytes.new.extendFromSlice data).mapErr fun _ => .tooLargeForBuffer
        pure ⟨unitId, pdu⟩

/-- The unit of the original with the same fields. -/
def toProtocol (adu : RtuAdu) : Protocol.RtuAdu := ⟨adu.unitId, adu.pdu.asSlice⟩

theorem decode_ne_panic (bytes : Bytes) : decode bytes ≠ .panic := by
  have hmin : rtuMinFrameLen = 3 := rfl
  have hcrc : rtuCrcLen = 2 := rfl
  unfold decode
  split
  · simp
  dsimp only
  rw [slice_of_le (by omega) (by omega), ok_bind, index_of_lt (by omega), ok_bind, index_of_lt (by omega), ok_bind]
  split
  · simp
  rw [rtuUnitIdByte, index_of_lt (by omega), ok_bind, slice_of_le (by omega) (by omega), ok_bind]
  exact bind_ne_panic (mapErr_ne_panic.mpr (extendFromSlice_ne_panic _ _)) fun _ _ => by simp

/-- The port writes the bytes of the original. -/
theorem encode_eq (adu : RtuAdu) :
    ((encode adu : Outcome ε AduBytes).map AduBytes.asSlice) = .ok adu.toProtocol.encode := by
  have hle := adu.pdu.len_le
  have hmax : maxAduLen = maxPduLen + 7 := rfl
  rw [encode, AduBytes.unwrap_push (by simp [AduBytes.new]; omega), ok_bind,
    AduBytes.unwrap_extendFromSlice (by simp [AduBytes.new]; omega), ok_bind]
  dsimp only
  rw [AduBytes.unwrap_extendFromSlice (by simp [AduBytes.new]; omega), map_ok]
  rfl

/-- The port reads what the original reads, as long as the PDU fits its buffer. -/
theorem decode_eq (bytes : Bytes) :
    (decode bytes).map toProtocol =
      (Protocol.RtuAdu.decode bytes).mapErr .ofProtocol >>= fun adu =>
        if maxPduLen < adu.pdu.length then .err .tooLargeForBuffer else .ok adu := by
  have hmin : rtuMinFrameLen = 3 := rfl
  have hcrc : rtuCrcLen = 2 := rfl
  unfold decode Protocol.RtuAdu.decode
  by_cases hshort : bytes.length < rtuMinFrameLen
  · rw [if_pos hshort, if_pos hshort]
    rfl
  have hlen : (bytes.take (bytes.length - rtuCrcLen)).length = bytes.length - rtuCrcLen := by
    rw [List.length_take]
    omega
  have hdata : (bytes.take (bytes.length - rtuCrcLen)).drop 1 = (bytes.drop 1).take (bytes.length - rtuCrcLen - 1) :=
    List.drop_take
  rw [if_neg hshort, if_neg hshort]
  simp only [slice_of_le (Nat.zero_le _) (show bytes.length - rtuCrcLen ≤ bytes.length by omega), List.drop_zero,
    Nat.sub_zero, ok_bind, index_of_lt (show bytes.length - rtuCrcLen < bytes.length by omega),
    index_of_lt (show bytes.length - rtuCrcLen + 1 < bytes.length by omega), rtuUnitIdByte,
    index_of_lt (show 0 < bytes.length by omega)]
  split
  · rfl
  rw [hlen, slice_of_le (by omega) (by omega), slice_of_le (by omega) (by rw [hlen]), ok_bind, ok_bind, hdata,
    List.take_take, Nat.min_self]
  generalize (bytes.drop 1).take (bytes.length - rtuCrcLen - 1) = data
  by_cases hlarge : maxPduLen < data.length
  · rw [PduBytes.extendFromSlice_of_lt (by simpa using hlarge)]
    simp [hlarge]
  · rw [PduBytes.extendFromSlice_of_le (by simpa using Nat.le_of_not_lt hlarge)]
    simp [hlarge, toProtocol]

end RtuAdu

end InfusedModbus.ProtocolCore
