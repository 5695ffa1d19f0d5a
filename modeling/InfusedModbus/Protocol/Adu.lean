import InfusedModbus.Foundation.Usize
import InfusedModbus.Protocol.Pdu.Basic

/-! Application data units. Over TCP a PDU travels behind an MBAP header with a
transaction id, a zero protocol id, a length that counts the unit id and the PDU, and
the unit id. Over a serial line it travels between a unit id and a CRC, low byte first. -/

namespace InfusedModbus.Protocol

open Foundation Foundation.Outcome

/-! ### TCP -/

def mbapProtocolId : UInt16 := 0x0000
def mbapTransactionIdByte : ℕ := 0
def mbapProtocolIdByte : ℕ := 2
def mbapLengthByte : ℕ := 4
def mbapUnitIdByte : ℕ := 6
def mbapHeaderLen : ℕ := 7
def mbapMaxLength : UInt16 := 254

structure TcpAdu where
  transactionId : UInt16
  unitId : UInt8
  pdu : Bytes
  deriving DecidableEq, Repr

namespace TcpAdu

def encode (adu : TcpAdu) : Bytes :=
  u16ToBeBytes adu.transactionId ++ u16ToBeBytes mbapProtocolId ++
    u16ToBeBytes (UInt16.ofNat (adu.pdu.length + 1)) ++ [adu.unitId] ++ adu.pdu

def decode (bytes : Bytes) : Outcome DecodeError TcpAdu :=
  if bytes.length < mbapHeaderLen then .err .tooShort
  else do
    let protocolId ← readU16Be bytes mbapProtocolIdByte
    if protocolId ≠ mbapProtocolId then .err (.unexpectedProtocolId protocolId)
    else do
      let length ← readU16Be bytes mbapLengthByte
      if length = 0 ∨ mbapMaxLength < length then .err (.invalidAduLength length)
      else do
        let pduLen ← usizeSub length.toNat 1
        if bytes.length < mbapHeaderLen + pduLen then .err .tooShort
        else do
          let transactionId ← readU16Be bytes mbapTransactionIdByte
          let unitId ← index bytes mbapUnitIdByte
          let pdu ← slice bytes mbapHeaderLen (mbapHeaderLen + pduLen)
          pure ⟨transactionId, unitId, pdu⟩

theorem encode_eq (adu : TcpAdu) :
    adu.encode = hiByte adu.transactionId :: loByte adu.transactionId :: 0 :: 0 ::
      hiByte (UInt16.ofNat (adu.pdu.length + 1)) :: loByte (UInt16.ofNat (adu.pdu.length + 1)) ::
      adu.unitId :: adu.pdu := rfl

@[simp] theorem length_encode (adu : TcpAdu) : adu.encode.length = mbapHeaderLen + adu.pdu.length := by
  simp only [encode_eq, List.length_cons, mbapHeaderLen]
  omega

theorem lengthField_toNat {adu : TcpAdu} (h : adu.pdu.length < 65535) :
    (UInt16.ofNat (adu.pdu.length + 1)).toNat = adu.pdu.length + 1 := by
  rw [UInt16.ofNat_toNat_mod]
  exact Nat.mod_eq_of_lt (by omega)

theorem one_le_length {length : UInt16} (h : ¬(length = 0 ∨ mbapMaxLength < length)) : 1 ≤ length.toNat := by
  have hne : length.toNat ≠ 0 := fun hzero => h (.inl (UInt16.toNat_inj.mp hzero))
  omega

/-- Whatever follows a frame, the frame is what is decoded. -/
theorem decode_encode_append {adu : TcpAdu} (h : adu.pdu.length ≤ 253) (rest : Bytes) :
    decode (adu.encode ++ rest) = .ok adu := by
  have hlength := @lengthField_toNat adu (by omega)
  have hfits : ¬(UInt16.ofNat (adu.pdu.length + 1) = 0 ∨ mbapMaxLength < UInt16.ofNat (adu.pdu.length + 1)) := by
    rintro (h0 | hmax)
    · rw [h0] at hlength
      cases hlength
    · have hlt := UInt16.lt_iff_toNat_lt.mp hmax
      rw [hlength] at hlt
      exact absurd h (by simp only [mbapMaxLength, UInt16.reduceToNat] at hlt; omega)
  rw [decode, if_neg (by simp [mbapHeaderLen]; omega)]
  simp only [encode_eq, List.cons_append, mbapProtocolIdByte, mbapLengthByte, mbapTransactionIdByte, mbapUnitIdByte,
    mbapHeaderLen, readU16Be_cons_succ, readU16Be_cons_zero, u16FromBeBytes_toBeBytes, ok_bind]
  rw [if_neg (by decide), if_neg hfits, hlength, usizeSub_of_le (by omega), ok_bind,
    if_neg (by simp only [List.length_cons, List.length_append]; omega), Nat.add_sub_cancel, slice_of_le (by omega) (by simp only [List.length_cons, List.length_append]; omega)]
  simp

theorem decode_encode {adu : TcpAdu} (h : adu.pdu.length ≤ 253) : decode adu.encode = .ok adu := by
  simpa using decode_encode_append h []

end TcpAdu

/-! ### RTU -/

def rtuUnitIdByte : ℕ := 0
def rtuCrcLen : ℕ := 2
def rtuMinFrameLen : ℕ := 1 + rtuCrcLen

structure RtuAdu where
  unitId : UInt8
  pdu : Bytes
  deriving DecidableEq, Repr

/-- One of the eight shifts a byte takes through the register. -/
def crcShift (crc : UInt16) : UInt16 :=
  if crc &&& 0x0001 ≠ 0 then (crc >>> 1) ^^^ 0xA001 else crc >>> 1

def crcByte (crc : UInt16) (byte : UInt8) : UInt16 := crcShift^[8] (crc ^^^ byte.toUInt16)

def crc16Modbus (data : Bytes) : UInt16 := data.foldl crcByte 0xFFFF

namespace RtuAdu

def encode (adu : RtuAdu) : Bytes :=
  let buffer := adu.unitId :: adu.pdu
  buffer ++ [loByte (crc16Modbus buffer), hiByte (crc16Modbus buffer)]

def decode (bytes : Bytes) : Outcome DecodeError RtuAdu :=
  if bytes.length < rtuMinFrameLen then .err .tooShort
  else
    let crcStart := bytes.length - rtuCrcLen
    do
      let unitIdAndPdu ← slice bytes 0 crcStart
      let expectedCrc := crc16Modbus unitIdAndPdu
      let lo ← index bytes crcStart
      let hi ← index bytes (crcStart + 1)
      let actualCrc := u16FromBeBytes hi lo
      if actualCrc ≠ expectedCrc then .err (.crcMismatch expectedCrc actualCrc)
      else do
        let unitId ← index bytes rtuUnitIdByte
        let pdu ← slice unitIdAndPdu 1 unitIdAndPdu.length
        pure ⟨unitId, pdu⟩

@[simp] theorem length_encode (adu : RtuAdu) : adu.encode.length = adu.pdu.length + 3 := by
  simp [encode]

/-- What is decoded is the frame without its unit id and its last two bytes. -/
theorem eq_of_decode_eq_ok {bytes : Bytes} {adu : RtuAdu} (h : decode bytes = .ok adu) :
    adu.unitId :: adu.pdu = bytes.take (bytes.length - rtuCrcLen) := by
  unfold decode at h
  split at h
  · cases h
  · next hlen =>
    have hlong : 3 ≤ bytes.length := by
      simp only [rtuMinFrameLen, rtuCrcLen] at hlen
      omega
    dsimp only at h
    obtain ⟨unitIdAndPdu, hslice, h⟩ := bind_eq_ok.mp h
    rw [slice_of_le (Nat.zero_le _) (Nat.sub_le _ _), List.drop_zero, Nat.sub_zero] at hslice
    obtain rfl := ok.inj hslice
    obtain ⟨lo, -, h⟩ := bind_eq_ok.mp h
    obtain ⟨hi, -, h⟩ := bind_eq_ok.mp h
    split at h
    · cases h
    · obtain ⟨unitId, rest, rfl⟩ := List.exists_cons_of_ne_nil (List.ne_nil_of_length_pos (by omega : 0 < bytes.length))
      have hcut : (unitId :: rest).length - rtuCrcLen = rest.length - 2 + 1 := by
        simp only [rtuCrcLen, List.length_cons] at hlong ⊢
        omega
      rw [hcut, List.take_succ_cons] at h ⊢
      rw [rtuUnitIdByte, index_cons_zero, ok_bind, slice_of_le (by simp) le_rfl, ok_bind] at h
      obtain rfl := ok.inj h
      simp

theorem decode_encode (adu : RtuAdu) : decode adu.encode = .ok adu := by
  have hcrc : adu.encode.length - rtuCrcLen = (adu.unitId :: adu.pdu).length := by
    simp [rtuCrcLen]
  have hlo : (index adu.encode (adu.unitId :: adu.pdu).length : Outcome DecodeError UInt8) =
      .ok (loByte (crc16Modbus (adu.unitId :: adu.pdu))) := by
    rw [encode]
    exact index_of_drop List.drop_left
  have hhi : (index adu.encode ((adu.unitId :: adu.pdu).length + 1) : Outcome DecodeError UInt8) =
      .ok (hiByte (crc16Modbus (adu.unitId :: adu.pdu))) := by
    rw [index_add, encode, List.drop_left]
    rfl
  rw [decode, if_neg (by simp [rtuMinFrameLen, rtuCrcLen])]
  dsimp only
  rw [hcrc, hlo, hhi, encode, slice_append _ _ rfl]
  simp only [ok_bind, u16FromBeBytes_toBeBytes, ne_eq, not_true_eq_false, if_false]
  rw [List.cons_append, rtuUnitIdByte, index_cons_zero, ok_bind, slice_of_le (by simp) le_rfl, ok_bind]
  simp

end RtuAdu

end InfusedModbus.Protocol
