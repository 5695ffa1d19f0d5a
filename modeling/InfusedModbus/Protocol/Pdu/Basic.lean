import InfusedModbus.Foundation.BigEndian
import InfusedModbus.Foundation.Outcome

/-! The constants every PDU codec shares: function codes, exception codes, fixed
field offsets and header lengths, the errors of decoding and encoding, and the two
checks each decoder starts with. A PDU is the byte string that begins with the
function code. -/

namespace InfusedModbus.Protocol

open Foundation Foundation.Outcome

/-! ### Function codes -/

def functionCodeReadCoils : UInt8 := 0x01
def functionCodeReadDiscreteInputs : UInt8 := 0x02
def functionCodeReadHoldingRegisters : UInt8 := 0x03
def functionCodeReadInputRegisters : UInt8 := 0x04
def functionCodeWriteSingleCoil : UInt8 := 0x05
def functionCodeWriteSingleRegister : UInt8 := 0x06
def functionCodeWriteMultipleCoils : UInt8 := 0x0F
def functionCodeWriteMultipleRegisters : UInt8 := 0x10
def functionCodeReportServerId : UInt8 := 0x11
def functionCodeReadFileRecord : UInt8 := 0x14
def functionCodeWriteFileRecord : UInt8 := 0x15
def functionCodeMaskWriteRegister : UInt8 := 0x16
def functionCodeReadWriteMultipleRegisters : UInt8 := 0x17
def functionCodeEncapsulatedInterfaceTransport : UInt8 := 0x2B

/-- The only sub-protocol of function code 0x2B in use. -/
def meiTypeReadDeviceIdentification : UInt8 := 0x0E

def readDeviceIdBasic : UInt8 := 0x01
def readDeviceIdRegular : UInt8 := 0x02
def readDeviceIdExtended : UInt8 := 0x03
def readDeviceIdIndividual : UInt8 := 0x04

/-! ### Exception codes -/

def exceptionIllegalFunction : UInt8 := 0x01
def exceptionIllegalDataAddress : UInt8 := 0x02
def exceptionIllegalDataValue : UInt8 := 0x03
def exceptionServerDeviceFailure : UInt8 := 0x04

/-! ### Layout -/

def functionCodeByte : ℕ := 0
def addressFieldByte : ℕ := 1
def quantityOrValueFieldByte : ℕ := 3
def twoFieldPduLen : ℕ := 5
def orMaskFieldByte : ℕ := 5
def maskWriteRegisterPduLen : ℕ := 7
def reportServerIdByteCountByte : ℕ := 1
def reportServerIdDataStart : ℕ := 2
def reportServerIdResponseHeaderLen : ℕ := 2
def runIndicatorOn : UInt8 := 0xFF
def runIndicatorOff : UInt8 := 0x00
def readWriteWriteStartingAddressByte : ℕ := 5
def readWriteByteCountByte : ℕ := 9
def readWriteValuesStart : ℕ := 10
def readWriteRequestHeaderLen : ℕ := 10
def byteCountByte : ℕ := 1
def responseDataStart : ℕ := 2
def responseHeaderLen : ℕ := 2
def coilValueOn : UInt16 := 0xFF00
def coilValueOff : UInt16 := 0x0000
def fileRecordReferenceType : UInt8 := 6
def fileRecordSubRequestLen : ℕ := 7
def writeMultipleByteCountByte : ℕ := 5
def writeMultipleValuesStart : ℕ := 6
def writeMultipleRequestHeaderLen : ℕ := 6
def exceptionResponseFunctionCodeBit : UInt8 := 0x80
def exceptionCodeByte : ℕ := 1
def exceptionResponseLen : ℕ := 2
def meiTypeByte : ℕ := 1
def readDeviceIdCodeByte : ℕ := 2
def requestObjectIdByte : ℕ := 3
def readDeviceIdentificationRequestLen : ℕ := 4
def conformityLevelByte : ℕ := 3
def moreFollowsByte : ℕ := 4
def nextObjectIdByte : ℕ := 5
def numberOfObjectsByte : ℕ := 6
def responseObjectsStart : ℕ := 7
def readDeviceIdentificationResponseHeaderLen : ℕ := 7
def moreFollowsYes : UInt8 := 0xFF
def moreFollowsNo : UInt8 := 0x00

/-! ### Errors -/

inductive DecodeError where
  | tooShort
  | unexpectedFunctionCode (expected actual : UInt8)
  | oddByteCount (byteCount : UInt8)
  | notAnExceptionResponse (functionCode : UInt8)
  | invalidCoilValue (actual : UInt16)
  | quantityByteCountMismatch (quantity : UInt16) (byteCount : UInt8)
  | unexpectedMeiType (expected actual : UInt8)
  | unexpectedProtocolId (actual : UInt16)
  | invalidAduLength (length : UInt16)
  | crcMismatch (expected actual : UInt16)
  | invalidFileRecordByteCount (byteCount : UInt8)
  | invalidFileRecordReferenceType (actual : UInt8)
  | invalidFileRecordSubResponseLength (length : UInt8)
  deriving DecidableEq, Repr

inductive EncodeError where
  | tooManyRegisters (count max : ℕ)
  | oddFileRecordDataLength (fileNumber recordNumber : UInt16) (length : ℕ)
  deriving DecidableEq, Repr

/-! ### Shared steps of the decoders -/

variable {ε : Type}

/-- Two bytes at an offset, most significant first. -/
def readU16Be (bytes : Bytes) (offset : ℕ) : Outcome ε UInt16 := do
  let hi ← index bytes offset
  let lo ← index bytes (offset + 1)
  pure (u16FromBeBytes hi lo)

theorem readU16Be_of_le {bytes : Bytes} {offset : ℕ} (h : offset + 2 ≤ bytes.length) :
    (readU16Be bytes offset : Outcome ε UInt16) =
      .ok (u16FromBeBytes bytes[offset] bytes[offset + 1]) := by
  simp [readU16Be, index_of_lt (show offset < bytes.length by omega),
    index_of_lt (show offset + 1 < bytes.length by omega)]

@[simp] theorem readU16Be_cons_zero (hi lo : UInt8) (rest : Bytes) :
    (readU16Be (hi :: lo :: rest) 0 : Outcome ε UInt16) = .ok (u16FromBeBytes hi lo) := rfl

@[simp] theorem readU16Be_cons_succ (b : UInt8) (bytes : Bytes) (offset : ℕ) :
    (readU16Be (b :: bytes) (offset + 1) : Outcome ε UInt16) = readU16Be bytes offset := by
  simp [readU16Be]

@[simp] theorem mapErr_readU16Be {δ : Type} (bytes : Bytes) (offset : ℕ) (f : ε → δ) :
    (readU16Be bytes offset : Outcome ε UInt16).mapErr f = readU16Be bytes offset := by
  simp [readU16Be, mapErr_bind]

/-- Reading past an offset is reading what is left there. -/
theorem readU16Be_add (bytes : Bytes) (i j : ℕ) :
    (readU16Be bytes (i + j) : Outcome ε UInt16) = readU16Be (bytes.drop i) j := by
  rw [readU16Be, readU16Be, index_add, Nat.add_assoc, index_add]

/-- The two checks every decoder starts with: the length and the function code. -/
def checkHeader (bytes : Bytes) (minLen : ℕ) (functionCode : UInt8) : Outcome DecodeError Unit :=
  if bytes.length < minLen then .err .tooShort
  else do
    let actual ← index bytes functionCodeByte
    if actual ≠ functionCode then .err (.unexpectedFunctionCode functionCode actual) else pure ()

theorem checkHeader_cons {rest : Bytes} {minLen : ℕ} (functionCode : UInt8) (h : minLen ≤ rest.length + 1) :
    checkHeader (functionCode :: rest) minLen functionCode = .ok () := by
  simp [checkHeader, functionCodeByte, show ¬rest.length + 1 < minLen by omega]

/-- Passing the checks fixes the first byte and the length. -/
theorem checkHeader_eq_ok {bytes : Bytes} {minLen : ℕ} {functionCode : UInt8} {u : Unit} (hpos : 0 < minLen) :
    checkHeader bytes minLen functionCode = .ok u ↔
      ∃ rest, bytes = functionCode :: rest ∧ minLen ≤ rest.length + 1 := by
  constructor
  · intro h
    unfold checkHeader at h
    split at h
    · cases h
    · next hlen =>
      match bytes, hlen with
      | [], hlen => exact absurd hpos hlen
      | actual :: rest, hlen =>
        simp only [functionCodeByte, index_cons_zero, ok_bind] at h
        split at h
        · cases h
        · next hcode =>
          obtain rfl : actual = functionCode := by simpa using hcode
          exact ⟨rest, rfl, by simpa using hlen⟩
  · rintro ⟨rest, rfl, hlen⟩
    exact checkHeader_cons functionCode hlen

/-- A decoder either has its first byte and enough bytes after it, or fails at once. -/
theorem checkHeader_cases (bytes : Bytes) {minLen : ℕ} (functionCode : UInt8) (hpos : 0 < minLen) :
    (∃ rest, bytes = functionCode :: rest ∧ minLen ≤ rest.length + 1) ∨
      ∃ e, checkHeader bytes minLen functionCode = .err e := by
  cases h : checkHeader bytes minLen functionCode with
  | ok u => exact .inl ((checkHeader_eq_ok hpos).mp h)
  | err e => exact .inr ⟨e, rfl⟩
  | panic =>
    unfold checkHeader at h
    split at h
    · cases h
    · rw [functionCodeByte, index_of_lt (show 0 < bytes.length by omega), ok_bind] at h
      split at h <;> cases h

end InfusedModbus.Protocol
