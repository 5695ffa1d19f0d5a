import InfusedModbus.Protocol.Pdu.Device
import InfusedModbus.Protocol.Pdu.Fields
import InfusedModbus.ProtocolCore.PduBytes

/-! The PDUs of the port that carry no list: the fixed fields, the two small
requests about the device, and the exception. Their types have plain fields and are
those of the original codec; the codecs differ in writing to a buffer of fixed size
and in the one error the port adds. Each is shown beside its definition to be the
original one. -/

namespace InfusedModbus.ProtocolCore

open Foundation Foundation.Outcome Protocol

/-! ### Errors -/

inductive DecodeError where
  | tooShort
  | unexpectedFunctionCode (expected actual : UInt8)
  | oddByteCount (byteCount : UInt8)
  | notAnExceptionResponse (functionCode : UInt8)
  | invalidCoilValue (actual : UInt16)
  | quantityByteCountMismatch (quantity : UInt16) (byteCount : UInt8)
  | unexpectedMeiType (expected actual : UInt8)
  | unexpectedProtocolId (actual : UInt16)
  | invalidAduLength (length : UInt16)
  | crcMismatch (expected actual : UInt16)
  | invalidFileRecordByteCount (byteCount : UInt8)
  | invalidFileRecordReferenceType (actual : UInt8)
  | invalidFileRecordSubResponseLength (length : UInt8)
  | tooLargeForBuffer
  deriving DecidableEq, Repr

inductive EncodeError where
  | tooManyRegisters (count max : ℕ)
  | oddFileRecordDataLength (fileNumber recordNumber : UInt16) (length : ℕ)
  | tooLargeForBuffer
  deriving DecidableEq, Repr

/-- The error of the same name. -/
def DecodeError.ofProtocol : Protocol.DecodeError → DecodeError
  | .tooShort => .tooShort
  | .unexpectedFunctionCode expected actual => .unexpectedFunctionCode expected actual
  | .oddByteCount byteCount => .oddByteCount byteCount
  | .notAnExceptionResponse functionCode => .notAnExceptionResponse functionCode
  | .invalidCoilValue actual => .invalidCoilValue actual
  | .quantityByteCountMismatch quantity byteCount => .quantityByteCountMismatch quantity byteCount
  | .unexpectedMeiType expected actual => .unexpectedMeiType expected actual
  | .unexpectedProtocolId actual => .unexpectedProtocolId actual
  | .invalidAduLength length => .invalidAduLength length
  | .crcMismatch expected actual => .crcMismatch expected actual
  | .invalidFileRecordByteCount byteCount => .invalidFileRecordByteCount byteCount
  | .invalidFileRecordReferenceType actual => .invalidFileRecordReferenceType actual
  | .invalidFileRecordSubResponseLength length => .invalidFileRecordSubResponseLength length

def EncodeError.ofProtocol : Protocol.EncodeError → EncodeError
  | .tooManyRegisters count max => .tooManyRegisters count max
  | .oddFileRecordDataLength fileNumber recordNumber length => .oddFileRecordDataLength fileNumber recordNumber length

variable {ε α : Type}

/-- What the original codec decodes, refused when it is larger than a container of the port. -/
def capped (size : α → ℕ) (capacity : ℕ) (decoded : Outcome Protocol.DecodeError α) : Outcome DecodeError α :=
  decoded.mapErr .ofProtocol >>= fun a => if capacity < size a then .err .tooLargeForBuffer else .ok a

section Capped

variable {β : Type} (size : α → ℕ) (capacity : ℕ)

theorem capped_ok (a : α) :
    capped size capacity (.ok a) = if capacity < size a then .err .tooLargeForBuffer else .ok a := rfl

theorem capped_err (e : Protocol.DecodeError) : capped size capacity (.err e) = .err (.ofProtocol e) := rfl

theorem capped_bind (x : Outcome Protocol.DecodeError β) (f : β → Outcome Protocol.DecodeError α) :
    capped size capacity (x >>= f) = x.mapErr .ofProtocol >>= fun b => capped size capacity (f b) := by
  cases x <;> rfl

theorem capped_ite {p : Prop} [Decidable p] (x y : Outcome Protocol.DecodeError α) :
    capped size capacity (if p then x else y) = if p then capped size capacity x else capped size capacity y := by
  split <;> rfl

variable {size capacity}

theorem capped_of_le {x : Outcome Protocol.DecodeError α} (h : ∀ a, x = .ok a → size a ≤ capacity) :
    capped size capacity x = x.mapErr .ofProtocol := by
  cases x with
  | ok a => rw [capped_ok, if_neg (by have := h a rfl; omega), mapErr_ok]
  | err e => rfl
  | panic => rfl

theorem capped_of_lt {a : α} (h : capacity < size a) : capped size capacity (.ok a) = .err .tooLargeForBuffer := by
  rw [capped_ok, if_pos h]

end Capped

/-- What the original codec encodes, refused when it is larger than a PDU. -/
def guarded (bytes : Bytes) : Outcome EncodeError PduBytes :=
  if maxPduLen < bytes.length then .err .tooLargeForBuffer else emit PduBytes.new bytes

/-! ### The common checks -/

def checkHeader (bytes : Bytes) (minLen : ℕ) (functionCode : UInt8) : Outcome DecodeError Unit :=
  if bytes.length < minLen then .err .tooShort
  else do
    let actual ← index bytes functionCodeByte
    if actual ≠ functionCode then .err (.unexpectedFunctionCode functionCode actual) else pure ()

theorem checkHeader_eq (bytes : Bytes) (minLen : ℕ) (functionCode : UInt8) :
    checkHeader bytes minLen functionCode = (Protocol.checkHeader bytes minLen functionCode).mapErr .ofProtocol := by
  simp only [checkHeader, Protocol.checkHeader, mapErr_ite, mapErr_bind, mapErr_index, mapErr_err,
    DecodeError.ofProtocol, pure_eq, mapErr_ok]

/-! ### Two fields -/

def encodeAddressAndQuantity (functionCode : UInt8) (startingAddress quantity : UInt16) : Outcome ε PduBytes := do
  let buffer ← (PduBytes.new.push functionCode).unwrap
  let buffer ← (buffer.extendFromSlice (u16ToBeBytes startingAddress)).unwrap
  (buffer.extendFromSlice (u16ToBeBytes quantity)).unwrap

def decodeAddressAndQuantity (bytes : Bytes) (functionCode : UInt8) :
    Outcome DecodeError AddressAndQuantity := do
  checkHeader bytes twoFieldPduLen functionCode
  let startingAddress ← readU16Be bytes addressFieldByte
  let quantity ← readU16Be bytes quantityOrValueFieldByte
  pure ⟨startingAddress, quantity⟩

theorem encodeAddressAndQuantity_eq (functionCode : UInt8) (startingAddress quantity : UInt16) :
    (encodeAddressAndQuantity functionCode startingAddress quantity : Outcome ε PduBytes) =
      emit PduBytes.new (Protocol.encodeAddressAndQuantity functionCode startingAddress quantity) := by
  simp only [encodeAddressAndQuantity, unwrap_push, unwrap_extendFromSlice, emit_bind_emit]
  rfl

theorem decodeAddressAndQuantity_eq (bytes : Bytes) (functionCode : UInt8) :
    decodeAddressAndQuantity bytes functionCode =
      (Protocol.decodeAddressAndQuantity bytes functionCode).mapErr .ofProtocol := by
  simp only [decodeAddressAndQuantity, Protocol.decodeAddressAndQuantity, checkHeader_eq, mapErr_bind,
    mapErr_readU16Be, pure_eq, mapErr_ok]

def ReadCoilsRequest.encode (m : ReadCoilsRequest) : Outcome ε PduBytes :=
  encodeAddressAndQuantity functionCodeReadCoils m.startingAddress m.quantity

def ReadCoilsRequest.decode (bytes : Bytes) : Outcome DecodeError ReadCoilsRequest :=
  (decodeAddressAndQuantity bytes functionCodeReadCoils).map fun f => ⟨f.startingAddress, f.quantity⟩

def ReadDiscreteInputsRequest.encode (m : ReadDiscreteInputsRequest) : Outcome ε PduBytes :=
  encodeAddressAndQuantity functionCodeReadDiscreteInputs m.startingAddress m.quantity

def ReadDiscreteInputsRequest.decode (bytes : Bytes) : Outcome DecodeError ReadDiscreteInputsRequest :=
  (decodeAddressAndQuantity bytes functionCodeReadDiscreteInputs).map fun f => ⟨f.startingAddress, f.quantity⟩

def ReadHoldingRegistersRequest.encode (m : ReadHoldingRegistersRequest) : Outcome ε PduBytes :=
  encodeAddressAndQuantity functionCodeReadHoldingRegisters m.startingAddress m.quantity

def ReadHoldingRegistersRequest.decode (bytes : Bytes) : Outcome DecodeError ReadHoldingRegistersRequest :=
  (decodeAddressAndQuantity bytes functionCodeReadHoldingRegisters).map fun f => ⟨f.startingAddress, f.quantity⟩

def ReadInputRegistersRequest.encode (m : ReadInputRegistersRequest) : Outcome ε PduBytes :=
  encodeAddressAndQuantity functionCodeReadInputRegisters m.startingAddress m.quantity

def ReadInputRegistersRequest.decode (bytes : Bytes) : Outcome DecodeError ReadInputRegistersRequest :=
  (decodeAddressAndQuantity bytes functionCodeReadInputRegisters).map fun f => ⟨f.startingAddress, f.quantity⟩

def WriteSingleRegisterRequest.encode (m : WriteSingleRegisterRequest) : Outcome ε PduBytes :=
  encodeAddressAndQuantity functionCodeWriteSingleRegister m.registerAddress m.registerValue

def WriteSingleRegisterRequest.decode (bytes : Bytes) : Outcome DecodeError WriteSingleRegisterRequest :=
  (decodeAddressAndQuantity bytes functionCodeWriteSingleRegister).map fun f => ⟨f.startingAddress, f.quantity⟩

def WriteSingleRegisterResponse.encode (m : WriteSingleRegisterResponse) : Outcome ε PduBytes :=
  encodeAddressAndQuantity functionCodeWriteSingleRegister m.registerAddress m.registerValue

def WriteSingleRegisterResponse.decode (bytes : Bytes) : Outcome DecodeError WriteSingleRegisterResponse :=
  (decodeAddressAndQuantity bytes functionCodeWriteSingleRegister).map fun f => ⟨f.startingAddress, f.quantity⟩

def WriteMultipleCoilsResponse.encode (m : WriteMultipleCoilsResponse) : Outcome ε PduBytes :=
  encodeAddressAndQuantity functionCodeWriteMultipleCoils m.startingAddress m.quantity

def WriteMultipleCoilsResponse.decode (bytes : Bytes) : Outcome DecodeError WriteMultipleCoilsResponse :=
  (decodeAddressAndQuantity bytes functionCodeWriteMultipleCoils).map fun f => ⟨f.startingAddress, f.quantity⟩

def WriteMultipleRegistersResponse.encode (m : WriteMultipleRegistersResponse) : Outcome ε PduBytes :=
  encodeAddressAndQuantity functionCodeWriteMultipleRegisters m.startingAddress m.quantity

def WriteMultipleRegistersResponse.decode (bytes : Bytes) :
    Outcome DecodeError WriteMultipleRegistersResponse :=
  (decodeAddressAndQuantity bytes functionCodeWriteMultipleRegisters).map fun f =>
    ⟨f.startingAddress, f.quantity⟩

/-! ### Write Single Coil -/

def encodeWriteSingleCoil (coilAddress : UInt16) (coilValue : Bool) : Outcome ε PduBytes :=
  encodeAddressAndQuantity functionCodeWriteSingleCoil coilAddress
    (if coilValue then coilValueOn else coilValueOff)

def decodeWriteSingleCoil (bytes : Bytes) : Outcome DecodeError (UInt16 × Bool) := do
  let f ← decodeAddressAndQuantity bytes functionCodeWriteSingleCoil
  if f.quantity = coilValueOn then pure (f.startingAddress, true)
  else if f.quantity = coilValueOff then pure (f.startingAddress, false)
  else .err (.invalidCoilValue f.quantity)

theorem decodeWriteSingleCoil_eq (bytes : Bytes) :
    decodeWriteSingleCoil bytes = (Protocol.decodeWriteSingleCoil bytes).mapErr .ofProtocol := by
  simp only [decodeWriteSingleCoil, Protocol.decodeWriteSingleCoil, decodeAddressAndQuantity_eq, mapErr_bind,
    mapErr_ite, pure_eq, mapErr_ok, mapErr_err, DecodeError.ofProtocol]

def WriteSingleCoilRequest.encode (m : WriteSingleCoilRequest) : Outcome ε PduBytes :=
  encodeWriteSingleCoil m.coilAddress m.coilValue

def WriteSingleCoilRequest.decode (bytes : Bytes) : Outcome DecodeError WriteSingleCoilRequest :=
  (decodeWriteSingleCoil bytes).map fun p => ⟨p.1, p.2⟩

def WriteSingleCoilResponse.encode (m : WriteSingleCoilResponse) : Outcome ε PduBytes :=
  encodeWriteSingleCoil m.coilAddress m.coilValue

def WriteSingleCoilResponse.decode (bytes : Bytes) : Outcome DecodeError WriteSingleCoilResponse :=
  (decodeWriteSingleCoil bytes).map fun p => ⟨p.1, p.2⟩

/-! ### Mask Write Register -/

def encodeMaskWriteRegister (referenceAddress andMask orMask : UInt16) : Outcome ε PduBytes := do
  let buffer ← (PduBytes.new.push functionCodeMaskWriteRegister).unwrap
  let buffer ← (buffer.extendFromSlice (u16ToBeBytes referenceAddress)).unwrap
  let buffer ← (buffer.extendFromSlice (u16ToBeBytes andMask)).unwrap
  (buffer.extendFromSlice (u16ToBeBytes orMask)).unwrap

def decodeMaskWriteRegister (bytes : Bytes) : Outcome DecodeError (UInt16 × UInt16 × UInt16) := do
  checkHeader bytes maskWriteRegisterPduLen functionCodeMaskWriteRegister
  let referenceAddress ← readU16Be bytes addressFieldByte
  let andMask ← readU16Be bytes quantityOrValueFieldByte
  let orMask ← readU16Be bytes orMaskFieldByte
  pure (referenceAddress, andMask, orMask)

theorem encodeMaskWriteRegister_eq (referenceAddress andMask orMask : UInt16) :
    (encodeMaskWriteRegister referenceAddress andMask orMask : Outcome ε PduBytes) =
      emit PduBytes.new (Protocol.encodeMaskWriteRegister referenceAddress andMask orMask) := by
  simp only [encodeMaskWriteRegister, unwrap_push, unwrap_extendFromSlice, emit_bind_emit]
  rfl

theorem decodeMaskWriteRegister_eq (bytes : Bytes) :
    decodeMaskWriteRegister bytes = (Protocol.decodeMaskWriteRegister bytes).mapErr .ofProtocol := by
  simp only [decodeMaskWriteRegister, Protocol.decodeMaskWriteRegister, checkHeader_eq, mapErr_bind,
    mapErr_readU16Be, pure_eq, mapErr_ok]

def MaskWriteRegisterRequest.encode (m : MaskWriteRegisterRequest) : Outcome ε PduBytes :=
  encodeMaskWriteRegister m.referenceAddress m.andMask m.orMask

def MaskWriteRegisterRequest.decode (bytes : Bytes) : Outcome DecodeError MaskWriteRegisterRequest :=
  (decodeMaskWriteRegister bytes).map fun p => ⟨p.1, p.2.1, p.2.2⟩

def MaskWriteRegisterResponse.encode (m : MaskWriteRegisterResponse) : Outcome ε PduBytes :=
  encodeMaskWriteRegister m.referenceAddress m.andMask m.orMask

def MaskWriteRegisterResponse.decode (bytes : Bytes) : Outcome DecodeError MaskWriteRegisterResponse :=
  (decodeMaskWriteRegister bytes).map fun p => ⟨p.1, p.2.1, p.2.2⟩

/-! ### Requests about the device -/

def ReportServerIdRequest.encode (_ : ReportServerIdRequest) : Outcome ε PduBytes :=
  (PduBytes.new.push functionCodeReportServerId).unwrap

def ReportServerIdRequest.decode (bytes : Bytes) : Outcome DecodeError ReportServerIdRequest :=
  match bytes.head? with
  | none => .err .tooShort
  | some functionCode =>
    if functionCode ≠ functionCodeReportServerId then
      .err (.unexpectedFunctionCode functionCodeReportServerId functionCode)
    else .ok ⟨⟩

theorem ReportServerIdRequest.decode_eq (bytes : Bytes) :
    decode bytes = (Protocol.ReportServerIdRequest.decode bytes).mapErr .ofProtocol := by
  rw [decode, Protocol.ReportServerIdRequest.decode]
  cases bytes.head? with
  | none => rfl
  | some functionCode => simp only [mapErr_ite, mapErr_err, mapErr_ok, DecodeError.ofProtocol]

namespace ReadDeviceIdentificationRequest

def encode (m : ReadDeviceIdentificationRequest) : Outcome ε PduBytes :=
  (PduBytes.new.extendFromSlice [functionCodeEncapsulatedInterfaceTransport, meiTypeReadDeviceIdentification,
    m.readDeviceIdCode, m.objectId]).unwrap

def decode (bytes : Bytes) : Outcome DecodeError ReadDeviceIdentificationRequest := do
  checkHeader bytes readDeviceIdentificationRequestLen functionCodeEncapsulatedInterfaceTransport
  let meiType ← index bytes meiTypeByte
  if meiType ≠ meiTypeReadDeviceIdentification then
    .err (.unexpectedMeiType meiTypeReadDeviceIdentification meiType)
  else do
    let readDeviceIdCode ← index bytes readDeviceIdCodeByte
    let objectId ← index bytes requestObjectIdByte
    pure ⟨readDeviceIdCode, objectId⟩

theorem decode_eq (bytes : Bytes) :
    decode bytes = (Protocol.ReadDeviceIdentificationRequest.decode bytes).mapErr .ofProtocol := by
  simp only [decode, Protocol.ReadDeviceIdentificationRequest.decode, checkHeader_eq, mapErr_bind, mapErr_ite,
    mapErr_index, pure_eq, mapErr_ok, mapErr_err, DecodeError.ofProtocol]

end ReadDeviceIdentificationRequest

/-! ### Exceptions -/

namespace ExceptionResponse

def encode (m : ExceptionResponse) : Outcome ε PduBytes :=
  (PduBytes.new.extendFromSlice [m.functionCode ||| exceptionResponseFunctionCodeBit, m.exceptionCode]).unwrap

def decode (bytes : Bytes) : Outcome DecodeError ExceptionResponse :=
  if bytes.length < exceptionResponseLen then .err .tooShort
  else do
    let rawFunctionCode ← index bytes functionCodeByte
    if rawFunctionCode &&& exceptionResponseFunctionCodeBit = 0 then
      .err (.notAnExceptionResponse rawFunctionCode)
    else do
      let exceptionCode ← index bytes exceptionCodeByte
      pure ⟨rawFunctionCode &&& ~~~exceptionResponseFunctionCodeBit, exceptionCode⟩

theorem decode_eq (bytes : Bytes) :
    decode bytes = (Protocol.ExceptionResponse.decode bytes).mapErr .ofProtocol := by
  simp only [decode, Protocol.ExceptionResponse.decode, mapErr_bind, mapErr_ite, mapErr_index, pure_eq,
    mapErr_ok, mapErr_err, DecodeError.ofProtocol]

end ExceptionResponse

end InfusedModbus.ProtocolCore
