import InfusedModbus.Protocol.Pdu.Basic

/-! The PDUs of fixed length: a function code and two or three 16-bit fields. The
read requests, the write-multiple responses and the single-register PDUs share one
codec; Write Single Coil maps its second field to and from a bool; Mask Write
Register has a third field. -/

namespace InfusedModbus.Protocol

open Foundation Foundation.Outcome

/-- The two fields of a fixed PDU. -/
structure AddressAndQuantity where
  startingAddress : UInt16
  quantity : UInt16
  deriving DecidableEq, Repr

def encodeAddressAndQuantity (functionCode : UInt8) (startingAddress quantity : UInt16) : Bytes :=
  functionCode :: (u16ToBeBytes startingAddress ++ u16ToBeBytes quantity)

def decodeAddressAndQuantity (bytes : Bytes) (functionCode : UInt8) :
    Outcome DecodeError AddressAndQuantity := do
  checkHeader bytes twoFieldPduLen functionCode
  let startingAddress ← readU16Be bytes addressFieldByte
  let quantity ← readU16Be bytes quantityOrValueFieldByte
  pure ⟨startingAddress, quantity⟩

@[simp] theorem length_encodeAddressAndQuantity (functionCode : UInt8) (startingAddress quantity : UInt16) :
    (encodeAddressAndQuantity functionCode startingAddress quantity).length = 5 := rfl

/-- The fields of any PDU that is long enough and has the right function code. -/
theorem decodeAddressAndQuantity_cons (functionCode a1 a0 q1 q0 : UInt8) (rest : Bytes) :
    decodeAddressAndQuantity (functionCode :: a1 :: a0 :: q1 :: q0 :: rest) functionCode =
      .ok ⟨u16FromBeBytes a1 a0, u16FromBeBytes q1 q0⟩ := by
  rw [decodeAddressAndQuantity, checkHeader_cons functionCode (by simp [twoFieldPduLen])]
  simp [addressFieldByte, quantityOrValueFieldByte]

@[simp] theorem decodeAddressAndQuantity_encode (functionCode : UInt8) (startingAddress quantity : UInt16) :
    decodeAddressAndQuantity (encodeAddressAndQuantity functionCode startingAddress quantity) functionCode =
      .ok ⟨startingAddress, quantity⟩ := by
  simp [encodeAddressAndQuantity, u16ToBeBytes, decodeAddressAndQuantity_cons]

theorem decodeAddressAndQuantity_ne_panic (bytes : Bytes) (functionCode : UInt8) :
    decodeAddressAndQuantity bytes functionCode ≠ .panic := by
  rcases checkHeader_cases bytes functionCode (show 0 < twoFieldPduLen by decide) with ⟨rest, rfl, hlen⟩ | ⟨e, he⟩
  · match rest, hlen with
    | a1 :: a0 :: q1 :: q0 :: rest, _ => simp [decodeAddressAndQuantity_cons]
  · simp [decodeAddressAndQuantity, he]

/-! ### Read requests -/

structure ReadCoilsRequest where
  startingAddress : UInt16
  quantity : UInt16
  deriving DecidableEq, Repr

structure ReadDiscreteInputsRequest where
  startingAddress : UInt16
  quantity : UInt16
  deriving DecidableEq, Repr

structure ReadHoldingRegistersRequest where
  startingAddress : UInt16
  quantity : UInt16
  deriving DecidableEq, Repr

structure ReadInputRegistersRequest where
  startingAddress : UInt16
  quantity : UInt16
  deriving DecidableEq, Repr

def ReadCoilsRequest.encode (m : ReadCoilsRequest) : Bytes :=
  encodeAddressAndQuantity functionCodeReadCoils m.startingAddress m.quantity

def ReadCoilsRequest.decode (bytes : Bytes) : Outcome DecodeError ReadCoilsRequest :=
  (decodeAddressAndQuantity bytes functionCodeReadCoils).map fun f => ⟨f.startingAddress, f.quantity⟩

def ReadDiscreteInputsRequest.encode (m : ReadDiscreteInputsRequest) : Bytes :=
  encodeAddressAndQuantity functionCodeReadDiscreteInputs m.startingAddress m.quantity

def ReadDiscreteInputsRequest.decode (bytes : Bytes) : Outcome DecodeError ReadDiscreteInputsRequest :=
  (decodeAddressAndQuantity bytes functionCodeReadDiscreteInputs).map fun f => ⟨f.startingAddress, f.quantity⟩

def ReadHoldingRegistersRequest.encode (m : ReadHoldingRegistersRequest) : Bytes :=
  encodeAddressAndQuantity functionCodeReadHoldingRegisters m.startingAddress m.quantity

def ReadHoldingRegistersRequest.decode (bytes : Bytes) : Outcome DecodeError ReadHoldingRegistersRequest :=
  (decodeAddressAndQuantity bytes functionCodeReadHoldingRegisters).map fun f => ⟨f.startingAddress, f.quantity⟩

def ReadInputRegistersRequest.encode (m : ReadInputRegistersRequest) : Bytes :=
  encodeAddressAndQuantity functionCodeReadInputRegisters m.startingAddress m.quantity

def ReadInputRegistersRequest.decode (bytes : Bytes) : Outcome DecodeError ReadInputRegistersRequest :=
  (decodeAddressAndQuantity bytes functionCodeReadInputRegisters).map fun f => ⟨f.startingAddress, f.quantity⟩

/-! ### Write Single Coil -/

structure WriteSingleCoilRequest where
  coilAddress : UInt16
  coilValue : Bool
  deriving DecidableEq, Repr

structure WriteSingleCoilResponse where
  coilAddress : UInt16
  coilValue : Bool
  deriving DecidableEq, Repr

def encodeWriteSingleCoil (coilAddress : UInt16) (coilValue : Bool) : Bytes :=
  encodeAddressAndQuantity functionCodeWriteSingleCoil coilAddress
    (if coilValue then coilValueOn else coilValueOff)

def decodeWriteSingleCoil (bytes : Bytes) : Outcome DecodeError (UInt16 × Bool) := do
  let f ← decodeAddressAndQuantity bytes functionCodeWriteSingleCoil
  if f.quantity = coilValueOn then pure (f.startingAddress, true)
  else if f.quantity = coilValueOff then pure (f.startingAddress, false)
  else .err (.invalidCoilValue f.quantity)

theorem decodeWriteSingleCoil_cons (a1 a0 v1 v0 : UInt8) (rest : Bytes) :
    decodeWriteSingleCoil (functionCodeWriteSingleCoil :: a1 :: a0 :: v1 :: v0 :: rest) =
      if u16FromBeBytes v1 v0 = coilValueOn then .ok (u16FromBeBytes a1 a0, true)
      else if u16FromBeBytes v1 v0 = coilValueOff then .ok (u16FromBeBytes a1 a0, false)
      else .err (.invalidCoilValue (u16FromBeBytes v1 v0)) := by
  rw [decodeWriteSingleCoil, decodeAddressAndQuantity_cons]
  rfl

theorem decodeWriteSingleCoil_encode (coilAddress : UInt16) (coilValue : Bool) :
    decodeWriteSingleCoil (encodeWriteSingleCoil coilAddress coilValue) = .ok (coilAddress, coilValue) := by
  cases coilValue <;> simp [decodeWriteSingleCoil, encodeWriteSingleCoil, coilValueOn, coilValueOff]

theorem decodeWriteSingleCoil_ne_panic (bytes : Bytes) : decodeWriteSingleCoil bytes ≠ .panic := by
  refine bind_ne_panic (decodeAddressAndQuantity_ne_panic _ _) fun f _ => ?_
  split
  · simp
  · split <;> simp

def WriteSingleCoilRequest.encode (m : WriteSingleCoilRequest) : Bytes :=
  encodeWriteSingleCoil m.coilAddress m.coilValue

def WriteSingleCoilRequest.decode (bytes : Bytes) : Outcome DecodeError WriteSingleCoilRequest :=
  (decodeWriteSingleCoil bytes).map fun p => ⟨p.1, p.2⟩

def WriteSingleCoilResponse.encode (m : WriteSingleCoilResponse) : Bytes :=
  encodeWriteSingleCoil m.coilAddress m.coilValue

def WriteSingleCoilResponse.decode (bytes : Bytes) : Outcome DecodeError WriteSingleCoilResponse :=
  (decodeWriteSingleCoil bytes).map fun p => ⟨p.1, p.2⟩

/-! ### Write Single Register -/

structure WriteSingleRegisterRequest where
  registerAddress : UInt16
  registerValue : UInt16
  deriving DecidableEq, Repr

structure WriteSingleRegisterResponse where
  registerAddress : UInt16
  registerValue : UInt16
  deriving DecidableEq, Repr

def WriteSingleRegisterRequest.encode (m : WriteSingleRegisterRequest) : Bytes :=
  encodeAddressAndQuantity functionCodeWriteSingleRegister m.registerAddress m.registerValue

def WriteSingleRegisterRequest.decode (bytes : Bytes) : Outcome DecodeError WriteSingleRegisterRequest :=
  (decodeAddressAndQuantity bytes functionCodeWriteSingleRegister).map fun f => ⟨f.startingAddress, f.quantity⟩

def WriteSingleRegisterResponse.encode (m : WriteSingleRegisterResponse) : Bytes :=
  encodeAddressAndQuantity functionCodeWriteSingleRegister m.registerAddress m.registerValue

def WriteSingleRegisterResponse.decode (bytes : Bytes) : Outcome DecodeError WriteSingleRegisterResponse :=
  (decodeAddressAndQuantity bytes functionCodeWriteSingleRegister).map fun f => ⟨f.startingAddress, f.quantity⟩

/-! ### Mask Write Register -/

structure MaskWriteRegisterRequest where
  referenceAddress : UInt16
  andMask : UInt16
  orMask : UInt16
  deriving DecidableEq, Repr

structure MaskWriteRegisterResponse where
  referenceAddress : UInt16
  andMask : UInt16
  orMask : UInt16
  deriving DecidableEq, Repr

def encodeMaskWriteRegister (referenceAddress andMask orMask : UInt16) : Bytes :=
  functionCodeMaskWriteRegister ::
    (u16ToBeBytes referenceAddress ++ (u16ToBeBytes andMask ++ u16ToBeBytes orMask))

def decodeMaskWriteRegister (bytes : Bytes) : Outcome DecodeError (UInt16 × UInt16 × UInt16) := do
  checkHeader bytes maskWriteRegisterPduLen functionCodeMaskWriteRegister
  let referenceAddress ← readU16Be bytes addressFieldByte
  let andMask ← readU16Be bytes quantityOrValueFieldByte
  let orMask ← readU16Be bytes orMaskFieldByte
  pure (referenceAddress, andMask, orMask)

theorem decodeMaskWriteRegister_cons (a1 a0 m1 m0 o1 o0 : UInt8) (rest : Bytes) :
    decodeMaskWriteRegister (functionCodeMaskWriteRegister :: a1 :: a0 :: m1 :: m0 :: o1 :: o0 :: rest) =
      .ok (u16FromBeBytes a1 a0, u16FromBeBytes m1 m0, u16FromBeBytes o1 o0) := by
  rw [decodeMaskWriteRegister, checkHeader_cons _ (by simp [maskWriteRegisterPduLen])]
  simp [addressFieldByte, quantityOrValueFieldByte, orMaskFieldByte]

theorem decodeMaskWriteRegister_encode (referenceAddress andMask orMask : UInt16) :
    decodeMaskWriteRegister (encodeMaskWriteRegister referenceAddress andMask orMask) =
      .ok (referenceAddress, andMask, orMask) := by
  simp [encodeMaskWriteRegister, u16ToBeBytes, decodeMaskWriteRegister_cons]

theorem decodeMaskWriteRegister_ne_panic (bytes : Bytes) : decodeMaskWriteRegister bytes ≠ .panic := by
  rcases checkHeader_cases bytes functionCodeMaskWriteRegister (show 0 < maskWriteRegisterPduLen by decide)
    with ⟨rest, rfl, hlen⟩ | ⟨e, he⟩
  · match rest, hlen with
    | a1 :: a0 :: m1 :: m0 :: o1 :: o0 :: rest, _ => simp [decodeMaskWriteRegister_cons]
  · simp [decodeMaskWriteRegister, he]

def MaskWriteRegisterRequest.encode (m : MaskWriteRegisterRequest) : Bytes :=
  encodeMaskWriteRegister m.referenceAddress m.andMask m.orMask

def MaskWriteRegisterRequest.decode (bytes : Bytes) : Outcome DecodeError MaskWriteRegisterRequest :=
  (decodeMaskWriteRegister bytes).map fun p => ⟨p.1, p.2.1, p.2.2⟩

def MaskWriteRegisterResponse.encode (m : MaskWriteRegisterResponse) : Bytes :=
  encodeMaskWriteRegister m.referenceAddress m.andMask m.orMask

def MaskWriteRegisterResponse.decode (bytes : Bytes) : Outcome DecodeError MaskWriteRegisterResponse :=
  (decodeMaskWriteRegister bytes).map fun p => ⟨p.1, p.2.1, p.2.2⟩

/-! ### Responses of the write-multiple requests -/

structure WriteMultipleCoilsResponse where
  startingAddress : UInt16
  quantity : UInt16
  deriving DecidableEq, Repr

structure WriteMultipleRegistersResponse where
  startingAddress : UInt16
  quantity : UInt16
  deriving DecidableEq, Repr

def WriteMultipleCoilsResponse.encode (m : WriteMultipleCoilsResponse) : Bytes :=
  encodeAddressAndQuantity functionCodeWriteMultipleCoils m.startingAddress m.quantity

def WriteMultipleCoilsResponse.decode (bytes : Bytes) : Outcome DecodeError WriteMultipleCoilsResponse :=
  (decodeAddressAndQuantity bytes functionCodeWriteMultipleCoils).map fun f => ⟨f.startingAddress, f.quantity⟩

def WriteMultipleRegistersResponse.encode (m : WriteMultipleRegistersResponse) : Bytes :=
  encodeAddressAndQuantity functionCodeWriteMultipleRegisters m.startingAddress m.quantity

def WriteMultipleRegistersResponse.decode (bytes : Bytes) :
    Outcome DecodeError WriteMultipleRegistersResponse :=
  (decodeAddressAndQuantity bytes functionCodeWriteMultipleRegisters).map fun f =>
    ⟨f.startingAddress, f.quantity⟩

end InfusedModbus.Protocol
