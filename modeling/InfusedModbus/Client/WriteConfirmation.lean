import InfusedModbus.Datafs.RegisterEncoding
import InfusedModbus.Datafs.Staging
import InfusedModbus.Protocol.Pdu.Bits
import InfusedModbus.Protocol.Pdu.Device
import InfusedModbus.Protocol.Pdu.Fields
import InfusedModbus.Protocol.Pdu.FileRecord
import InfusedModbus.Protocol.Pdu.Registers
import InfusedModbus.Protocol.Transport

/-! Turning a staged value into a write request, and the response into a status. Every
confirm function is a PDU to send, or the reason why there is none, and a reading of the
response; in between the connection does one round trip. -/

namespace InfusedModbus.Client

open Foundation Foundation.Outcome Protocol Datafs

/-- Only a value of one register fits a Write Single Register request. -/
def encodeWriteRequest (register : RegisterDescription) (value : RegisterValue) (memLayout : MemLayout) :
    Outcome String Bytes :=
  if register.dataType.registerCount ≠ 1 then
    .err ("register " ++ register.name ++ ": " ++ register.dataType.debug ++ " needs " ++
      toString register.dataType.registerCount ++ " registers, Write Single Register can't carry it")
  else if value.dataType ≠ register.dataType then
    .err ("register " ++ register.name ++ ": expected a " ++ register.dataType.debug ++ " value but got a " ++
      value.dataType.debug ++ " one")
  else do
    let word ← index (registerValueToWords value memLayout) 0
    pure (WriteSingleRegisterRequest.encode ⟨register.address, word⟩)

def encodeCoilWriteRequest (coil : CoilDescription) (value : CoilValue) : Bytes :=
  WriteSingleCoilRequest.encode ⟨coil.address, value.value⟩

/-- Anything but an exception is a success. -/
def interpretWriteResponse (responsePdu : Bytes) : Outcome Empty WriteStatus :=
  match ExceptionResponse.decode responsePdu with
  | .ok exception =>
    .ok (.failed ("device returned Modbus exception code " ++ toString exception.exceptionCode.toNat))
  | .err (.notAnExceptionResponse _) => .ok .ok
  | .err error => .ok (.failed ("malformed write response: " ++ error.debug))
  | .panic => .panic

/-- A file record must also be echoed as it was sent. -/
def interpretWriteFileRecordResponse (sent : List WriteFileRecordSubRequest) (responsePdu : Bytes) :
    Outcome Empty WriteStatus :=
  match ExceptionResponse.decode responsePdu with
  | .ok exception =>
    .ok (.failed ("device returned Modbus exception code " ++ toString exception.exceptionCode.toNat))
  | .err (.notAnExceptionResponse _) =>
    match WriteFileRecordResponse.decode responsePdu with
    | .ok response =>
      if response.subRequests = sent then .ok .ok
      else .ok (.failed "device echoed a different file record than what was written")
    | .err error => .ok (.failed ("malformed write response: " ++ error.debug))
    | .panic => .panic
  | .err error => .ok (.failed ("malformed write response: " ++ error.debug))
  | .panic => .panic

/-! ### The confirm functions -/

/-- A confirm function around its round trip. -/
structure Confirmation where
  pdu : Outcome String Bytes
  interpret : Bytes → Outcome Empty WriteStatus

def confirmWrite (register : RegisterDescription) (value : RegisterValue) (memLayout : MemLayout) : Confirmation :=
  ⟨encodeWriteRequest register value memLayout, interpretWriteResponse⟩

def confirmCoilWrite (coil : CoilDescription) (value : CoilValue) : Confirmation :=
  ⟨.ok (encodeCoilWriteRequest coil value), interpretWriteResponse⟩

/-- The reason given when a request cannot be built. -/
def buildFailure (error : EncodeError) : String := "failed to build write request: " ++ error.debug

def confirmWriteMultiple (startingAddress : UInt16) (values : List UInt16) : Confirmation :=
  ⟨(WriteMultipleRegistersRequest.encode ⟨startingAddress, values⟩).mapErr buildFailure, interpretWriteResponse⟩

def confirmMaskWrite (register : RegisterDescription) (andMask orMask : UInt16) : Confirmation :=
  ⟨.ok (MaskWriteRegisterRequest.encode ⟨register.address, andMask, orMask⟩), interpretWriteResponse⟩

def confirmFileRecordWrite (fileNumber recordNumber : UInt16) (value : Bytes) : Confirmation :=
  let subRequests := [⟨fileNumber, recordNumber, value⟩]
  ⟨(WriteFileRecordRequest.encode ⟨subRequests⟩).mapErr buildFailure, interpretWriteFileRecordResponse subRequests⟩

def confirmCoilWriteMultiple (startingAddress : UInt16) (values : List Bool) : Confirmation :=
  ⟨.ok (WriteMultipleCoilsRequest.encode ⟨startingAddress, values⟩), interpretWriteResponse⟩

/-- The status of a write whose round trip went as it did. -/
def Confirmation.conclude (confirmation : Confirmation) : Outcome IoError Bytes → Outcome Empty WriteStatus
  | .ok responsePdu => confirmation.interpret responsePdu
  | .err error => .ok (.failed ("write failed: " ++ error.message))
  | .panic => .panic

/-! ### What a success means -/

/-- The first byte of the PDU carries the exception bit. -/
def IsExceptionPdu (pdu : Bytes) : Prop :=
  ∃ functionCode ∈ pdu.head?, functionCode &&& exceptionResponseFunctionCodeBit ≠ 0

instance (pdu : Bytes) : Decidable (IsExceptionPdu pdu) :=
  inferInstanceAs (Decidable (∃ functionCode ∈ pdu.head?, functionCode &&& exceptionResponseFunctionCodeBit ≠ 0))

/-- A success is read off two bytes or more, the first without the exception bit. -/
theorem interpretWriteResponse_eq_ok {responsePdu : Bytes} (h : interpretWriteResponse responsePdu = .ok .ok) :
    responsePdu ≠ [] ∧ ¬IsExceptionPdu responsePdu := by
  cases responsePdu with
  | nil => exact absurd h (by decide)
  | cons functionCode rest =>
    refine ⟨List.cons_ne_nil _ _, ?_⟩
    rintro ⟨code, hcode, hbit⟩
    obtain rfl := Option.some.inj hcode
    cases rest with
    | nil => cases h
    | cons exceptionCode rest =>
      rw [interpretWriteResponse, ExceptionResponse.decode_cons, if_neg hbit] at h
      cases h

end InfusedModbus.Client
