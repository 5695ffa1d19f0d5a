import InfusedModbus.Datafs.RegisterEncoding
import InfusedModbus.Protocol.Pdu.Message

/-! What a request is answered from: the options that open or close each function
code, and one state record for each configured machine, its descriptions next to
its stores. Machines are found by unit id. -/

namespace InfusedModbus.Server

open Foundation Foundation.Outcome Protocol Datafs

/-- The function codes a technician opened; all closed by default. -/
structure ServerOptions where
  detectMachineLayout : Bool := false
  readCoils : Bool := false
  readDiscreteInputs : Bool := false
  readHoldingRegisters : Bool := false
  readInputRegisters : Bool := false
  writeSingleCoil : Bool := false
  writeSingleRegister : Bool := false
  writeMultipleCoils : Bool := false
  writeMultipleRegisters : Bool := false
  reportServerId : Bool := false
  readFileRecord : Bool := false
  writeFileRecord : Bool := false
  maskWriteRegister : Bool := false
  readWriteMultipleRegisters : Bool := false
  readFifoQueue : Bool := false
  readDeviceIdentification : Bool := false
  deriving DecidableEq, Repr

/-- A code that names nothing this server could serve is never enabled. -/
def ServerOptions.isEnabled (options : ServerOptions) (functionCode : UInt8) : Bool :=
  if functionCode = functionCodeReadCoils then options.readCoils
  else if functionCode = functionCodeReadDiscreteInputs then options.readDiscreteInputs
  else if functionCode = functionCodeReadHoldingRegisters then options.readHoldingRegisters
  else if functionCode = functionCodeReadInputRegisters then options.readInputRegisters
  else if functionCode = functionCodeWriteSingleCoil then options.writeSingleCoil
  else if functionCode = functionCodeWriteSingleRegister then options.writeSingleRegister
  else if functionCode = functionCodeWriteMultipleCoils then options.writeMultipleCoils
  else if functionCode = functionCodeWriteMultipleRegisters then options.writeMultipleRegisters
  else if functionCode = functionCodeReportServerId then options.reportServerId
  else if functionCode = functionCodeMaskWriteRegister then options.maskWriteRegister
  else if functionCode = functionCodeReadWriteMultipleRegisters then options.readWriteMultipleRegisters
  else if functionCode = functionCodeEncapsulatedInterfaceTransport then options.readDeviceIdentification
  else if functionCode = functionCodeReadFileRecord then options.readFileRecord
  else if functionCode = functionCodeWriteFileRecord then options.writeFileRecord
  else false

/-- The options with every function code open. -/
def ServerOptions.allowAll : ServerOptions :=
  ⟨true, true, true, true, true, true, true, true, true, true, true, true, true, true, true, true⟩

/-- One configured machine: its descriptions, its stores, and its identity. -/
structure ServerMachineState where
  registers : List RegisterDescription
  store : RegisterStore
  coils : List CoilDescription
  coilStore : CoilStore
  discreteInputs : List DiscreteInputDescription
  discreteInputStore : DiscreteInputStore
  inputRegisters : List InputRegisterDescription
  inputRegisterStore : InputRegisterStore
  fileRecords : List FileRecordDescription
  fileRecordStore : FileRecordStore
  memLayout : MemLayout
  inputRegisterMemLayout : MemLayout
  serverId : Option String

/-- A configured machine with fresh, empty stores. -/
def ServerMachineState.fresh (machine : MachineDescription) : ServerMachineState where
  registers := machine.registers
  store := .empty
  coils := machine.coils
  coilStore := .empty
  discreteInputs := machine.discreteInputs
  discreteInputStore := .empty
  inputRegisters := machine.inputRegisters
  inputRegisterStore := .empty
  fileRecords := machine.fileRecords
  fileRecordStore := .empty
  memLayout := machine.memLayout
  inputRegisterMemLayout := machine.inputRegisterMemLayout
  serverId := machine.serverId

/-- The machines of a link under their unit ids. -/
abbrev Machines := Store UInt8 ServerMachineState

/-- A handler either answers or panics. -/
abbrev Handled (α : Type) := Outcome Empty α

def exception (functionCode exceptionCode : UInt8) : Bytes :=
  (ExceptionResponse.mk functionCode exceptionCode).encode

@[simp] theorem length_exception (functionCode exceptionCode : UInt8) :
    (exception functionCode exceptionCode).length = 2 := rfl

def IsException (response : Bytes) : Prop := ∃ e, ExceptionResponse.decode response = .ok e

theorem isException_exception (functionCode exceptionCode : UInt8) :
    IsException (exception functionCode exceptionCode) := by
  have hset : ∀ n < 256, (UInt8.ofNat n ||| exceptionResponseFunctionCodeBit) &&&
      exceptionResponseFunctionCodeBit ≠ 0 := by
    decide +kernel
  have hbit := hset functionCode.toNat functionCode.toNat_lt
  rw [UInt8.ofNat_toNat] at hbit
  exact ⟨_, by rw [exception, ExceptionResponse.encode, ExceptionResponse.decode_cons, if_neg hbit]⟩

/-- A response without the exception bit in its function code is no exception. -/
theorem not_isException_of_head {response : Bytes} {functionCode : UInt8} (hhead : response.head? = some functionCode)
    (h : functionCode &&& exceptionResponseFunctionCodeBit = 0) : ¬IsException response := by
  rintro ⟨e, he⟩
  match response, hhead with
  | [c], _ => simp [ExceptionResponse.decode, exceptionResponseLen] at he
  | c :: exceptionCode :: rest, hhead =>
    obtain rfl := Option.some.inj hhead
    rw [ExceptionResponse.decode_cons, if_pos h] at he
    cases he

theorem ne_exception_of_head {response : Bytes} {functionCode : UInt8} (hhead : response.head? = some functionCode)
    (h : functionCode &&& exceptionResponseFunctionCodeBit = 0) {rejected exceptionCode : UInt8} :
    response ≠ exception rejected exceptionCode := by
  rintro rfl
  exact not_isException_of_head hhead h (isException_exception _ _)

/-- The bytes of a string. -/
def utf8 (s : String) : Bytes := s.toUTF8.data.toList

end InfusedModbus.Server
