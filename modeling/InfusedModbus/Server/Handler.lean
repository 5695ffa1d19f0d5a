import InfusedModbus.Server.Coils
import InfusedModbus.Server.DeviceIdentification
import InfusedModbus.Server.FileRecords
import InfusedModbus.Server.Registers

/-! The dispatch of a request PDU. A function code that is not enabled, or that
nothing implements, is answered with one and the same exception. Device
identification and the transfer of the compressed description belong to no machine;
everything else is answered by the machine under the unit id, or not at all.
`Served` lists what a machine can do with a request, and `Answered` what the server
can; no request makes either panic. -/

namespace InfusedModbus.Server

open Foundation Foundation.Outcome Protocol Datafs

/-- The compressed device description and the manifest that announces it. -/
structure Fc43BulkTransfer where
  compressedToml : Bytes
  manifestToml : String

def handleReportServerId (pdu : Bytes) (serverId : Option String) : Handled Bytes :=
  letOk (ReportServerIdRequest.decode pdu) (.ok (exception functionCodeReportServerId exceptionIllegalFunction))
    fun _ =>
    match serverId with
    | some serverId => .ok (ReportServerIdResponse.mk (utf8 serverId) true).encode
    | none => .ok (exception functionCodeReportServerId exceptionIllegalFunction)

/-- The description itself, or the manifest when that is allowed and the
description is too long. -/
def handleEncapsulatedInterfaceTransport (pdu : Bytes) (tomlSource : String) (detectMachineLayout : Bool)
    (fc43BulkTransfer : Fc43BulkTransfer) : Handled Bytes :=
  letOk (ReadDeviceIdentificationRequest.decode pdu)
    (.ok (exception functionCodeEncapsulatedInterfaceTransport exceptionIllegalFunction)) fun request =>
    match buildObjects tomlSource with
    | .ok objects => .ok (handleReadDeviceIdentification request objects)
    | .error _ =>
      if detectMachineLayout then
        match buildObjects fc43BulkTransfer.manifestToml with
        | .ok objects => .ok (handleReadDeviceIdentification request objects)
        | .error _ => .ok (exception functionCodeEncapsulatedInterfaceTransport exceptionServerDeviceFailure)
      else .ok (exception functionCodeEncapsulatedInterfaceTransport exceptionServerDeviceFailure)

/-! ### One machine -/

/-- The dispatch on the function code once the machine is known. -/
def handleMachineRequest (functionCode : UInt8) (pdu : Bytes) (machine : ServerMachineState) :
    Handled (Bytes × ServerMachineState) :=
  if functionCode = functionCodeReadHoldingRegisters then
    (handleRead pdu machine.registers machine.store machine.memLayout).map fun r => (r, machine)
  else if functionCode = functionCodeWriteSingleRegister then
    (handleWriteSingle pdu machine.registers machine.store machine.memLayout).map fun r =>
      (r.1, { machine with store := r.2 })
  else if functionCode = functionCodeWriteMultipleRegisters then
    (handleWriteMultipleRegisters pdu machine.registers machine.store machine.memLayout).map fun r =>
      (r.1, { machine with store := r.2 })
  else if functionCode = functionCodeMaskWriteRegister then
    (handleMaskWriteRegister pdu machine.registers machine.store machine.memLayout).map fun r =>
      (r.1, { machine with store := r.2 })
  else if functionCode = functionCodeReadWriteMultipleRegisters then
    (handleReadWriteMultipleRegisters pdu machine.registers machine.store machine.memLayout).map fun r =>
      (r.1, { machine with store := r.2 })
  else if functionCode = functionCodeReportServerId then
    (handleReportServerId pdu machine.serverId).map fun r => (r, machine)
  else if functionCode = functionCodeReadCoils then
    (handleReadCoils pdu machine.coils machine.coilStore).map fun r => (r, machine)
  else if functionCode = functionCodeWriteSingleCoil then
    (handleWriteSingleCoil pdu machine.coils machine.coilStore).map fun r =>
      (r.1, { machine with coilStore := r.2 })
  else if functionCode = functionCodeWriteMultipleCoils then
    (handleWriteMultipleCoils pdu machine.coils machine.coilStore).map fun r =>
      (r.1, { machine with coilStore := r.2 })
  else if functionCode = functionCodeReadDiscreteInputs then
    (handleReadDiscreteInputs pdu machine.discreteInputs machine.discreteInputStore).map fun r => (r, machine)
  else if functionCode = functionCodeReadInputRegisters then
    (handleReadInputRegisters pdu machine.inputRegisters machine.inputRegisterStore
      machine.inputRegisterMemLayout).map fun r => (r, machine)
  else if functionCode = functionCodeReadFileRecord then
    (handleReadFileRecord pdu machine.fileRecords machine.fileRecordStore).map fun r => (r, machine)
  else if functionCode = functionCodeWriteFileRecord then
    (handleWriteFileRecord pdu machine.fileRecords machine.fileRecordStore).map fun r =>
      (r.1, { machine with fileRecordStore := r.2 })
  else .ok (exception functionCode exceptionIllegalFunction, machine)

section Dispatch

variable (pdu : Bytes) (machine : ServerMachineState)

theorem handleMachineRequest_readHoldingRegisters :
    handleMachineRequest functionCodeReadHoldingRegisters pdu machine =
      (handleRead pdu machine.registers machine.store machine.memLayout).map fun r => (r, machine) := rfl

theorem handleMachineRequest_writeSingleRegister :
    handleMachineRequest functionCodeWriteSingleRegister pdu machine =
      (handleWriteSingle pdu machine.registers machine.store machine.memLayout).map fun r =>
        (r.1, { machine with store := r.2 }) := rfl

theorem handleMachineRequest_writeMultipleRegisters :
    handleMachineRequest functionCodeWriteMultipleRegisters pdu machine =
      (handleWriteMultipleRegisters pdu machine.registers machine.store machine.memLayout).map fun r =>
        (r.1, { machine with store := r.2 }) := rfl

theorem handleMachineRequest_maskWriteRegister :
    handleMachineRequest functionCodeMaskWriteRegister pdu machine =
      (handleMaskWriteRegister pdu machine.registers machine.store machine.memLayout).map fun r =>
        (r.1, { machine with store := r.2 }) := rfl

theorem handleMachineRequest_readWriteMultipleRegisters :
    handleMachineRequest functionCodeReadWriteMultipleRegisters pdu machine =
      (handleReadWriteMultipleRegisters pdu machine.registers machine.store machine.memLayout).map fun r =>
        (r.1, { machine with store := r.2 }) := rfl

theorem handleMachineRequest_reportServerId :
    handleMachineRequest functionCodeReportServerId pdu machine =
      (handleReportServerId pdu machine.serverId).map fun r => (r, machine) := rfl

theorem handleMachineRequest_readCoils :
    handleMachineRequest functionCodeReadCoils pdu machine =
      (handleReadCoils pdu machine.coils machine.coilStore).map fun r => (r, machine) := rfl

theorem handleMachineRequest_writeSingleCoil :
    handleMachineRequest functionCodeWriteSingleCoil pdu machine =
      (handleWriteSingleCoil pdu machine.coils machine.coilStore).map fun r =>
        (r.1, { machine with coilStore := r.2 }) := rfl

theorem handleMachineRequest_writeMultipleCoils :
    handleMachineRequest functionCodeWriteMultipleCoils pdu machine =
      (handleWriteMultipleCoils pdu machine.coils machine.coilStore).map fun r =>
        (r.1, { machine with coilStore := r.2 }) := rfl

theorem handleMachineRequest_readDiscreteInputs :
    handleMachineRequest functionCodeReadDiscreteInputs pdu machine =
      (handleReadDiscreteInputs pdu machine.discreteInputs machine.discreteInputStore).map fun r =>
        (r, machine) := rfl

theorem handleMachineRequest_readInputRegisters :
    handleMachineRequest functionCodeReadInputRegisters pdu machine =
      (handleReadInputRegisters pdu machine.inputRegisters machine.inputRegisterStore
        machine.inputRegisterMemLayout).map fun r => (r, machine) := rfl

theorem handleMachineRequest_readFileRecord :
    handleMachineRequest functionCodeReadFileRecord pdu machine =
      (handleReadFileRecord pdu machine.fileRecords machine.fileRecordStore).map fun r => (r, machine) := rfl

theorem handleMachineRequest_writeFileRecord :
    handleMachineRequest functionCodeWriteFileRecord pdu machine =
      (handleWriteFileRecord pdu machine.fileRecords machine.fileRecordStore).map fun r =>
        (r.1, { machine with fileRecordStore := r.2 }) := rfl

end Dispatch

/-- What a machine can do with a request: refuse it and stay as it is, or serve it. -/
inductive Served (pdu : Bytes) (machine : ServerMachineState) : UInt8 → Bytes → ServerMachineState → Prop where
  | rejected (functionCode exceptionCode : UInt8) :
      Served pdu machine functionCode (exception functionCode exceptionCode) machine
  | readRegisters (request : ReadHoldingRegistersRequest) (rs : List RegisterDescription)
      (hdec : ReadHoldingRegistersRequest.decode pdu = .ok request)
      (hrs : ReadTiles machine.registers request.startingAddress request.quantity.toNat rs) :
      Served pdu machine functionCodeReadHoldingRegisters
        (ReadHoldingRegistersResponse.mk (rs.flatMap (holdingWords machine.store machine.memLayout))).encode machine
  | writeSingle (request : WriteSingleRegisterRequest) (register : RegisterDescription) (value : RegisterValue)
      (hdec : WriteSingleRegisterRequest.decode pdu = .ok request)
      (hfind : findSingleWordReadWriteRegister machine.registers request.registerAddress = some register)
      (hvalue : registerValueFromWords register.dataType [request.registerValue] machine.memLayout = some value) :
      Served pdu machine functionCodeWriteSingleRegister
        (WriteSingleRegisterResponse.mk request.registerAddress request.registerValue).encode
        { machine with store := machine.store.set register.name value }
  | writeMultiple (request : WriteMultipleRegistersRequest) (rs : List RegisterDescription)
      (hdec : WriteMultipleRegistersRequest.decode pdu = .ok request)
      (hrs : WriteTiles machine.registers request.startingAddress request.registerValues.length rs) :
      Served pdu machine functionCodeWriteMultipleRegisters
        (WriteMultipleRegistersResponse.mk request.startingAddress
          (UInt16.ofNat request.registerValues.length)).encode
        { machine with
          store := machine.store.setAll (storeWrites (decodeWrites machine.memLayout rs request.registerValues)) }
  | maskWrite (request : MaskWriteRegisterRequest) (register : RegisterDescription) (word : UInt16)
      (value : RegisterValue) (hdec : MaskWriteRegisterRequest.decode pdu = .ok request)
      (hfind : findSingleWordReadWriteRegister machine.registers request.referenceAddress = some register)
      (hword : holdingWords machine.store machine.memLayout register = [word])
      (hvalue : registerValueFromWords register.dataType [maskWord word request.andMask request.orMask]
        machine.memLayout = some value) :
      Served pdu machine functionCodeMaskWriteRegister
        (MaskWriteRegisterResponse.mk request.referenceAddress request.andMask request.orMask).encode
        { machine with store := machine.store.set register.name value }
  | readWrite (request : ReadWriteMultipleRegistersRequest) (ws rs : List RegisterDescription)
      (store : RegisterStore) (hdec : ReadWriteMultipleRegistersRequest.decode pdu = .ok request)
      (hws : WriteTiles machine.registers request.writeStartingAddress request.writeValues.length ws)
      (hrs : ReadTiles machine.registers request.readStartingAddress request.readQuantity.toNat rs)
      (hstore : store = machine.store.setAll (storeWrites (decodeWrites machine.memLayout ws request.writeValues))) :
      Served pdu machine functionCodeReadWriteMultipleRegisters
        (ReadWriteMultipleRegistersResponse.mk (rs.flatMap (holdingWords store machine.memLayout))).encode
        { machine with store := store }
  | reportServerId (serverId : String) (hid : machine.serverId = some serverId) :
      Served pdu machine functionCodeReportServerId (ReportServerIdResponse.mk (utf8 serverId) true).encode machine
  | readCoils (request : ReadCoilsRequest) (values : List Bool)
      (hdec : ReadCoilsRequest.decode pdu = .ok request) (hlen : values.length = request.quantity.toNat)
      (hconf : Configured (findCoil machine.coils) request.startingAddress request.quantity.toNat) :
      Served pdu machine functionCodeReadCoils (ReadCoilsResponse.mk values).encode machine
  | writeSingleCoil (request : WriteSingleCoilRequest) (coil : CoilDescription)
      (hdec : WriteSingleCoilRequest.decode pdu = .ok request)
      (hfind : findCoil machine.coils request.coilAddress = some coil) :
      Served pdu machine functionCodeWriteSingleCoil
        (WriteSingleCoilResponse.mk request.coilAddress request.coilValue).encode
        { machine with coilStore := machine.coilStore.set coil.name ⟨request.coilValue⟩ }
  | writeMultipleCoils (request : WriteMultipleCoilsRequest) (resolved : List (CoilDescription × Bool))
      (hdec : WriteMultipleCoilsRequest.decode pdu = .ok request)
      (hres : ResolvedFrom machine.coils request.startingAddress request.coilValues 0 resolved) :
      Served pdu machine functionCodeWriteMultipleCoils
        (WriteMultipleCoilsResponse.mk request.startingAddress (UInt16.ofNat request.coilValues.length)).encode
        { machine with coilStore := machine.coilStore.setAll (storeCoils resolved) }
  | readDiscreteInputs (request : ReadDiscreteInputsRequest) (values : List Bool)
      (hdec : ReadDiscreteInputsRequest.decode pdu = .ok request) (hlen : values.length = request.quantity.toNat)
      (hconf : Configured (findDiscreteInput machine.discreteInputs) request.startingAddress
        request.quantity.toNat) :
      Served pdu machine functionCodeReadDiscreteInputs (ReadDiscreteInputsResponse.mk values).encode machine
  | readInputRegisters (request : ReadInputRegistersRequest) (rs : List InputRegisterDescription)
      (hdec : ReadInputRegistersRequest.decode pdu = .ok request)
      (hrs : InputTiles machine.inputRegisters request.startingAddress request.quantity.toNat rs) :
      Served pdu machine functionCodeReadInputRegisters
        (ReadInputRegistersResponse.mk
          (rs.flatMap (inputWords machine.inputRegisterStore machine.inputRegisterMemLayout))).encode machine
  | readFileRecord (request : ReadFileRecordRequest) (resolved : List FileRecordDescription)
      (hdec : ReadFileRecordRequest.decode pdu = .ok request)
      (hres : Described machine.fileRecords request.subRequests resolved)
      (hlen : (ReadFileRecordResponse.mk (resolved.map (storedRecord machine.fileRecordStore))).encode.length ≤
        maxPduLen) :
      Served pdu machine functionCodeReadFileRecord
        (ReadFileRecordResponse.mk (resolved.map (storedRecord machine.fileRecordStore))).encode machine
  | writeFileRecord (request : WriteFileRecordRequest) (response : Bytes)
      (hdec : WriteFileRecordRequest.decode pdu = .ok request)
      (hall : ∀ s ∈ request.subRequests, WritesDeclaredLength machine.fileRecords s)
      (henc : (WriteFileRecordResponse.mk request.subRequests).encode = .ok response) :
      Served pdu machine functionCodeWriteFileRecord response
        { machine with fileRecordStore := machine.fileRecordStore.setAll (storeRecords request.subRequests) }

section Served

variable (pdu : Bytes) (machine : ServerMachineState)

theorem served_handleRead : ∃ response,
    handleRead pdu machine.registers machine.store machine.memLayout = .ok response ∧
      Served pdu machine functionCodeReadHoldingRegisters response machine := by
  cases hdec : ReadHoldingRegistersRequest.decode pdu with
  | panic => exact absurd hdec (map_ne_panic.mpr (decodeAddressAndQuantity_ne_panic _ _))
  | err e => exact ⟨_, handleRead_of_err hdec, .rejected _ _⟩
  | ok request =>
    by_cases h : ∃ rs, ReadTiles machine.registers request.startingAddress request.quantity.toNat rs
    · obtain ⟨rs, hrs⟩ := h
      exact ⟨_, handleRead_of_tiles hdec hrs, .readRegisters request rs hdec hrs⟩
    · exact ⟨_, handleRead_of_not_tiles hdec h, .rejected _ _⟩

theorem served_handleWriteSingle : ∃ response store,
    handleWriteSingle pdu machine.registers machine.store machine.memLayout = .ok (response, store) ∧
      Served pdu machine functionCodeWriteSingleRegister response { machine with store := store } := by
  cases hdec : WriteSingleRegisterRequest.decode pdu with
  | panic => exact absurd hdec (map_ne_panic.mpr (decodeAddressAndQuantity_ne_panic _ _))
  | err e => exact ⟨_, _, handleWriteSingle_of_err hdec, .rejected _ _⟩
  | ok request =>
    cases hfind : findSingleWordReadWriteRegister machine.registers request.registerAddress with
    | none => exact ⟨_, _, handleWriteSingle_of_none hdec hfind, .rejected _ _⟩
    | some register =>
      obtain ⟨value, hvalue, heq⟩ :=
        @handleWriteSingle_of_some _ _ machine.store machine.memLayout _ hdec _ hfind
      exact ⟨_, _, heq, .writeSingle request register value hdec hfind hvalue⟩

theorem served_handleWriteMultipleRegisters : ∃ response store,
    handleWriteMultipleRegisters pdu machine.registers machine.store machine.memLayout = .ok (response, store) ∧
      Served pdu machine functionCodeWriteMultipleRegisters response { machine with store := store } := by
  cases hdec : WriteMultipleRegistersRequest.decode pdu with
  | panic => exact absurd hdec (WriteMultipleRegistersRequest.decode_ne_panic pdu)
  | err e => exact ⟨_, _, handleWriteMultipleRegisters_of_err hdec, .rejected _ _⟩
  | ok request =>
    by_cases h : ∃ rs, WriteTiles machine.registers request.startingAddress request.registerValues.length rs
    · obtain ⟨rs, hrs⟩ := h
      exact ⟨_, _, handleWriteMultipleRegisters_of_tiles hdec hrs, .writeMultiple request rs hdec hrs⟩
    · exact ⟨_, _, handleWriteMultipleRegisters_of_not_tiles hdec h, .rejected _ _⟩

theorem served_handleMaskWriteRegister : ∃ response store,
    handleMaskWriteRegister pdu machine.registers machine.store machine.memLayout = .ok (response, store) ∧
      Served pdu machine functionCodeMaskWriteRegister response { machine with store := store } := by
  cases hdec : MaskWriteRegisterRequest.decode pdu with
  | panic => exact absurd hdec (map_ne_panic.mpr (decodeMaskWriteRegister_ne_panic _))
  | err e => exact ⟨_, _, handleMaskWriteRegister_of_err hdec, .rejected _ _⟩
  | ok request =>
    cases hfind : findSingleWordReadWriteRegister machine.registers request.referenceAddress with
    | none => exact ⟨_, _, handleMaskWriteRegister_of_none hdec hfind, .rejected _ _⟩
    | some register =>
      obtain ⟨word, value, hword, hvalue, heq⟩ :=
        @handleMaskWriteRegister_of_some _ _ machine.store machine.memLayout _ hdec _ hfind
      exact ⟨_, _, heq, .maskWrite request register word value hdec hfind hword hvalue⟩

theorem served_handleReadWriteMultipleRegisters : ∃ response store,
    handleReadWriteMultipleRegisters pdu machine.registers machine.store machine.memLayout =
      .ok (response, store) ∧
      Served pdu machine functionCodeReadWriteMultipleRegisters response { machine with store := store } := by
  cases hdec : ReadWriteMultipleRegistersRequest.decode pdu with
  | panic => exact absurd hdec (ReadWriteMultipleRegistersRequest.decode_ne_panic pdu)
  | err e => exact ⟨_, _, handleReadWriteMultipleRegisters_of_err hdec, .rejected _ _⟩
  | ok request =>
    by_cases h : (∃ ws, WriteTiles machine.registers request.writeStartingAddress request.writeValues.length ws) ∧
      ∃ rs, ReadTiles machine.registers request.readStartingAddress request.readQuantity.toNat rs
    · obtain ⟨⟨ws, hws⟩, rs, hrs⟩ := h
      exact ⟨_, _, handleReadWriteMultipleRegisters_of_tiles hdec hws hrs,
        .readWrite request ws rs _ hdec hws hrs rfl⟩
    · exact ⟨_, _, handleReadWriteMultipleRegisters_of_not_tiles hdec h, .rejected _ _⟩

theorem served_handleReportServerId : ∃ response,
    handleReportServerId pdu machine.serverId = .ok response ∧
      Served pdu machine functionCodeReportServerId response machine := by
  unfold handleReportServerId
  cases hdec : ReportServerIdRequest.decode pdu with
  | panic => exact absurd hdec (ReportServerIdRequest.decode_ne_panic pdu)
  | err e => exact ⟨_, rfl, .rejected _ _⟩
  | ok request =>
    rw [letOk_ok]
    cases hid : machine.serverId with
    | none => exact ⟨_, rfl, .rejected _ _⟩
    | some serverId => exact ⟨_, rfl, .reportServerId serverId hid⟩

theorem served_handleReadCoils : ∃ response,
    handleReadCoils pdu machine.coils machine.coilStore = .ok response ∧
      Served pdu machine functionCodeReadCoils response machine := by
  cases hdec : ReadCoilsRequest.decode pdu with
  | panic => exact absurd hdec (map_ne_panic.mpr (decodeAddressAndQuantity_ne_panic _ _))
  | err e => exact ⟨_, handleReadCoils_of_err hdec, .rejected _ _⟩
  | ok request =>
    by_cases h : Configured (findCoil machine.coils) request.startingAddress request.quantity.toNat
    · exact ⟨_, handleReadCoils_of_configured hdec h, .readCoils request _ hdec (by simp) h⟩
    · exact ⟨_, handleReadCoils_of_not_configured hdec h, .rejected _ _⟩

theorem served_handleWriteSingleCoil : ∃ response coilStore,
    handleWriteSingleCoil pdu machine.coils machine.coilStore = .ok (response, coilStore) ∧
      Served pdu machine functionCodeWriteSingleCoil response { machine with coilStore := coilStore } := by
  cases hdec : WriteSingleCoilRequest.decode pdu with
  | panic => exact absurd hdec (map_ne_panic.mpr (decodeWriteSingleCoil_ne_panic _))
  | err e => exact ⟨_, _, handleWriteSingleCoil_of_err hdec, .rejected _ _⟩
  | ok request =>
    cases hfind : findCoil machine.coils request.coilAddress with
    | none => exact ⟨_, _, handleWriteSingleCoil_of_none hdec hfind, .rejected _ _⟩
    | some coil => exact ⟨_, _, handleWriteSingleCoil_of_some hdec hfind, .writeSingleCoil request coil hdec hfind⟩

theorem served_handleWriteMultipleCoils : ∃ response coilStore,
    handleWriteMultipleCoils pdu machine.coils machine.coilStore = .ok (response, coilStore) ∧
      Served pdu machine functionCodeWriteMultipleCoils response { machine with coilStore := coilStore } := by
  cases hdec : WriteMultipleCoilsRequest.decode pdu with
  | panic => exact absurd hdec (WriteMultipleCoilsRequest.decode_ne_panic pdu)
  | err e => exact ⟨_, _, handleWriteMultipleCoils_of_err hdec, .rejected _ _⟩
  | ok request =>
    by_cases h : Configured (findCoil machine.coils) request.startingAddress request.coilValues.length
    · obtain ⟨resolved, hres, heq⟩ :=
        @handleWriteMultipleCoils_of_configured _ _ machine.coilStore _ hdec h
      exact ⟨_, _, heq, .writeMultipleCoils request resolved hdec hres⟩
    · exact ⟨_, _, handleWriteMultipleCoils_of_not_configured hdec h, .rejected _ _⟩

theorem served_handleReadDiscreteInputs : ∃ response,
    handleReadDiscreteInputs pdu machine.discreteInputs machine.discreteInputStore = .ok response ∧
      Served pdu machine functionCodeReadDiscreteInputs response machine := by
  cases hdec : ReadDiscreteInputsRequest.decode pdu with
  | panic => exact absurd hdec (map_ne_panic.mpr (decodeAddressAndQuantity_ne_panic _ _))
  | err e => exact ⟨_, handleReadDiscreteInputs_of_err hdec, .rejected _ _⟩
  | ok request =>
    by_cases h : Configured (findDiscreteInput machine.discreteInputs) request.startingAddress
      request.quantity.toNat
    · exact ⟨_, handleReadDiscreteInputs_of_configured hdec h, .readDiscreteInputs request _ hdec (by simp) h⟩
    · exact ⟨_, handleReadDiscreteInputs_of_not_configured hdec h, .rejected _ _⟩

theorem served_handleReadInputRegisters : ∃ response,
    handleReadInputRegisters pdu machine.inputRegisters machine.inputRegisterStore
      machine.inputRegisterMemLayout = .ok response ∧
      Served pdu machine functionCodeReadInputRegisters response machine := by
  cases hdec : ReadInputRegistersRequest.decode pdu with
  | panic => exact absurd hdec (map_ne_panic.mpr (decodeAddressAndQuantity_ne_panic _ _))
  | err e => exact ⟨_, handleReadInputRegisters_of_err hdec, .rejected _ _⟩
  | ok request =>
    by_cases h : ∃ rs, InputTiles machine.inputRegisters request.startingAddress request.quantity.toNat rs
    · obtain ⟨rs, hrs⟩ := h
      exact ⟨_, handleReadInputRegisters_of_tiles hdec hrs, .readInputRegisters request rs hdec hrs⟩
    · exact ⟨_, handleReadInputRegisters_of_not_tiles hdec h, .rejected _ _⟩

theorem served_handleReadFileRecord : ∃ response,
    handleReadFileRecord pdu machine.fileRecords machine.fileRecordStore = .ok response ∧
      Served pdu machine functionCodeReadFileRecord response machine := by
  rcases handleReadFileRecord_cases pdu machine.fileRecords machine.fileRecordStore with
    ⟨code, heq⟩ | ⟨request, resolved, hdec, hres, hlen, heq⟩
  · exact ⟨_, heq, .rejected _ _⟩
  · exact ⟨_, heq, .readFileRecord request resolved hdec hres hlen⟩

theorem served_handleWriteFileRecord : ∃ response fileRecordStore,
    handleWriteFileRecord pdu machine.fileRecords machine.fileRecordStore = .ok (response, fileRecordStore) ∧
      Served pdu machine functionCodeWriteFileRecord response
        { machine with fileRecordStore := fileRecordStore } := by
  rcases handleWriteFileRecord_cases pdu machine.fileRecords machine.fileRecordStore with
    ⟨code, heq⟩ | ⟨request, response, hdec, hall, henc, heq⟩
  · exact ⟨_, _, heq, .rejected _ _⟩
  · exact ⟨_, _, heq, .writeFileRecord request response hdec hall henc⟩

/-- A handler of a function code returns, and what it returns is served. -/
def ServedBy (functionCode : UInt8) (handled : Handled (Bytes × ServerMachineState)) : Prop :=
  ∃ response machine', handled = .ok (response, machine') ∧ Served pdu machine functionCode response machine'

variable {pdu machine}

theorem servedBy_read {functionCode : UInt8} {handled : Handled Bytes}
    (h : ∃ response, handled = .ok response ∧ Served pdu machine functionCode response machine) :
    ServedBy pdu machine functionCode (handled.map fun r => (r, machine)) := by
  obtain ⟨response, rfl, hserved⟩ := h
  exact ⟨response, machine, rfl, hserved⟩

theorem servedBy_write {τ : Type} {functionCode : UInt8} {handled : Handled (Bytes × τ)}
    (update : τ → ServerMachineState)
    (h : ∃ response store, handled = .ok (response, store) ∧
      Served pdu machine functionCode response (update store)) :
    ServedBy pdu machine functionCode (handled.map fun r => (r.1, update r.2)) := by
  obtain ⟨response, store, rfl, hserved⟩ := h
  exact ⟨response, update store, rfl, hserved⟩

theorem servedBy_ite {functionCode code : UInt8} {x y : Handled (Bytes × ServerMachineState)}
    (hx : ServedBy pdu machine code x) (hy : ServedBy pdu machine functionCode y) :
    ServedBy pdu machine functionCode (if functionCode = code then x else y) := by
  by_cases h : functionCode = code
  · rw [if_pos h, h]
    exact hx
  · rw [if_neg h]
    exact hy

variable (pdu machine)

/-- A machine never panics on a request: it refuses it or serves it. -/
theorem handleMachineRequest_served (functionCode : UInt8) :
    ServedBy pdu machine functionCode (handleMachineRequest functionCode pdu machine) := by
  unfold handleMachineRequest
  refine servedBy_ite (servedBy_read (served_handleRead pdu machine)) ?_
  refine servedBy_ite (servedBy_write _ (served_handleWriteSingle pdu machine)) ?_
  refine servedBy_ite (servedBy_write _ (served_handleWriteMultipleRegisters pdu machine)) ?_
  refine servedBy_ite (servedBy_write _ (served_handleMaskWriteRegister pdu machine)) ?_
  refine servedBy_ite (servedBy_write _ (served_handleReadWriteMultipleRegisters pdu machine)) ?_
  refine servedBy_ite (servedBy_read (served_handleReportServerId pdu machine)) ?_
  refine servedBy_ite (servedBy_read (served_handleReadCoils pdu machine)) ?_
  refine servedBy_ite (servedBy_write _ (served_handleWriteSingleCoil pdu machine)) ?_
  refine servedBy_ite (servedBy_write _ (served_handleWriteMultipleCoils pdu machine)) ?_
  refine servedBy_ite (servedBy_read (served_handleReadDiscreteInputs pdu machine)) ?_
  refine servedBy_ite (servedBy_read (served_handleReadInputRegisters pdu machine)) ?_
  refine servedBy_ite (servedBy_read (served_handleReadFileRecord pdu machine)) ?_
  refine servedBy_ite (servedBy_write _ (served_handleWriteFileRecord pdu machine)) ?_
  exact ⟨_, machine, rfl, .rejected _ _⟩

end Served

/-! ### The whole server -/

/-- Only sub-requests for the reserved file number, and at least one. -/
def IsBulkTransfer (request : ReadFileRecordRequest) : Prop :=
  request.subRequests ≠ [] ∧
    ∀ subRequest ∈ request.subRequests, subRequest.fileNumber = reservedDeviceDescriptionFileNumber

instance (request : ReadFileRecordRequest) : Decidable (IsBulkTransfer request) :=
  inferInstanceAs (Decidable (_ ∧ _))

/-- The answer of the machine under a unit id; silence when there is none. -/
def handleUnitRequest (unitId functionCode : UInt8) (pdu : Bytes) (machines : Machines) :
    Handled (Option Bytes × Machines) :=
  match machines.get unitId with
  | none => .ok (none, machines)
  | some machine =>
    (handleMachineRequest functionCode pdu machine).map fun r => (some r.1, machines.set unitId r.2)

/-- The response to a request PDU and the machines after it. -/
def handleRequest (unitId : UInt8) (pdu : Bytes) (serverOptions : ServerOptions) (machines : Machines)
    (tomlSource : String) (fc43BulkTransfer : Fc43BulkTransfer) : Handled (Option Bytes × Machines) :=
  match pdu.head? with
  | none => .ok (some (exception 0 exceptionIllegalFunction), machines)
  | some functionCode =>
    if serverOptions.isEnabled functionCode = false then
      .ok (some (exception functionCode exceptionIllegalFunction), machines)
    else if functionCode = functionCodeEncapsulatedInterfaceTransport then
      (handleEncapsulatedInterfaceTransport pdu tomlSource serverOptions.detectMachineLayout
        fc43BulkTransfer).map fun response => (some response, machines)
    else if functionCode = functionCodeReadFileRecord ∧ serverOptions.detectMachineLayout then
      letOk (ReadFileRecordRequest.decode pdu) (handleUnitRequest unitId functionCode pdu machines) fun request =>
        if IsBulkTransfer request then
          (handleReadDeviceDescriptionBulkTransfer request fc43BulkTransfer.compressedToml).map fun response =>
            (some response, machines)
        else handleUnitRequest unitId functionCode pdu machines
    else handleUnitRequest unitId functionCode pdu machines

/-- A request that only its machine can serve is answered by that machine. -/
theorem handleRequest_of_machine {unitId : UInt8} {pdu : Bytes} {serverOptions : ServerOptions}
    {machines : Machines} {tomlSource : String} {fc43BulkTransfer : Fc43BulkTransfer} {functionCode : UInt8}
    {machine : ServerMachineState} (hhead : pdu.head? = some functionCode)
    (henabled : serverOptions.isEnabled functionCode) (hget : machines.get unitId = some machine)
    (hidentification : functionCode ≠ functionCodeEncapsulatedInterfaceTransport)
    (hfile : functionCode ≠ functionCodeReadFileRecord) :
    handleRequest unitId pdu serverOptions machines tomlSource fc43BulkTransfer =
      (handleMachineRequest functionCode pdu machine).map fun r => (some r.1, machines.set unitId r.2) := by
  rw [handleRequest, hhead]
  dsimp only
  rw [if_neg (by simp [henabled]), if_neg hidentification, if_neg (fun h => hfile h.1), handleUnitRequest, hget]

/-- So is the read of file records that are not the compressed description. -/
theorem handleRequest_readFileRecord {unitId : UInt8} {pdu : Bytes} {serverOptions : ServerOptions}
    {machines : Machines} {tomlSource : String} {fc43BulkTransfer : Fc43BulkTransfer} {machine : ServerMachineState}
    (hhead : pdu.head? = some functionCodeReadFileRecord)
    (henabled : serverOptions.isEnabled functionCodeReadFileRecord) (hget : machines.get unitId = some machine)
    {request : ReadFileRecordRequest} (hdec : ReadFileRecordRequest.decode pdu = .ok request)
    (hbulk : serverOptions.detectMachineLayout → ¬IsBulkTransfer request) :
    handleRequest unitId pdu serverOptions machines tomlSource fc43BulkTransfer =
      (handleMachineRequest functionCodeReadFileRecord pdu machine).map fun r => (some r.1, machines.set unitId r.2) := by
  have hunit : handleUnitRequest unitId functionCodeReadFileRecord pdu machines =
      (handleMachineRequest functionCodeReadFileRecord pdu machine).map fun r => (some r.1, machines.set unitId r.2) := by
    rw [handleUnitRequest, hget]
  rw [handleRequest, hhead]
  dsimp only
  rw [if_neg (by simp [henabled]), if_neg (by decide)]
  by_cases hlayout : serverOptions.detectMachineLayout
  · rw [if_pos ⟨rfl, hlayout⟩, hdec, letOk_ok, if_neg (hbulk hlayout), hunit]
  · rw [if_neg (fun h => hlayout h.2), hunit]

/-- What the server can do with a request. -/
inductive Answered (unitId : UInt8) (pdu : Bytes) (serverOptions : ServerOptions) (machines : Machines) :
    Option Bytes → Machines → Prop where
  | silent (hget : machines.get unitId = none) : Answered unitId pdu serverOptions machines none machines
  | rejected (functionCode exceptionCode : UInt8) :
      Answered unitId pdu serverOptions machines (some (exception functionCode exceptionCode)) machines
  | identification (source : String) (request : ReadDeviceIdentificationRequest)
      (objects : List DeviceIdentificationObject) (hobjects : buildObjects source = .ok objects) :
      Answered unitId pdu serverOptions machines (some (handleReadDeviceIdentification request objects)) machines
  | bulkTransfer (records : List Bytes) (hlen : (ReadFileRecordResponse.mk records).encode.length ≤ maxPduLen) :
      Answered unitId pdu serverOptions machines (some (ReadFileRecordResponse.mk records).encode) machines
  | served (functionCode : UInt8) (machine : ServerMachineState) (response : Bytes)
      (machine' : ServerMachineState) (hhead : pdu.head? = some functionCode)
      (henabled : serverOptions.isEnabled functionCode) (hget : machines.get unitId = some machine)
      (hserved : Served pdu machine functionCode response machine') :
      Answered unitId pdu serverOptions machines (some response) (machines.set unitId machine')

section Answered

variable {unitId : UInt8} {pdu : Bytes} {serverOptions : ServerOptions} {machines : Machines}

theorem handleUnitRequest_answered {functionCode : UInt8} (hhead : pdu.head? = some functionCode)
    (henabled : serverOptions.isEnabled functionCode) : ∃ response machines',
      handleUnitRequest unitId functionCode pdu machines = .ok (response, machines') ∧
        Answered unitId pdu serverOptions machines response machines' := by
  unfold handleUnitRequest
  cases hget : machines.get unitId with
  | none => exact ⟨none, machines, rfl, .silent hget⟩
  | some machine =>
    obtain ⟨response, machine', heq, hserved⟩ := handleMachineRequest_served pdu machine functionCode
    exact ⟨some response, machines.set unitId machine', by simp only [heq, map_ok],
      .served functionCode machine response machine' hhead henabled hget hserved⟩

theorem handleEncapsulatedInterfaceTransport_answered (tomlSource : String) (detectMachineLayout : Bool)
    (fc43BulkTransfer : Fc43BulkTransfer) : ∃ response,
      handleEncapsulatedInterfaceTransport pdu tomlSource detectMachineLayout fc43BulkTransfer = .ok response ∧
        Answered unitId pdu serverOptions machines (some response) machines := by
  unfold handleEncapsulatedInterfaceTransport
  cases hdec : ReadDeviceIdentificationRequest.decode pdu with
  | panic => exact absurd hdec (ReadDeviceIdentificationRequest.decode_ne_panic pdu)
  | err e => exact ⟨_, rfl, .rejected _ _⟩
  | ok request =>
    rw [letOk_ok]
    cases hobjects : buildObjects tomlSource with
    | ok objects => exact ⟨_, rfl, .identification tomlSource request objects hobjects⟩
    | error e =>
      cases detectMachineLayout with
      | false => exact ⟨_, rfl, .rejected _ _⟩
      | true =>
        cases hmanifest : buildObjects fc43BulkTransfer.manifestToml with
        | ok objects =>
          exact ⟨_, rfl, .identification fc43BulkTransfer.manifestToml request objects hmanifest⟩
        | error e => exact ⟨_, rfl, .rejected _ _⟩

/-- The server never panics on a request. -/
theorem handleRequest_answered (unitId : UInt8) (pdu : Bytes) (serverOptions : ServerOptions)
    (machines : Machines) (tomlSource : String) (fc43BulkTransfer : Fc43BulkTransfer) :
    ∃ response machines',
      handleRequest unitId pdu serverOptions machines tomlSource fc43BulkTransfer = .ok (response, machines') ∧
        Answered unitId pdu serverOptions machines response machines' := by
  unfold handleRequest
  cases hhead : pdu.head? with
  | none => exact ⟨_, machines, rfl, .rejected _ _⟩
  | some functionCode =>
    dsimp only
    split
    · exact ⟨_, machines, rfl, .rejected _ _⟩
    · next hdisabled =>
      have henabled : serverOptions.isEnabled functionCode = true := by simpa using hdisabled
      have hunit := @handleUnitRequest_answered unitId _ _ machines _ hhead henabled
      split
      · obtain ⟨response, heq, hanswered⟩ := @handleEncapsulatedInterfaceTransport_answered
          unitId pdu serverOptions machines tomlSource serverOptions.detectMachineLayout fc43BulkTransfer
        exact ⟨some response, machines, by simp only [heq, map_ok], hanswered⟩
      · split
        · cases hdec : ReadFileRecordRequest.decode pdu with
          | panic => exact absurd hdec (ReadFileRecordRequest.decode_ne_panic pdu)
          | err e => exact hunit
          | ok request =>
            rw [letOk_ok]
            split
            · rcases handleReadDeviceDescriptionBulkTransfer_cases request fc43BulkTransfer.compressedToml with
                ⟨code, heq⟩ | ⟨records, _, hlen, heq⟩
              · exact ⟨some (exception functionCodeReadFileRecord code), machines, by rw [heq, map_ok],
                  .rejected _ _⟩
              · exact ⟨some (ReadFileRecordResponse.mk records).encode, machines, by rw [heq, map_ok],
                  .bulkTransfer records hlen⟩
            · exact hunit
        · exact hunit

end Answered

/-! ### One step of a run -/

/-- The server as a system that answers requests to one unit id. -/
def serverStep (unitId : UInt8) (serverOptions : ServerOptions) (tomlSource : String)
    (fc43BulkTransfer : Fc43BulkTransfer) (machines : Machines) (pdu : Bytes) :
    Machines × Handled (Option Bytes) :=
  match handleRequest unitId pdu serverOptions machines tomlSource fc43BulkTransfer with
  | .ok (response, machines') => (machines', .ok response)
  | .err e => e.elim
  | .panic => (machines, .panic)

theorem serverStep_of_machine {unitId : UInt8} {pdu : Bytes} {serverOptions : ServerOptions}
    {machines : Machines} {tomlSource : String} {fc43BulkTransfer : Fc43BulkTransfer} {functionCode : UInt8}
    {machine machine' : ServerMachineState} {response : Bytes} (hhead : pdu.head? = some functionCode)
    (henabled : serverOptions.isEnabled functionCode) (hget : machines.get unitId = some machine)
    (hidentification : functionCode ≠ functionCodeEncapsulatedInterfaceTransport)
    (hfile : functionCode ≠ functionCodeReadFileRecord)
    (h : handleMachineRequest functionCode pdu machine = .ok (response, machine')) :
    serverStep unitId serverOptions tomlSource fc43BulkTransfer machines pdu =
      (machines.set unitId machine', .ok (some response)) := by
  rw [serverStep, handleRequest_of_machine hhead henabled hget hidentification hfile, h, map_ok]

end InfusedModbus.Server
