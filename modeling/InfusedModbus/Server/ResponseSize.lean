import InfusedModbus.Server.Handler

/-! How long a response can get. A response that fits a PDU has exact length fields
and decodes to what was put into it. The file record and device identification
handlers measure what they send; the bit and register reads and Report Server ID do
not, so their responses outgrow a PDU exactly when too much is asked for or too
long an identity is configured. -/

namespace InfusedModbus.Server

open Foundation Foundation.Outcome Protocol Datafs

/-! ### Well-formed responses -/

/-- The function code a response of a type begins with. -/
def responseFunctionCode : Kind → Option UInt8
  | .readCoilsResponse => some functionCodeReadCoils
  | .readDiscreteInputsResponse => some functionCodeReadDiscreteInputs
  | .readHoldingRegistersResponse => some functionCodeReadHoldingRegisters
  | .readInputRegistersResponse => some functionCodeReadInputRegisters
  | .writeSingleCoilResponse => some functionCodeWriteSingleCoil
  | .writeSingleRegisterResponse => some functionCodeWriteSingleRegister
  | .writeMultipleCoilsResponse => some functionCodeWriteMultipleCoils
  | .writeMultipleRegistersResponse => some functionCodeWriteMultipleRegisters
  | .reportServerIdResponse => some functionCodeReportServerId
  | .readFileRecordResponse => some functionCodeReadFileRecord
  | .writeFileRecordResponse => some functionCodeWriteFileRecord
  | .maskWriteRegisterResponse => some functionCodeMaskWriteRegister
  | .readWriteMultipleRegistersResponse => some functionCodeReadWriteMultipleRegisters
  | .readDeviceIdentificationResponse => some functionCodeEncapsulatedInterfaceTransport
  | _ => none

/-- A count and exactly as many bytes after it. -/
def Counted (bytes : Bytes) : Prop := ∃ count data, bytes = count :: data ∧ count.toNat = data.length

/-- Every byte count and length field of a response equals what follows it: of the
whole response, of each record, of each written record in words, of each object. -/
def LengthFieldsExact (k : Kind) (bytes : Bytes) : Prop :=
  match k with
  | .readCoilsResponse | .readDiscreteInputsResponse | .readHoldingRegistersResponse
  | .readInputRegistersResponse | .readWriteMultipleRegistersResponse | .reportServerIdResponse =>
    Counted (bytes.drop 1)
  | .readFileRecordResponse =>
    Counted (bytes.drop 1) ∧ ∃ records : List Bytes, bytes.drop 2 = records.flatten ∧ ∀ r ∈ records, Counted r
  | .writeFileRecordResponse =>
    Counted (bytes.drop 1) ∧ ∃ records : List Bytes, bytes.drop 2 = records.flatten ∧
      ∀ r ∈ records, ∃ n1 n0 data, r.drop 5 = n1 :: n0 :: data ∧ (u16FromBeBytes n1 n0).toNat * 2 = data.length
  | .readDeviceIdentificationResponse =>
    ∃ objects : List Bytes, bytes.drop 7 = objects.flatten ∧ (bytes.getD 6 0).toNat = objects.length ∧
      ∀ o ∈ objects, Counted (o.drop 1)
  | _ => True

/-- A response that fits a PDU and, unless it is an exception, has exact length
fields and gives back every message it can be the encoding of. -/
structure WellFormed (response : Bytes) : Prop where
  fits : response.length ≤ maxPduLen
  exact : ¬IsException response → ∃ functionCode k, response.head? = some functionCode ∧
    responseFunctionCode k = some functionCode ∧ LengthFieldsExact k response ∧
    (∃ m, encode k m = .ok response) ∧ ∀ m, encode k m = .ok response → decode k response = .ok (padded k m)

theorem wellFormed_exception (functionCode exceptionCode : UInt8) :
    WellFormed (exception functionCode exceptionCode) :=
  ⟨by simp [maxPduLen], fun h => absurd (isException_exception _ _) h⟩

theorem counted_of_length {n : ℕ} {data : Bytes} (hn : n = data.length) (h : data.length < 256) :
    Counted (UInt8.ofNat n :: data) :=
  ⟨_, data, rfl, by rw [UInt8.ofNat_toNat_mod, hn, Nat.mod_eq_of_lt h]⟩

/-- The length of a piece of a concatenation. -/
theorem length_le_of_mem_flatMap {α : Type} {f : α → Bytes} {xs : List α} {x : α} (h : x ∈ xs) :
    (f x).length ≤ (xs.flatMap f).length := by
  rw [List.length_flatMap]
  exact List.le_sum_of_mem (List.mem_map_of_mem (f := fun x => (f x).length) h)

theorem lengthFieldsExact_of_encode {k : Kind} {m : k.Payload} {bytes : Bytes} (h : encode k m = .ok bytes)
    (hlen : bytes.length ≤ maxPduLen) : LengthFieldsExact k bytes := by
  have hmax : maxPduLen = 253 := rfl
  cases k with
  | readCoilsResponse | readDiscreteInputsResponse =>
    obtain rfl := Outcome.ok.inj h
    simp only [ReadCoilsResponse.encode, ReadDiscreteInputsResponse.encode, encodeBitfieldResponse_eq,
      List.length_cons] at hlen
    simp only [LengthFieldsExact, ReadCoilsResponse.encode, ReadDiscreteInputsResponse.encode,
      encodeBitfieldResponse_eq, List.drop_succ_cons, List.drop_zero]
    exact counted_of_length (length_packBits _).symm (by omega)
  | readHoldingRegistersResponse | readInputRegistersResponse | readWriteMultipleRegistersResponse =>
    obtain rfl := Outcome.ok.inj h
    simp only [ReadHoldingRegistersResponse.encode, ReadInputRegistersResponse.encode,
      ReadWriteMultipleRegistersResponse.encode, encodeRegisterArrayResponse, List.length_cons] at hlen
    exact counted_of_length (by rw [length_bytesOfWords, Nat.mul_comm]) (by omega)
  | reportServerIdResponse =>
    obtain rfl := Outcome.ok.inj h
    simp only [ReportServerIdResponse.length_encode] at hlen
    exact counted_of_length (by simp) (by simp; omega)
  | readFileRecordResponse =>
    obtain rfl := Outcome.ok.inj h
    simp only [ReadFileRecordResponse.encode, List.length_cons] at hlen
    refine ⟨counted_of_length (ReadFileRecordResponse.length_flatMap_encodeRecord _).symm (by omega),
      m.records.map encodeRecord, List.flatMap_def, ?_⟩
    rw [List.forall_mem_map]
    intro record hrecord
    have hle := length_le_of_mem_flatMap (f := encodeRecord) hrecord
    rw [length_encodeRecord] at hle
    exact counted_of_length (by simp; omega) (by simp; omega)
  | writeFileRecordResponse =>
    obtain ⟨heven, rfl⟩ := encodeWriteFileRecord_eq_ok.mp h
    simp only [List.length_cons] at hlen
    refine ⟨counted_of_length rfl (by omega), m.subRequests.map encodeWriteSubRequest,
      List.flatMap_def, ?_⟩
    rw [List.forall_mem_map]
    intro s hs
    have hle := length_le_of_mem_flatMap (f := encodeWriteSubRequest) hs
    have hlen' := length_encodeWriteSubRequest s
    have hwords := heven s hs
    refine ⟨_, _, s.recordData, rfl, ?_⟩
    rw [u16FromBeBytes_toBeBytes, UInt16.ofNat_toNat_mod]
    omega
  | readDeviceIdentificationResponse =>
    obtain rfl := Outcome.ok.inj h
    have hlen' := hlen
    rw [ReadDeviceIdentificationResponse.length_encode] at hlen
    have hcount : m.objects.length * 2 ≤ (m.objects.map fun o => 2 + o.value.length).sum := by
      simp [List.sum_map_add]
    refine ⟨m.objects.map encodeObject, List.flatMap_def, ?_, ?_⟩
    · simp only [ReadDeviceIdentificationResponse.encode, List.length_map]
      show (UInt8.ofNat m.objects.length).toNat = _
      rw [UInt8.ofNat_toNat_mod]
      omega
    · rw [List.forall_mem_map]
      intro o ho
      have hle := List.le_sum_of_mem (List.mem_map_of_mem
        (f := fun o : DeviceIdentificationObject => 2 + o.value.length) ho)
      exact counted_of_length rfl (by omega)
  | _ => trivial

theorem wellFormed_of_encode {functionCode : UInt8} {k : Kind} (hk : responseFunctionCode k = some functionCode)
    {m : k.Payload} {response : Bytes} (h : encode k m = .ok response) (hlen : response.length ≤ maxPduLen) :
    WellFormed response := by
  have hhead : response.head? = some functionCode := by
    rw [← hk]
    cases k with
    | writeFileRecordResponse =>
      obtain ⟨_, rfl⟩ := encodeWriteFileRecord_eq_ok.mp h
      rfl
    | _ => first | cases hk; done | (obtain rfl := Outcome.ok.inj h; rfl)
  have hunambiguous : ∀ m' : k.Payload, Unambiguous k m' := by
    cases k with
    | readFileRecordRequest | exceptionResponse => cases hk
    | _ => exact fun _ => trivial
  exact ⟨hlen, fun _ => ⟨functionCode, k, hhead, hk, lengthFieldsExact_of_encode h hlen, ⟨m, h⟩,
    fun m' h' => Fits.decode_eq ⟨h', hlen, hunambiguous m'⟩⟩⟩

/-! ### Responses that outgrow a PDU -/

/-- A request to a machine that asks for more than a PDU holds and is granted it. -/
inductive Oversized (pdu : Bytes) (machine : ServerMachineState) : UInt8 → Prop where
  | coils (request : ReadCoilsRequest) (hdec : ReadCoilsRequest.decode pdu = .ok request)
      (hconf : Configured (findCoil machine.coils) request.startingAddress request.quantity.toNat)
      (hmany : 2008 < request.quantity.toNat) : Oversized pdu machine functionCodeReadCoils
  | discreteInputs (request : ReadDiscreteInputsRequest)
      (hdec : ReadDiscreteInputsRequest.decode pdu = .ok request)
      (hconf : Configured (findDiscreteInput machine.discreteInputs) request.startingAddress
        request.quantity.toNat)
      (hmany : 2008 < request.quantity.toNat) : Oversized pdu machine functionCodeReadDiscreteInputs
  | registers (request : ReadHoldingRegistersRequest) (rs : List RegisterDescription)
      (hdec : ReadHoldingRegistersRequest.decode pdu = .ok request)
      (hrs : ReadTiles machine.registers request.startingAddress request.quantity.toNat rs)
      (hmany : 125 < request.quantity.toNat) : Oversized pdu machine functionCodeReadHoldingRegisters
  | inputRegisters (request : ReadInputRegistersRequest) (rs : List InputRegisterDescription)
      (hdec : ReadInputRegistersRequest.decode pdu = .ok request)
      (hrs : InputTiles machine.inputRegisters request.startingAddress request.quantity.toNat rs)
      (hmany : 125 < request.quantity.toNat) : Oversized pdu machine functionCodeReadInputRegisters
  | readWrite (request : ReadWriteMultipleRegistersRequest) (ws rs : List RegisterDescription)
      (hdec : ReadWriteMultipleRegistersRequest.decode pdu = .ok request)
      (hws : WriteTiles machine.registers request.writeStartingAddress request.writeValues.length ws)
      (hrs : ReadTiles machine.registers request.readStartingAddress request.readQuantity.toNat rs)
      (hmany : 125 < request.readQuantity.toNat) : Oversized pdu machine functionCodeReadWriteMultipleRegisters
  | serverId (serverId : String) (hid : machine.serverId = some serverId)
      (hlong : 250 < (utf8 serverId).length) : Oversized pdu machine functionCodeReportServerId

/-- An enabled request to a configured machine whose response outgrows a PDU. -/
def OversizedRequest (unitId : UInt8) (pdu : Bytes) (serverOptions : ServerOptions) (machines : Machines) : Prop :=
  ∃ functionCode machine, pdu.head? = some functionCode ∧ serverOptions.isEnabled functionCode = true ∧
    machines.get unitId = some machine ∧ Oversized pdu machine functionCode

section Size

variable {pdu : Bytes} {machine machine' : ServerMachineState} {functionCode : UInt8} {response : Bytes}

theorem Served.wellFormed (h : Served pdu machine functionCode response machine')
    (hpdu : pdu.length ≤ maxPduLen) (hsize : ¬Oversized pdu machine functionCode) : WellFormed response := by
  have hmax : maxPduLen = 253 := rfl
  cases h with
  | rejected => exact wellFormed_exception _ _
  | readRegisters request rs hdec hrs =>
    have hfew : request.quantity.toNat ≤ 125 := not_lt.mp fun hmany => hsize (.registers request rs hdec hrs hmany)
    refine wellFormed_of_encode (k := .readHoldingRegistersResponse) rfl rfl ?_
    rw [ReadHoldingRegistersResponse.encode, length_encodeRegisterArrayResponse, length_flatMap_registerWords hrs]
    omega
  | writeSingle => exact wellFormed_of_encode (k := .writeSingleRegisterResponse) rfl rfl (show 5 ≤ 253 by decide)
  | writeMultiple => exact wellFormed_of_encode (k := .writeMultipleRegistersResponse) rfl rfl (show 5 ≤ 253 by decide)
  | maskWrite => exact wellFormed_of_encode (k := .maskWriteRegisterResponse) rfl rfl (show 7 ≤ 253 by decide)
  | readWrite request ws rs store hdec hws hrs hstore =>
    have hfew : request.readQuantity.toNat ≤ 125 :=
      not_lt.mp fun hmany => hsize (.readWrite request ws rs hdec hws hrs hmany)
    refine wellFormed_of_encode (k := .readWriteMultipleRegistersResponse) rfl rfl ?_
    rw [ReadWriteMultipleRegistersResponse.encode, length_encodeRegisterArrayResponse,
      length_flatMap_registerWords hrs]
    omega
  | reportServerId serverId hid =>
    have hshort : (utf8 serverId).length ≤ 250 := not_lt.mp fun hlong => hsize (.serverId serverId hid hlong)
    refine wellFormed_of_encode (k := .reportServerIdResponse) rfl rfl ?_
    rw [ReportServerIdResponse.length_encode]
    dsimp only
    omega
  | readCoils request values hdec hlen hconf =>
    have hfew : request.quantity.toNat ≤ 2008 := not_lt.mp fun hmany => hsize (.coils request hdec hconf hmany)
    refine wellFormed_of_encode (k := .readCoilsResponse) rfl rfl ?_
    rw [ReadCoilsResponse.encode, length_encodeBitfieldResponse, hlen, divCeil_eight]
    omega
  | writeSingleCoil => exact wellFormed_of_encode (k := .writeSingleCoilResponse) rfl rfl (show 5 ≤ 253 by decide)
  | writeMultipleCoils => exact wellFormed_of_encode (k := .writeMultipleCoilsResponse) rfl rfl (show 5 ≤ 253 by decide)
  | readDiscreteInputs request values hdec hlen hconf =>
    have hfew : request.quantity.toNat ≤ 2008 :=
      not_lt.mp fun hmany => hsize (.discreteInputs request hdec hconf hmany)
    refine wellFormed_of_encode (k := .readDiscreteInputsResponse) rfl rfl ?_
    rw [ReadDiscreteInputsResponse.encode, length_encodeBitfieldResponse, hlen, divCeil_eight]
    omega
  | readInputRegisters request rs hdec hrs =>
    have hfew : request.quantity.toNat ≤ 125 :=
      not_lt.mp fun hmany => hsize (.inputRegisters request rs hdec hrs hmany)
    refine wellFormed_of_encode (k := .readInputRegistersResponse) rfl rfl ?_
    rw [ReadInputRegistersResponse.encode, length_encodeRegisterArrayResponse, length_flatMap_registerWords hrs]
    omega
  | readFileRecord request resolved hdec hres hlen =>
    exact wellFormed_of_encode (k := .readFileRecordResponse) rfl rfl hlen
  | writeFileRecord request response hdec hall henc =>
    obtain ⟨subRequests, hsub, rfl⟩ := map_eq_ok.mp hdec
    exact wellFormed_of_encode (k := .writeFileRecordResponse) rfl henc
      ((length_encode_of_decodeWriteFileRecord hsub henc).trans hpdu)

/-- The device identification handler measures every response it sends. -/
theorem wellFormed_handleReadDeviceIdentification (request : ReadDeviceIdentificationRequest)
    (allObjects : List DeviceIdentificationObject) :
    WellFormed (handleReadDeviceIdentification request allObjects) := by
  unfold handleReadDeviceIdentification
  split
  · exact wellFormed_exception _ _
  · split
    · exact wellFormed_exception _ _
    · next startIndex hstart =>
      obtain ⟨hlt, -⟩ := List.findIdx?_eq_some_iff_getElem.mp hstart
      obtain ⟨k, hpack, -, hfit, -⟩ := packObjects_spec allObjects startIndex [] hlt.le (by decide)
      dsimp only
      split <;>
        exact wellFormed_of_encode (k := .readDeviceIdentificationResponse) rfl rfl
          (by rw [length_objectsResponse, hpack]; exact hfit)

theorem Answered.wellFormed {unitId : UInt8} {serverOptions : ServerOptions} {machines machines' : Machines}
    (h : Answered unitId pdu serverOptions machines (some response) machines') (hpdu : pdu.length ≤ maxPduLen)
    (hsize : ¬OversizedRequest unitId pdu serverOptions machines) : WellFormed response := by
  cases h with
  | rejected => exact wellFormed_exception _ _
  | identification => exact wellFormed_handleReadDeviceIdentification _ _
  | bulkTransfer records hlen => exact wellFormed_of_encode (k := .readFileRecordResponse) rfl rfl hlen
  | served functionCode machine response machine' hhead henabled hget hserved =>
    exact hserved.wellFormed hpdu fun hover => hsize ⟨functionCode, machine, hhead, henabled, hget, hover⟩

/-- The machine does send what outgrows a PDU. -/
theorem Oversized.length_gt (h : Oversized pdu machine functionCode) (hhead : pdu.head? = some functionCode) :
    ∃ response machine', handleMachineRequest functionCode pdu machine = .ok (response, machine') ∧
      maxPduLen < response.length := by
  have hmax : maxPduLen = 253 := rfl
  cases h with
  | coils request hdec hconf hmany =>
    have heq := handleMachineRequest_readCoils pdu machine
    rw [handleReadCoils_of_configured hdec hconf, map_ok] at heq
    refine ⟨_, _, heq, ?_⟩
    rw [ReadCoilsResponse.encode, length_encodeBitfieldResponse, List.length_map, List.length_range,
      divCeil_eight]
    omega
  | discreteInputs request hdec hconf hmany =>
    have heq := handleMachineRequest_readDiscreteInputs pdu machine
    rw [handleReadDiscreteInputs_of_configured hdec hconf, map_ok] at heq
    refine ⟨_, _, heq, ?_⟩
    rw [ReadDiscreteInputsResponse.encode, length_encodeBitfieldResponse, List.length_map, List.length_range,
      divCeil_eight]
    omega
  | registers request rs hdec hrs hmany =>
    have heq := handleMachineRequest_readHoldingRegisters pdu machine
    rw [handleRead_of_tiles hdec hrs, map_ok] at heq
    refine ⟨_, _, heq, ?_⟩
    rw [ReadHoldingRegistersResponse.encode, length_encodeRegisterArrayResponse, length_flatMap_registerWords hrs]
    omega
  | inputRegisters request rs hdec hrs hmany =>
    have heq := handleMachineRequest_readInputRegisters pdu machine
    rw [handleReadInputRegisters_of_tiles hdec hrs, map_ok] at heq
    refine ⟨_, _, heq, ?_⟩
    rw [ReadInputRegistersResponse.encode, length_encodeRegisterArrayResponse, length_flatMap_registerWords hrs]
    omega
  | readWrite request ws rs hdec hws hrs hmany =>
    have heq := handleMachineRequest_readWriteMultipleRegisters pdu machine
    rw [handleReadWriteMultipleRegisters_of_tiles hdec hws hrs, map_ok] at heq
    refine ⟨_, _, heq, ?_⟩
    rw [ReadWriteMultipleRegistersResponse.encode, length_encodeRegisterArrayResponse,
      length_flatMap_registerWords hrs]
    omega
  | serverId serverId hid hlong =>
    have hdec : ReportServerIdRequest.decode pdu = .ok ⟨⟩ := by simp [ReportServerIdRequest.decode, hhead]
    have heq := handleMachineRequest_reportServerId pdu machine
    simp only [handleReportServerId, hdec, letOk_ok, hid, map_ok] at heq
    refine ⟨_, _, heq, ?_⟩
    rw [ReportServerIdResponse.length_encode]
    dsimp only
    omega

theorem Oversized.ne_special (h : Oversized pdu machine functionCode) :
    functionCode ≠ functionCodeEncapsulatedInterfaceTransport ∧ functionCode ≠ functionCodeReadFileRecord := by
  cases h <;> decide

/-- An oversized request is answered with more than a PDU. -/
theorem OversizedRequest.not_wellFormed {unitId : UInt8} {serverOptions : ServerOptions} {machines : Machines}
    (h : OversizedRequest unitId pdu serverOptions machines) (tomlSource : String)
    (fc43BulkTransfer : Fc43BulkTransfer) : ∃ response machines',
      handleRequest unitId pdu serverOptions machines tomlSource fc43BulkTransfer = .ok (some response, machines') ∧
        ¬WellFormed response := by
  obtain ⟨functionCode, machine, hhead, henabled, hget, hover⟩ := h
  obtain ⟨response, machine', heq, hlong⟩ := hover.length_gt hhead
  obtain ⟨hidentification, hfile⟩ := hover.ne_special
  refine ⟨response, machines.set unitId machine', ?_, fun hwell => absurd hwell.fits (not_le.mpr hlong)⟩
  rw [handleRequest_of_machine hhead henabled hget hidentification hfile, heq, map_ok]

end Size

/-- What is sent is well formed exactly when the request does not ask for more than
a PDU holds. -/
theorem response_wellFormed_iff (unitId : UInt8) (pdu : Bytes) (serverOptions : ServerOptions)
    (machines machines' : Machines) (tomlSource : String) (fc43BulkTransfer : Fc43BulkTransfer) {response : Bytes}
    (hpdu : pdu.length ≤ maxPduLen)
    (h : handleRequest unitId pdu serverOptions machines tomlSource fc43BulkTransfer =
      .ok (some response, machines')) :
    WellFormed response ↔ ¬OversizedRequest unitId pdu serverOptions machines := by
  constructor
  · intro hwell hover
    obtain ⟨response', machines'', heq, hnot⟩ := hover.not_wellFormed tomlSource fc43BulkTransfer
    obtain ⟨hresponse, -⟩ := Prod.mk.inj (Outcome.ok.inj (heq.symm.trans h))
    exact hnot (Option.some.inj hresponse ▸ hwell)
  · intro hsize
    obtain ⟨response', machines'', heq, hanswered⟩ :=
      handleRequest_answered unitId pdu serverOptions machines tomlSource fc43BulkTransfer
    obtain ⟨rfl, -⟩ := Prod.mk.inj (Outcome.ok.inj (heq.symm.trans h))
    exact hanswered.wellFormed hpdu hsize

/-- A machine with an identity and nothing else. -/
def identityOnly (serverId : String) : ServerMachineState :=
  .fresh ⟨"m", 1, [], [], [], [], [], .abcd, .abcd, some serverId⟩

/-- A short identity is reported in a well-formed response. -/
theorem response_wellFormed_iff_plc :
    WellFormed [0x11, 0x04, 0x70, 0x6C, 0x63, 0xFF] ↔
      ¬OversizedRequest 1 [0x11] .allowAll (Store.empty.set 1 (identityOnly "plc")) :=
  response_wellFormed_iff 1 [0x11] .allowAll _ ((Store.empty.set 1 (identityOnly "plc")).set 1 (identityOnly "plc"))
    "" ⟨[], ""⟩ (by decide) rfl

/-- An identity of 251 bytes is accepted and reported in 254. -/
theorem response_too_long : ∃ response machines',
    handleRequest 1 [0x11] .allowAll
      (Store.empty.set 1 (identityOnly (String.ofList (List.replicate 251 'A')))) "" ⟨[], ""⟩ =
        .ok (some response, machines') ∧ ¬WellFormed response :=
  OversizedRequest.not_wellFormed
    ⟨functionCodeReportServerId, _, rfl, rfl, rfl, .serverId _ rfl (by decide +kernel)⟩ "" ⟨[], ""⟩

end InfusedModbus.Server
