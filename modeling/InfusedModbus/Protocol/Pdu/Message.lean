import InfusedModbus.Protocol.Pdu.Bits
import InfusedModbus.Protocol.Pdu.Device
import InfusedModbus.Protocol.Pdu.FileRecord
import InfusedModbus.Protocol.Pdu.Registers

/-! All PDU types under one index, and the round trip over the whole format. A PDU
of at most 253 bytes is short enough that no length field of its encoding was cut
down to its wire width, so decoding recovers the message; only the padding bits of
the two bit responses come back as extra values. -/

namespace InfusedModbus.Protocol

open Foundation Foundation.Outcome

/-- The largest PDU. -/
def maxPduLen : ℕ := 253

/-- The request and response types of the format. -/
inductive Kind where
  | readCoilsRequest
  | readCoilsResponse
  | readDiscreteInputsRequest
  | readDiscreteInputsResponse
  | readHoldingRegistersRequest
  | readHoldingRegistersResponse
  | readInputRegistersRequest
  | readInputRegistersResponse
  | writeSingleCoilRequest
  | writeSingleCoilResponse
  | writeSingleRegisterRequest
  | writeSingleRegisterResponse
  | maskWriteRegisterRequest
  | maskWriteRegisterResponse
  | reportServerIdRequest
  | reportServerIdResponse
  | readWriteMultipleRegistersRequest
  | readWriteMultipleRegistersResponse
  | writeMultipleCoilsRequest
  | writeMultipleCoilsResponse
  | writeMultipleRegistersRequest
  | writeMultipleRegistersResponse
  | readFileRecordRequest
  | readFileRecordResponse
  | writeFileRecordRequest
  | writeFileRecordResponse
  | readDeviceIdentificationRequest
  | readDeviceIdentificationResponse
  | exceptionResponse
  deriving DecidableEq, Repr

/-- The messages of a type. -/
@[reducible] def Kind.Payload : Kind → Type
  | .readCoilsRequest => ReadCoilsRequest
  | .readCoilsResponse => ReadCoilsResponse
  | .readDiscreteInputsRequest => ReadDiscreteInputsRequest
  | .readDiscreteInputsResponse => ReadDiscreteInputsResponse
  | .readHoldingRegistersRequest => ReadHoldingRegistersRequest
  | .readHoldingRegistersResponse => ReadHoldingRegistersResponse
  | .readInputRegistersRequest => ReadInputRegistersRequest
  | .readInputRegistersResponse => ReadInputRegistersResponse
  | .writeSingleCoilRequest => WriteSingleCoilRequest
  | .writeSingleCoilResponse => WriteSingleCoilResponse
  | .writeSingleRegisterRequest => WriteSingleRegisterRequest
  | .writeSingleRegisterResponse => WriteSingleRegisterResponse
  | .maskWriteRegisterRequest => MaskWriteRegisterRequest
  | .maskWriteRegisterResponse => MaskWriteRegisterResponse
  | .reportServerIdRequest => ReportServerIdRequest
  | .reportServerIdResponse => ReportServerIdResponse
  | .readWriteMultipleRegistersRequest => ReadWriteMultipleRegistersRequest
  | .readWriteMultipleRegistersResponse => ReadWriteMultipleRegistersResponse
  | .writeMultipleCoilsRequest => WriteMultipleCoilsRequest
  | .writeMultipleCoilsResponse => WriteMultipleCoilsResponse
  | .writeMultipleRegistersRequest => WriteMultipleRegistersRequest
  | .writeMultipleRegistersResponse => WriteMultipleRegistersResponse
  | .readFileRecordRequest => ReadFileRecordRequest
  | .readFileRecordResponse => ReadFileRecordResponse
  | .writeFileRecordRequest => WriteFileRecordRequest
  | .writeFileRecordResponse => WriteFileRecordResponse
  | .readDeviceIdentificationRequest => ReadDeviceIdentificationRequest
  | .readDeviceIdentificationResponse => ReadDeviceIdentificationResponse
  | .exceptionResponse => ExceptionResponse

def encode : (k : Kind) → k.Payload → Outcome EncodeError Bytes
  | .readCoilsRequest, m => .ok (ReadCoilsRequest.encode m)
  | .readCoilsResponse, m => .ok (ReadCoilsResponse.encode m)
  | .readDiscreteInputsRequest, m => .ok (ReadDiscreteInputsRequest.encode m)
  | .readDiscreteInputsResponse, m => .ok (ReadDiscreteInputsResponse.encode m)
  | .readHoldingRegistersRequest, m => .ok (ReadHoldingRegistersRequest.encode m)
  | .readHoldingRegistersResponse, m => .ok (ReadHoldingRegistersResponse.encode m)
  | .readInputRegistersRequest, m => .ok (ReadInputRegistersRequest.encode m)
  | .readInputRegistersResponse, m => .ok (ReadInputRegistersResponse.encode m)
  | .writeSingleCoilRequest, m => .ok (WriteSingleCoilRequest.encode m)
  | .writeSingleCoilResponse, m => .ok (WriteSingleCoilResponse.encode m)
  | .writeSingleRegisterRequest, m => .ok (WriteSingleRegisterRequest.encode m)
  | .writeSingleRegisterResponse, m => .ok (WriteSingleRegisterResponse.encode m)
  | .maskWriteRegisterRequest, m => .ok (MaskWriteRegisterRequest.encode m)
  | .maskWriteRegisterResponse, m => .ok (MaskWriteRegisterResponse.encode m)
  | .reportServerIdRequest, m => .ok (ReportServerIdRequest.encode m)
  | .reportServerIdResponse, m => .ok (ReportServerIdResponse.encode m)
  | .readWriteMultipleRegistersRequest, m => ReadWriteMultipleRegistersRequest.encode m
  | .readWriteMultipleRegistersResponse, m => .ok (ReadWriteMultipleRegistersResponse.encode m)
  | .writeMultipleCoilsRequest, m => .ok (WriteMultipleCoilsRequest.encode m)
  | .writeMultipleCoilsResponse, m => .ok (WriteMultipleCoilsResponse.encode m)
  | .writeMultipleRegistersRequest, m => WriteMultipleRegistersRequest.encode m
  | .writeMultipleRegistersResponse, m => .ok (WriteMultipleRegistersResponse.encode m)
  | .readFileRecordRequest, m => .ok (ReadFileRecordRequest.encode m)
  | .readFileRecordResponse, m => .ok (ReadFileRecordResponse.encode m)
  | .writeFileRecordRequest, m => WriteFileRecordRequest.encode m
  | .writeFileRecordResponse, m => WriteFileRecordResponse.encode m
  | .readDeviceIdentificationRequest, m => .ok (ReadDeviceIdentificationRequest.encode m)
  | .readDeviceIdentificationResponse, m => .ok (ReadDeviceIdentificationResponse.encode m)
  | .exceptionResponse, m => .ok (ExceptionResponse.encode m)

def decode : (k : Kind) → Bytes → Outcome DecodeError k.Payload
  | .readCoilsRequest, bytes => ReadCoilsRequest.decode bytes
  | .readCoilsResponse, bytes => ReadCoilsResponse.decode bytes
  | .readDiscreteInputsRequest, bytes => ReadDiscreteInputsRequest.decode bytes
  | .readDiscreteInputsResponse, bytes => ReadDiscreteInputsResponse.decode bytes
  | .readHoldingRegistersRequest, bytes => ReadHoldingRegistersRequest.decode bytes
  | .readHoldingRegistersResponse, bytes => ReadHoldingRegistersResponse.decode bytes
  | .readInputRegistersRequest, bytes => ReadInputRegistersRequest.decode bytes
  | .readInputRegistersResponse, bytes => ReadInputRegistersResponse.decode bytes
  | .writeSingleCoilRequest, bytes => WriteSingleCoilRequest.decode bytes
  | .writeSingleCoilResponse, bytes => WriteSingleCoilResponse.decode bytes
  | .writeSingleRegisterRequest, bytes => WriteSingleRegisterRequest.decode bytes
  | .writeSingleRegisterResponse, bytes => WriteSingleRegisterResponse.decode bytes
  | .maskWriteRegisterRequest, bytes => MaskWriteRegisterRequest.decode bytes
  | .maskWriteRegisterResponse, bytes => MaskWriteRegisterResponse.decode bytes
  | .reportServerIdRequest, bytes => ReportServerIdRequest.decode bytes
  | .reportServerIdResponse, bytes => ReportServerIdResponse.decode bytes
  | .readWriteMultipleRegistersRequest, bytes => ReadWriteMultipleRegistersRequest.decode bytes
  | .readWriteMultipleRegistersResponse, bytes => ReadWriteMultipleRegistersResponse.decode bytes
  | .writeMultipleCoilsRequest, bytes => WriteMultipleCoilsRequest.decode bytes
  | .writeMultipleCoilsResponse, bytes => WriteMultipleCoilsResponse.decode bytes
  | .writeMultipleRegistersRequest, bytes => WriteMultipleRegistersRequest.decode bytes
  | .writeMultipleRegistersResponse, bytes => WriteMultipleRegistersResponse.decode bytes
  | .readFileRecordRequest, bytes => ReadFileRecordRequest.decode bytes
  | .readFileRecordResponse, bytes => ReadFileRecordResponse.decode bytes
  | .writeFileRecordRequest, bytes => WriteFileRecordRequest.decode bytes
  | .writeFileRecordResponse, bytes => WriteFileRecordResponse.decode bytes
  | .readDeviceIdentificationRequest, bytes => ReadDeviceIdentificationRequest.decode bytes
  | .readDeviceIdentificationResponse, bytes => ReadDeviceIdentificationResponse.decode bytes
  | .exceptionResponse, bytes => ExceptionResponse.decode bytes

/-- Bits followed by false up to the next multiple of eight. -/
def padBits (values : List Bool) : List Bool :=
  values ++ List.replicate (8 * divCeil values.length 8 - values.length) false

/-- The message with its padding bits made explicit. -/
def padded : (k : Kind) → k.Payload → k.Payload
  | .readCoilsResponse, m => ⟨padBits m.coilValues⟩
  | .readDiscreteInputsResponse, m => ⟨padBits m.discreteInputValues⟩
  | _, m => m

/-- Messages whose wire form is unambiguous: a file record read asks for something,
and an exception names a function code without the exception bit. -/
def Unambiguous : (k : Kind) → k.Payload → Prop
  | .readFileRecordRequest, m => m.subRequests ≠ []
  | .exceptionResponse, m => m.functionCode < 0x80
  | _, _ => True

/-! ### Round trip -/

theorem decode_bitfieldResponse_encode {functionCode : UInt8} {values : List Bool}
    (h : (encodeBitfieldResponse functionCode values).length ≤ maxPduLen) :
    decodeBitfieldResponse (encodeBitfieldResponse functionCode values) functionCode = .ok (padBits values) := by
  rw [length_encodeBitfieldResponse, maxPduLen] at h
  exact decodeBitfieldResponse_encode functionCode (by omega)

theorem decode_registerArrayResponse_encode {functionCode : UInt8} {registerValues : List UInt16}
    (h : (encodeRegisterArrayResponse functionCode registerValues).length ≤ maxPduLen) :
    decodeRegisterArrayResponse (encodeRegisterArrayResponse functionCode registerValues) functionCode =
      .ok registerValues := by
  rw [length_encodeRegisterArrayResponse, maxPduLen] at h
  exact decodeRegisterArrayResponse_encode functionCode (by omega)

theorem decode_readFileRecordResponse_encode {m : ReadFileRecordResponse} (h : m.encode.length ≤ maxPduLen) :
    ReadFileRecordResponse.decode m.encode = .ok m := by
  rw [ReadFileRecordResponse.length_encode, maxPduLen] at h
  exact ReadFileRecordResponse.decode_encode (by omega)

theorem decode_readDeviceIdentificationResponse_encode {m : ReadDeviceIdentificationResponse}
    (h : m.encode.length ≤ maxPduLen) : ReadDeviceIdentificationResponse.decode m.encode = .ok m := by
  rw [ReadDeviceIdentificationResponse.length_encode, maxPduLen] at h
  have hcount : m.objects.length * 2 ≤ (m.objects.map fun o => 2 + o.value.length).sum := by
    simp [List.sum_map_add]
  refine ReadDeviceIdentificationResponse.decode_encode (by omega) fun o ho => ?_
  have hle := List.le_sum_of_mem (List.mem_map_of_mem
    (f := fun o : DeviceIdentificationObject => 2 + o.value.length) ho)
  omega

/-- The bytes of an unambiguous message that fit a PDU. -/
structure Fits (k : Kind) (m : k.Payload) (bytes : Bytes) : Prop where
  encoded : encode k m = .ok bytes
  short : bytes.length ≤ maxPduLen
  unambiguous : Unambiguous k m

theorem Fits.decode_eq {k : Kind} {m : k.Payload} {bytes : Bytes} (hfits : Fits k m bytes) :
    decode k bytes = .ok (padded k m) := by
  obtain ⟨h, hlen, hm⟩ := hfits
  have hmax : maxPduLen = 253 := rfl
  cases k with
  | readCoilsRequest | readDiscreteInputsRequest | readHoldingRegistersRequest | readInputRegistersRequest =>
    obtain rfl := Outcome.ok.inj h
    simp [decode, padded, ReadCoilsRequest.decode, ReadCoilsRequest.encode, ReadDiscreteInputsRequest.decode,
      ReadDiscreteInputsRequest.encode, ReadHoldingRegistersRequest.decode, ReadHoldingRegistersRequest.encode,
      ReadInputRegistersRequest.decode, ReadInputRegistersRequest.encode]
  | writeSingleRegisterRequest | writeSingleRegisterResponse | writeMultipleCoilsResponse
  | writeMultipleRegistersResponse =>
    obtain rfl := Outcome.ok.inj h
    simp [decode, padded, WriteSingleRegisterRequest.decode, WriteSingleRegisterRequest.encode,
      WriteSingleRegisterResponse.decode, WriteSingleRegisterResponse.encode, WriteMultipleCoilsResponse.decode,
      WriteMultipleCoilsResponse.encode, WriteMultipleRegistersResponse.decode,
      WriteMultipleRegistersResponse.encode]
  | writeSingleCoilRequest | writeSingleCoilResponse =>
    obtain rfl := Outcome.ok.inj h
    exact map_eq_ok.mpr ⟨_, decodeWriteSingleCoil_encode _ _, rfl⟩
  | maskWriteRegisterRequest | maskWriteRegisterResponse =>
    obtain rfl := Outcome.ok.inj h
    simp [decode, padded, MaskWriteRegisterRequest.decode, MaskWriteRegisterRequest.encode,
      MaskWriteRegisterResponse.decode, MaskWriteRegisterResponse.encode, decodeMaskWriteRegister_encode]
  | readCoilsResponse | readDiscreteInputsResponse =>
    obtain rfl := Outcome.ok.inj h
    exact map_eq_ok.mpr ⟨_, decode_bitfieldResponse_encode hlen, rfl⟩
  | readHoldingRegistersResponse | readInputRegistersResponse | readWriteMultipleRegistersResponse =>
    obtain rfl := Outcome.ok.inj h
    exact map_eq_ok.mpr ⟨_, decode_registerArrayResponse_encode hlen, rfl⟩
  | reportServerIdRequest =>
    obtain rfl := Outcome.ok.inj h
    rfl
  | reportServerIdResponse =>
    obtain rfl := Outcome.ok.inj h
    rw [ReportServerIdResponse.length_encode] at hlen
    exact ReportServerIdResponse.decode_encode (by omega)
  | readWriteMultipleRegistersRequest => exact ReadWriteMultipleRegistersRequest.decode_encode h
  | writeMultipleCoilsRequest =>
    obtain rfl := Outcome.ok.inj h
    rw [WriteMultipleCoilsRequest.length_encode] at hlen
    exact WriteMultipleCoilsRequest.decode_encode (by omega)
  | writeMultipleRegistersRequest => exact WriteMultipleRegistersRequest.decode_encode h
  | readFileRecordRequest =>
    obtain rfl := Outcome.ok.inj h
    rw [ReadFileRecordRequest.length_encode] at hlen
    exact ReadFileRecordRequest.decode_encode hm (by rw [fileRecordSubRequestLen]; omega)
  | readFileRecordResponse =>
    obtain rfl := Outcome.ok.inj h
    exact decode_readFileRecordResponse_encode hlen
  | writeFileRecordRequest | writeFileRecordResponse =>
    exact map_eq_ok.mpr ⟨_, decodeWriteFileRecord_encode h (by omega), rfl⟩
  | readDeviceIdentificationRequest =>
    obtain rfl := Outcome.ok.inj h
    exact ReadDeviceIdentificationRequest.decode_encode m
  | readDeviceIdentificationResponse =>
    obtain rfl := Outcome.ok.inj h
    exact decode_readDeviceIdentificationResponse_encode hlen
  | exceptionResponse =>
    obtain rfl := Outcome.ok.inj h
    exact ExceptionResponse.decode_encode hm

/-- What fits a PDU is decoded to what was encoded, whatever the type. -/
theorem pdu_round_trip (k : Kind) (m : k.Payload) {bytes : Bytes} (h : encode k m = .ok bytes)
    (hlen : bytes.length ≤ maxPduLen) (hm : Unambiguous k m) : decode k bytes = .ok (padded k m) :=
  Fits.decode_eq ⟨h, hlen, hm⟩

/-- Three coils come back as eight. -/
theorem pdu_round_trip_three_coils :
    decode .readCoilsResponse [0x01, 0x01, 0x05] =
      .ok ⟨[true, false, true, false, false, false, false, false]⟩ :=
  pdu_round_trip .readCoilsResponse ⟨[true, false, true]⟩ (by decide) (by decide) trivial

end InfusedModbus.Protocol
