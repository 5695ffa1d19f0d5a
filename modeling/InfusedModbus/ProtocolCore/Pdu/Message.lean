import InfusedModbus.Protocol.Pdu.Message
import InfusedModbus.ProtocolCore.Pdu.Bits
import InfusedModbus.ProtocolCore.Pdu.Device
import InfusedModbus.ProtocolCore.Pdu.FileRecord
import InfusedModbus.ProtocolCore.Pdu.Registers

/-! All PDU types of the port under the index of the original codec, and how far the
two agree. Every capacity covers every PDU except in three places: a bit response may
carry 2008 bits, a file record response 125 empty records, and an identification 123
empty objects. There, and nowhere else, the port refuses what the original accepts. -/

namespace InfusedModbus.ProtocolCore

open Foundation Foundation.Outcome Protocol

/-- The messages of a type. -/
@[reducible] def Payload : Kind → Type
  | .readCoilsRequest => ReadCoilsRequest
  | .readCoilsResponse => ReadCoilsResponse
  | .readDiscreteInputsRequest => ReadDiscreteInputsRequest
  | .readDiscreteInputsResponse => ReadDiscreteInputsResponse
  | .readHoldingRegistersRequest => ReadHoldingRegistersRequest
  | .readHoldingRegistersResponse => ReadHoldingRegistersResponse
  | .readInputRegistersRequest => ReadInputRegistersRequest
  | .readInputRegistersResponse => ReadInputRegistersResponse
  | .writeSingleCoilRequest => WriteSingleCoilRequest
  | .writeSingleCoilResponse => WriteSingleCoilResponse
  | .writeSingleRegisterRequest => WriteSingleRegisterRequest
  | .writeSingleRegisterResponse => WriteSingleRegisterResponse
  | .maskWriteRegisterRequest => MaskWriteRegisterRequest
  | .maskWriteRegisterResponse => MaskWriteRegisterResponse
  | .reportServerIdRequest => ReportServerIdRequest
  | .reportServerIdResponse => ReportServerIdResponse
  | .readWriteMultipleRegistersRequest => ReadWriteMultipleRegistersRequest
  | .readWriteMultipleRegistersResponse => ReadWriteMultipleRegistersResponse
  | .writeMultipleCoilsRequest => WriteMultipleCoilsRequest
  | .writeMultipleCoilsResponse => WriteMultipleCoilsResponse
  | .writeMultipleRegistersRequest => WriteMultipleRegistersRequest
  | .writeMultipleRegistersResponse => WriteMultipleRegistersResponse
  | .readFileRecordRequest => ReadFileRecordRequest
  | .readFileRecordResponse => ReadFileRecordResponse
  | .writeFileRecordRequest => WriteFileRecordRequest
  | .writeFileRecordResponse => WriteFileRecordResponse
  | .readDeviceIdentificationRequest => ReadDeviceIdentificationRequest
  | .readDeviceIdentificationResponse => ReadDeviceIdentificationResponse
  | .exceptionResponse => ExceptionResponse

def encode : (k : Kind) → Payload k → Outcome EncodeError PduBytes
  | .readCoilsRequest, m => ReadCoilsRequest.encode m
  | .readCoilsResponse, m => ReadCoilsResponse.encode m
  | .readDiscreteInputsRequest, m => ReadDiscreteInputsRequest.encode m
  | .readDiscreteInputsResponse, m => ReadDiscreteInputsResponse.encode m
  | .readHoldingRegistersRequest, m => ReadHoldingRegistersRequest.encode m
  | .readHoldingRegistersResponse, m => ReadHoldingRegistersResponse.encode m
  | .readInputRegistersRequest, m => ReadInputRegistersRequest.encode m
  | .readInputRegistersResponse, m => ReadInputRegistersResponse.encode m
  | .writeSingleCoilRequest, m => WriteSingleCoilRequest.encode m
  | .writeSingleCoilResponse, m => WriteSingleCoilResponse.encode m
  | .writeSingleRegisterRequest, m => WriteSingleRegisterRequest.encode m
  | .writeSingleRegisterResponse, m => WriteSingleRegisterResponse.encode m
  | .maskWriteRegisterRequest, m => MaskWriteRegisterRequest.encode m
  | .maskWriteRegisterResponse, m => MaskWriteRegisterResponse.encode m
  | .reportServerIdRequest, m => ReportServerIdRequest.encode m
  | .reportServerIdResponse, m => ReportServerIdResponse.encode m
  | .readWriteMultipleRegistersRequest, m => ReadWriteMultipleRegistersRequest.encode m
  | .readWriteMultipleRegistersResponse, m => ReadWriteMultipleRegistersResponse.encode m
  | .writeMultipleCoilsRequest, m => WriteMultipleCoilsRequest.encode m
  | .writeMultipleCoilsResponse, m => WriteMultipleCoilsResponse.encode m
  | .writeMultipleRegistersRequest, m => WriteMultipleRegistersRequest.encode m
  | .writeMultipleRegistersResponse, m => WriteMultipleRegistersResponse.encode m
  | .readFileRecordRequest, m => ReadFileRecordRequest.encode m
  | .readFileRecordResponse, m => ReadFileRecordResponse.encode m
  | .writeFileRecordRequest, m => WriteFileRecordRequest.encode m
  | .writeFileRecordResponse, m => WriteFileRecordResponse.encode m
  | .readDeviceIdentificationRequest, m => ReadDeviceIdentificationRequest.encode m
  | .readDeviceIdentificationResponse, m => ReadDeviceIdentificationResponse.encode m
  | .exceptionResponse, m => ExceptionResponse.encode m

def decode : (k : Kind) → Bytes → Outcome DecodeError (Payload k)
  | .readCoilsRequest, bytes => ReadCoilsRequest.decode bytes
  | .readCoilsResponse, bytes => ReadCoilsResponse.decode bytes
  | .readDiscreteInputsRequest, bytes => ReadDiscreteInputsRequest.decode bytes
  | .readDiscreteInputsResponse, bytes => ReadDiscreteInputsResponse.decode bytes
  | .readHoldingRegistersRequest, bytes => ReadHoldingRegistersRequest.decode bytes
  | .readHoldingRegistersResponse, bytes => ReadHoldingRegistersResponse.decode bytes
  | .readInputRegistersRequest, bytes => ReadInputRegistersRequest.decode bytes
  | .readInputRegistersResponse, bytes => ReadInputRegistersResponse.decode bytes
  | .writeSingleCoilRequest, bytes => WriteSingleCoilRequest.decode bytes
  | .writeSingleCoilResponse, bytes => WriteSingleCoilResponse.decode bytes
  | .writeSingleRegisterRequest, bytes => WriteSingleRegisterRequest.decode bytes
  | .writeSingleRegisterResponse, bytes => WriteSingleRegisterResponse.decode bytes
  | .maskWriteRegisterRequest, bytes => MaskWriteRegisterRequest.decode bytes
  | .maskWriteRegisterResponse, bytes => MaskWriteRegisterResponse.decode bytes
  | .reportServerIdRequest, bytes => ReportServerIdRequest.decode bytes
  | .reportServerIdResponse, bytes => ReportServerIdResponse.decode bytes
  | .readWriteMultipleRegistersRequest, bytes => ReadWriteMultipleRegistersRequest.decode bytes
  | .readWriteMultipleRegistersResponse, bytes => ReadWriteMultipleRegistersResponse.decode bytes
  | .writeMultipleCoilsRequest, bytes => WriteMultipleCoilsRequest.decode bytes
  | .writeMultipleCoilsResponse, bytes => WriteMultipleCoilsResponse.decode bytes
  | .writeMultipleRegistersRequest, bytes => WriteMultipleRegistersRequest.decode bytes
  | .writeMultipleRegistersResponse, bytes => WriteMultipleRegistersResponse.decode bytes
  | .readFileRecordRequest, bytes => ReadFileRecordRequest.decode bytes
  | .readFileRecordResponse, bytes => ReadFileRecordResponse.decode bytes
  | .writeFileRecordRequest, bytes => WriteFileRecordRequest.decode bytes
  | .writeFileRecordResponse, bytes => WriteFileRecordResponse.decode bytes
  | .readDeviceIdentificationRequest, bytes => ReadDeviceIdentificationRequest.decode bytes
  | .readDeviceIdentificationResponse, bytes => ReadDeviceIdentificationResponse.decode bytes
  | .exceptionResponse, bytes => ExceptionResponse.decode bytes

/-- The message of the original codec with the same fields, lists compared as lists. -/
def toProtocol : (k : Kind) → Payload k → k.Payload
  | .readCoilsRequest, m => m
  | .readCoilsResponse, m => ReadCoilsResponse.toProtocol m
  | .readDiscreteInputsRequest, m => m
  | .readDiscreteInputsResponse, m => ReadDiscreteInputsResponse.toProtocol m
  | .readHoldingRegistersRequest, m => m
  | .readHoldingRegistersResponse, m => ReadHoldingRegistersResponse.toProtocol m
  | .readInputRegistersRequest, m => m
  | .readInputRegistersResponse, m => ReadInputRegistersResponse.toProtocol m
  | .writeSingleCoilRequest, m => m
  | .writeSingleCoilResponse, m => m
  | .writeSingleRegisterRequest, m => m
  | .writeSingleRegisterResponse, m => m
  | .maskWriteRegisterRequest, m => m
  | .maskWriteRegisterResponse, m => m
  | .reportServerIdRequest, m => m
  | .reportServerIdResponse, m => ReportServerIdResponse.toProtocol m
  | .readWriteMultipleRegistersRequest, m => ReadWriteMultipleRegistersRequest.toProtocol m
  | .readWriteMultipleRegistersResponse, m => ReadWriteMultipleRegistersResponse.toProtocol m
  | .writeMultipleCoilsRequest, m => WriteMultipleCoilsRequest.toProtocol m
  | .writeMultipleCoilsResponse, m => m
  | .writeMultipleRegistersRequest, m => WriteMultipleRegistersRequest.toProtocol m
  | .writeMultipleRegistersResponse, m => m
  | .readFileRecordRequest, m => ReadFileRecordRequest.toProtocol m
  | .readFileRecordResponse, m => ReadFileRecordResponse.toProtocol m
  | .writeFileRecordRequest, m => WriteFileRecordRequest.toProtocol m
  | .writeFileRecordResponse, m => WriteFileRecordResponse.toProtocol m
  | .readDeviceIdentificationRequest, m => m
  | .readDeviceIdentificationResponse, m => ReadDeviceIdentificationResponse.toProtocol m
  | .exceptionResponse, m => m

/-! ### Room -/

/-- A message of the original codec that the port has room for. -/
def Representable : (k : Kind) → k.Payload → Prop
  | .readCoilsResponse, m => m.coilValues.length ≤ maxBitCount
  | .readDiscreteInputsResponse, m => m.discreteInputValues.length ≤ maxBitCount
  | .readFileRecordResponse, m => m.records.length ≤ maxFileRecords
  | .readDeviceIdentificationResponse, m => m.objects.length ≤ maxDeviceIdentificationObjects
  | _, _ => True

/-- The front of a byte string holds more bits, records or objects than the port has room
for, counted up to the end of the message or the first malformed entry. -/
def Crowded : Kind → Bytes → Prop
  | .readCoilsResponse, bytes =>
    ∃ values, Protocol.decodeBitfieldResponse bytes functionCodeReadCoils = .ok values ∧ maxBitCount < values.length
  | .readDiscreteInputsResponse, bytes =>
    ∃ values, Protocol.decodeBitfieldResponse bytes functionCodeReadDiscreteInputs = .ok values ∧ maxBitCount < values.length
  | .readFileRecordResponse, bytes => maxFileRecords < ReadFileRecordResponse.recordsCarried bytes
  | .readDeviceIdentificationResponse, bytes =>
    maxDeviceIdentificationObjects < ReadDeviceIdentificationResponse.objectsCarried bytes
  | _, _ => False

/-- The padding bits of a message of packed bits are zero. -/
def ZeroPadding : (k : Kind) → Payload k → Prop
  | .readCoilsResponse, m => m.coilValues.ZeroPadding
  | .readDiscreteInputsResponse, m => m.discreteInputValues.ZeroPadding
  | .writeMultipleCoilsRequest, m => m.coilValues.ZeroPadding
  | _, _ => True

/-! ### Decoding -/

theorem decodeBitfieldResponse_of_lt {bytes : Bytes} {functionCode : UInt8} {values : List Bool}
    (h : Protocol.decodeBitfieldResponse bytes functionCode = .ok values) (hlen : maxBitCount < values.length) :
    decodeBitfieldResponse bytes functionCode BitValues.new = .err .tooLargeForBuffer := by
  have heq := decodeBitfieldResponse_eq bytes functionCode
  rw [h, capped_of_lt hlen] at heq
  exact map_eq_err.mp heq

theorem decodeBitfieldResponse_of_le {bytes : Bytes} {functionCode : UInt8}
    (h : ¬∃ values, Protocol.decodeBitfieldResponse bytes functionCode = .ok values ∧ maxBitCount < values.length) :
    (decodeBitfieldResponse bytes functionCode BitValues.new).map BitValues.bits =
      (Protocol.decodeBitfieldResponse bytes functionCode).mapErr .ofProtocol := by
  rw [decodeBitfieldResponse_eq]
  refine capped_of_le fun values hok => ?_
  by_contra hlt
  exact h ⟨values, hok, by omega⟩

theorem decodeRegisterArrayResponse_of_le {bytes : Bytes} (hbytes : bytes.length ≤ maxPduLen)
    (functionCode : UInt8) :
    (decodeRegisterArrayResponse bytes functionCode RegisterValues.new).map RegisterValues.asSlice =
      (Protocol.decodeRegisterArrayResponse bytes functionCode).mapErr .ofProtocol := by
  rw [decodeRegisterArrayResponse_eq]
  exact capped_of_le fun _ => length_of_decodeRegisterArrayResponse hbytes

theorem decode_of_crowded {k : Kind} {bytes : Bytes} (hbytes : bytes.length ≤ maxPduLen) (h : Crowded k bytes) :
    decode k bytes = .err .tooLargeForBuffer := by
  cases k with
  | readCoilsResponse | readDiscreteInputsResponse =>
    obtain ⟨values, hok, hlen⟩ := h
    exact map_eq_err.mpr (decodeBitfieldResponse_of_lt hok hlen)
  | readFileRecordResponse => exact (ReadFileRecordResponse.decode_eq hbytes).1 h
  | readDeviceIdentificationResponse => exact (ReadDeviceIdentificationResponse.decode_eq hbytes).1 h
  | _ => exact h.elim

theorem decode_of_not_crowded {k : Kind} {bytes : Bytes} (hbytes : bytes.length ≤ maxPduLen)
    (h : ¬Crowded k bytes) :
    (decode k bytes).map (toProtocol k) = (Protocol.decode k bytes).mapErr .ofProtocol := by
  cases k with
  | readCoilsRequest | readDiscreteInputsRequest | readHoldingRegistersRequest | readInputRegistersRequest
  | writeSingleRegisterRequest | writeSingleRegisterResponse | writeMultipleCoilsResponse
  | writeMultipleRegistersResponse =>
    exact (map_id_fun _).trans ((congrArg _ (decodeAddressAndQuantity_eq _ _)).trans (mapErr_map _ _ _).symm)
  | writeSingleCoilRequest | writeSingleCoilResponse =>
    exact (map_id_fun _).trans ((congrArg _ (decodeWriteSingleCoil_eq _)).trans (mapErr_map _ _ _).symm)
  | maskWriteRegisterRequest | maskWriteRegisterResponse =>
    exact (map_id_fun _).trans ((congrArg _ (decodeMaskWriteRegister_eq _)).trans (mapErr_map _ _ _).symm)
  | reportServerIdRequest => exact (map_id_fun _).trans (ReportServerIdRequest.decode_eq bytes)
  | readDeviceIdentificationRequest =>
    exact (map_id_fun _).trans (ReadDeviceIdentificationRequest.decode_eq bytes)
  | exceptionResponse => exact (map_id_fun _).trans (ExceptionResponse.decode_eq bytes)
  | readCoilsResponse =>
    have hbits := congrArg (Outcome.map Protocol.ReadCoilsResponse.mk) (decodeBitfieldResponse_of_le h)
    rw [map_map, ← mapErr_map] at hbits
    exact (map_map _ _ _).trans hbits
  | readDiscreteInputsResponse =>
    have hbits := congrArg (Outcome.map Protocol.ReadDiscreteInputsResponse.mk) (decodeBitfieldResponse_of_le h)
    rw [map_map, ← mapErr_map] at hbits
    exact (map_map _ _ _).trans hbits
  | readHoldingRegistersResponse =>
    have hregisters := congrArg (Outcome.map Protocol.ReadHoldingRegistersResponse.mk)
      (decodeRegisterArrayResponse_of_le hbytes functionCodeReadHoldingRegisters)
    rw [map_map, ← mapErr_map] at hregisters
    exact (map_map _ _ _).trans hregisters
  | readInputRegistersResponse =>
    have hregisters := congrArg (Outcome.map Protocol.ReadInputRegistersResponse.mk)
      (decodeRegisterArrayResponse_of_le hbytes functionCodeReadInputRegisters)
    rw [map_map, ← mapErr_map] at hregisters
    exact (map_map _ _ _).trans hregisters
  | readWriteMultipleRegistersResponse =>
    have hregisters := congrArg (Outcome.map Protocol.ReadWriteMultipleRegistersResponse.mk)
      (decodeRegisterArrayResponse_of_le hbytes functionCodeReadWriteMultipleRegisters)
    rw [map_map, ← mapErr_map] at hregisters
    exact (map_map _ _ _).trans hregisters
  | reportServerIdResponse =>
    exact (ReportServerIdResponse.decode_eq bytes).trans
      (capped_of_le fun _ => ReportServerIdResponse.length_of_decode hbytes)
  | readWriteMultipleRegistersRequest =>
    exact (ReadWriteMultipleRegistersRequest.decode_eq bytes).trans
      (capped_of_le fun _ => ReadWriteMultipleRegistersRequest.length_of_decode hbytes)
  | writeMultipleCoilsRequest =>
    exact (WriteMultipleCoilsRequest.decode_eq bytes).trans
      (capped_of_le fun _ => WriteMultipleCoilsRequest.length_of_decode hbytes)
  | writeMultipleRegistersRequest =>
    exact (WriteMultipleRegistersRequest.decode_eq bytes).trans
      (capped_of_le fun _ => WriteMultipleRegistersRequest.length_of_decode hbytes)
  | readFileRecordRequest => exact ReadFileRecordRequest.decode_eq hbytes
  | readFileRecordResponse => exact (ReadFileRecordResponse.decode_eq hbytes).2 (Nat.le_of_not_lt h)
  | writeFileRecordRequest =>
    have hrecords := congrArg (Outcome.map Protocol.WriteFileRecordRequest.mk)
      (decodeWriteFileRecord_eq hbytes functionCodeWriteFileRecord)
    rw [map_map, ← mapErr_map] at hrecords
    exact (map_map _ _ _).trans hrecords
  | writeFileRecordResponse =>
    have hrecords := congrArg (Outcome.map Protocol.WriteFileRecordResponse.mk)
      (decodeWriteFileRecord_eq hbytes functionCodeWriteFileRecord)
    rw [map_map, ← mapErr_map] at hrecords
    exact (map_map _ _ _).trans hrecords
  | readDeviceIdentificationResponse =>
    exact (ReadDeviceIdentificationResponse.decode_eq hbytes).2 (Nat.le_of_not_lt h)

/-- What the original codec accepts is crowded exactly when the port cannot hold it. -/
theorem crowded_iff {k : Kind} {bytes : Bytes} {m : k.Payload} (h : Protocol.decode k bytes = .ok m) :
    Crowded k bytes ↔ ¬Representable k m := by
  cases k with
  | readCoilsResponse | readDiscreteInputsResponse =>
    obtain ⟨values, hok, rfl⟩ := map_eq_ok.mp h
    simp only [Crowded, Representable, hok, Outcome.ok.injEq, exists_eq_left', not_le]
  | readFileRecordResponse =>
    rw [Crowded, Representable, ← ReadFileRecordResponse.length_of_decode h, not_le]
  | readDeviceIdentificationResponse =>
    rw [Crowded, Representable, ← ReadDeviceIdentificationResponse.length_of_decode h, not_le]
  | _ => simp [Crowded, Representable]

/-! ### Encoding -/

/-- The types of the port whose encoder returns a result. -/
def Fallible : Kind → Prop
  | .reportServerIdResponse | .readWriteMultipleRegistersRequest | .writeMultipleRegistersRequest
  | .readFileRecordResponse | .writeFileRecordRequest | .writeFileRecordResponse
  | .readDeviceIdentificationResponse => True
  | _ => False

/-- What the port encodes: the bytes of the original codec, written to a buffer that they
fit, or refused by the same error, or, where the type has a result, refused as too large. -/
theorem encode_eq (k : Kind) {v : Payload k} (h : ZeroPadding k v) :
    (encode k v = (Protocol.encode k (toProtocol k v)).mapErr .ofProtocol >>= emit PduBytes.new) ∨
      (encode k v = (Protocol.encode k (toProtocol k v)).mapErr .ofProtocol >>= guarded) := by
  cases k with
  | readCoilsRequest | readDiscreteInputsRequest | readHoldingRegistersRequest | readInputRegistersRequest
  | writeSingleRegisterRequest | writeSingleRegisterResponse | writeMultipleCoilsResponse
  | writeMultipleRegistersResponse | writeSingleCoilRequest | writeSingleCoilResponse =>
    exact .inl (encodeAddressAndQuantity_eq _ _ _)
  | maskWriteRegisterRequest | maskWriteRegisterResponse => exact .inl (encodeMaskWriteRegister_eq _ _ _)
  | reportServerIdRequest => exact .inl (unwrap_push PduBytes.new functionCodeReportServerId)
  | readDeviceIdentificationRequest | exceptionResponse => exact .inl rfl
  | readCoilsResponse | readDiscreteInputsResponse => exact .inl (encodeBitfieldResponse_eq _ h)
  | readHoldingRegistersResponse | readInputRegistersResponse | readWriteMultipleRegistersResponse =>
    exact .inl (encodeRegisterArrayResponse_eq _ _)
  | reportServerIdResponse => exact .inr (ReportServerIdResponse.encode_eq v)
  | readWriteMultipleRegistersRequest => exact .inl (ReadWriteMultipleRegistersRequest.encode_eq v)
  | writeMultipleCoilsRequest => exact .inl (WriteMultipleCoilsRequest.encode_eq h)
  | writeMultipleRegistersRequest => exact .inl (WriteMultipleRegistersRequest.encode_eq v)
  | readFileRecordRequest => exact .inl (ReadFileRecordRequest.encode_eq v)
  | readFileRecordResponse => exact .inr (ReadFileRecordResponse.encode_eq v)
  | writeFileRecordRequest | writeFileRecordResponse => exact .inr (encodeWriteFileRecord_eq _ _)
  | readDeviceIdentificationResponse => exact .inr (ReadDeviceIdentificationResponse.encode_eq v)

theorem encode_of_le {k : Kind} {v : Payload k} {bytes : Bytes} (h : ZeroPadding k v)
    (hbytes : Protocol.encode k (toProtocol k v) = .ok bytes) (hlen : bytes.length ≤ maxPduLen) :
    (encode k v).map PduBytes.asSlice = .ok bytes := by
  rcases encode_eq k h with heq | heq
  · rw [heq, hbytes, mapErr_ok, ok_bind, emit_new_of_le hlen, map_ok]
  · rw [heq, hbytes, mapErr_ok, ok_bind, guarded, if_neg (by omega), emit_new_of_le hlen, map_ok]

/-- On byte strings of PDU size the port decodes what the original codec decodes, by the same
error or to the same fields, except where there is more than it has room for; it gives the
bytes of the original for every message without padding whose encoding is a PDU. -/
theorem port_agrees (k : Kind) :
    (∀ bytes : Bytes, bytes.length ≤ maxPduLen →
        (Crowded k bytes → decode k bytes = .err .tooLargeForBuffer) ∧
        (¬Crowded k bytes →
          (decode k bytes).map (toProtocol k) = (Protocol.decode k bytes).mapErr .ofProtocol) ∧
        ∀ m, Protocol.decode k bytes = .ok m → (Crowded k bytes ↔ ¬Representable k m)) ∧
      ∀ (v : Payload k) (bytes : Bytes), ZeroPadding k v → Protocol.encode k (toProtocol k v) = .ok bytes →
        bytes.length ≤ maxPduLen → (encode k v).map PduBytes.asSlice = .ok bytes :=
  ⟨fun _ hbytes => ⟨decode_of_crowded hbytes, decode_of_not_crowded hbytes, fun _ => crowded_iff⟩,
    fun _ _ => encode_of_le⟩

/-- A response of two registers is read by both to the same fields, and written back by both alike. -/
theorem port_agrees_registers :
    (decode .readHoldingRegistersResponse [0x03, 0x04, 0x00, 0x2A, 0xFF, 0xFF]).map
        (toProtocol .readHoldingRegistersResponse) = .ok ⟨[42, 65535]⟩ ∧
      (encode .readHoldingRegistersResponse ⟨⟨[42, 65535], by decide⟩⟩).map PduBytes.asSlice =
        .ok [0x03, 0x04, 0x00, 0x2A, 0xFF, 0xFF] :=
  ⟨((port_agrees .readHoldingRegistersResponse).1 _ (by decide)).2.1 id,
    (port_agrees .readHoldingRegistersResponse).2 ⟨⟨[42, 65535], by decide⟩⟩ _ trivial (by decide) (by decide)⟩

/-- A response of 251 bytes of coils is a PDU that the original codec accepts and the port does not. -/
theorem port_refuses_bits :
    ([0x01, 0xFB] ++ List.replicate 251 0 : Bytes).length ≤ maxPduLen ∧
      Protocol.decode .readCoilsResponse ([0x01, 0xFB] ++ List.replicate 251 0) =
        .ok ⟨unpackBits 2008 (List.replicate 251 0)⟩ ∧
      decode .readCoilsResponse ([0x01, 0xFB] ++ List.replicate 251 0) = .err .tooLargeForBuffer := by
  have hlen : (List.replicate 251 (0 : UInt8)).length = 251 := List.length_replicate
  generalize List.replicate 251 (0 : UInt8) = data at hlen ⊢
  have hvalues : Protocol.decodeBitfieldResponse ([0x01, 0xFB] ++ data) functionCodeReadCoils =
      .ok (unpackBits 2008 data) := by
    have hcount : (0xFB : UInt8).toNat = 251 := rfl
    refine (decodeBitfieldResponse_cons 0x01 0xFB data).trans ?_
    rw [hcount, if_neg (by omega), List.take_of_length_le (by omega)]
  refine ⟨by rw [List.length_append, hlen]; decide, map_eq_ok.mpr ⟨_, hvalues, rfl⟩, ?_⟩
  exact map_eq_err.mpr (decodeBitfieldResponse_of_lt hvalues (by rw [length_unpackBits]; decide))

end InfusedModbus.ProtocolCore
