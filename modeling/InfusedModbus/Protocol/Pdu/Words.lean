import InfusedModbus.Protocol.Pdu.Progress

/-! The decoders on machine words. Every sum, product and difference of the source is one
of words of `w` bits that panics when it does not fit; a sum that the source forms twice is
formed once. A slice holds less than half as many bytes as a word has values and a count
or length field is small, so from 32 bits on nothing overflows: the decoders are those on
natural numbers. -/

namespace InfusedModbus.Protocol

open Foundation Foundation.Outcome

/-! ### One turn -/

variable {ε : Type}

def readU16BeUsize (w : ℕ) (bytes : Bytes) (offset : ℕ) : Outcome ε UInt16 := do
  let hi ← index bytes offset
  let second ← usizeAdd w offset 1
  let lo ← index bytes second
  pure (u16FromBeBytes hi lo)

def readSubRequestUsize (w : ℕ) (bytes : Bytes) (offset : ℕ) : Outcome DecodeError (FileRecordSubRequest × ℕ) := do
  let referenceType ← index bytes offset
  if referenceType ≠ fileRecordReferenceType then .err (.invalidFileRecordReferenceType referenceType)
  else do
    let fileNumberOffset ← usizeAdd w offset 1
    let fileNumber ← readU16BeUsize w bytes fileNumberOffset
    let recordNumberOffset ← usizeAdd w offset 3
    let recordNumber ← readU16BeUsize w bytes recordNumberOffset
    let recordLengthOffset ← usizeAdd w offset 5
    let recordLength ← readU16BeUsize w bytes recordLengthOffset
    let next ← usizeAdd w offset fileRecordSubRequestLen
    pure (⟨fileNumber, recordNumber, recordLength⟩, next)

def readRecordUsize (w : ℕ) (bytes : Bytes) (offset : ℕ) : Outcome DecodeError (Bytes × ℕ) := do
  let lengthEnd ← usizeAdd w offset 1
  if bytes.length < lengthEnd then .err .tooShort
  else do
    let subResponseLength ← index bytes offset
    if subResponseLength.toNat = 0 then .err (.invalidFileRecordSubResponseLength subResponseLength)
    else do
      let referenceTypeOffset ← usizeAdd w offset 1
      let referenceTypeEnd ← usizeAdd w referenceTypeOffset 1
      if bytes.length < referenceTypeEnd then .err .tooShort
      else do
        let referenceType ← index bytes referenceTypeOffset
        if referenceType ≠ fileRecordReferenceType then .err (.invalidFileRecordReferenceType referenceType)
        else do
          let dataStart ← usizeAdd w referenceTypeOffset 1
          let dataLen ← usizeSub subResponseLength.toNat 1
          let dataEnd ← usizeAdd w dataStart dataLen
          if bytes.length < dataEnd then .err .tooShort
          else do
            let record ← slice bytes dataStart dataEnd
            pure (record, dataEnd)

def readWriteSubRequestUsize (w : ℕ) (bytes : Bytes) (offset : ℕ) :
    Outcome DecodeError (WriteFileRecordSubRequest × ℕ) := do
  let headerEnd ← usizeAdd w offset fileRecordSubRequestLen
  if bytes.length < headerEnd then .err .tooShort
  else do
    let referenceType ← index bytes offset
    if referenceType ≠ fileRecordReferenceType then .err (.invalidFileRecordReferenceType referenceType)
    else do
      let fileNumberOffset ← usizeAdd w offset 1
      let fileNumber ← readU16BeUsize w bytes fileNumberOffset
      let recordNumberOffset ← usizeAdd w offset 3
      let recordNumber ← readU16BeUsize w bytes recordNumberOffset
      let recordLengthOffset ← usizeAdd w offset 5
      let recordLength ← readU16BeUsize w bytes recordLengthOffset
      let dataStart ← usizeAdd w offset fileRecordSubRequestLen
      let dataLen ← usizeMul w recordLength.toNat 2
      let dataEnd ← usizeAdd w dataStart dataLen
      if bytes.length < dataEnd then .err .tooShort
      else do
        let recordData ← slice bytes dataStart dataEnd
        pure (⟨fileNumber, recordNumber, recordData⟩, dataEnd)

def readObjectUsize (w : ℕ) (bytes : Bytes) (offset : ℕ) : Outcome DecodeError (DeviceIdentificationObject × ℕ) := do
  let headerEnd ← usizeAdd w offset 2
  if bytes.length < headerEnd then .err .tooShort
  else do
    let id ← index bytes offset
    let lengthOffset ← usizeAdd w offset 1
    let length ← index bytes lengthOffset
    let valueStart ← usizeAdd w offset 2
    let valueEnd ← usizeAdd w valueStart length.toNat
    if bytes.length < valueEnd then .err .tooShort
    else do
      let value ← slice bytes valueStart valueEnd
      pure (⟨id, value⟩, valueEnd)

variable {w : ℕ} {bytes : Bytes} {offset : ℕ}

theorem readU16BeUsize_eq (h : offset + 1 < 2 ^ w) :
    (readU16BeUsize w bytes offset : Outcome ε UInt16) = readU16Be bytes offset := by
  simp only [readU16BeUsize, readU16Be, usizeAdd_of_lt h, ok_bind]

section Fits

variable (hw : 32 ≤ w) (hbuffer : bytes.length < 2 ^ (w - 1)) (hoffset : offset ≤ bytes.length)

include hw hbuffer hoffset

theorem readSubRequestUsize_eq : readSubRequestUsize w bytes offset = readSubRequest bytes offset := by
  have hfits : ∀ n < 262144, offset + n < 2 ^ w := fun n hn => add_lt_of_buffer hw hbuffer hoffset hn
  have hseven : fileRecordSubRequestLen = 7 := rfl
  simp only [readSubRequestUsize, readSubRequest, hseven, usizeAdd_of_lt (hfits 1 (by omega)),
    usizeAdd_of_lt (hfits 3 (by omega)), usizeAdd_of_lt (hfits 5 (by omega)), usizeAdd_of_lt (hfits 7 (by omega)),
    readU16BeUsize_eq (hfits 2 (by omega)), readU16BeUsize_eq (hfits 4 (by omega)),
    readU16BeUsize_eq (hfits 6 (by omega)), ok_bind]

theorem readRecordUsize_eq : readRecordUsize w bytes offset = readRecord bytes offset := by
  have hfits : ∀ n < 262144, offset + n < 2 ^ w := fun n hn => add_lt_of_buffer hw hbuffer hoffset hn
  simp only [readRecordUsize, readRecord, usizeAdd_of_lt (hfits 1 (by omega)),
    usizeAdd_of_lt (show offset + 1 + 1 < 2 ^ w from hfits 2 (by omega)), ok_bind]
  by_cases hone : bytes.length < offset + 1
  · rw [if_pos hone, if_pos hone]
  rw [if_neg hone, if_neg hone, index_of_lt (by omega)]
  simp only [ok_bind]
  by_cases hzero : bytes[offset].toNat = 0
  · rw [if_pos hzero, if_pos hzero]
  have hbyte := bytes[offset].toNat_lt
  have hend := hfits (2 + (bytes[offset].toNat - 1)) (by omega)
  have hadd : (usizeAdd w (offset + 1 + 1) (bytes[offset].toNat - 1) : Outcome DecodeError ℕ) =
      .ok (offset + 1 + 1 + (bytes[offset].toNat - 1)) := usizeAdd_of_lt (by omega)
  simp only [usizeSub_of_le (show 1 ≤ bytes[offset].toNat by omega), hadd, ok_bind]

theorem readWriteSubRequestUsize_eq : readWriteSubRequestUsize w bytes offset = readWriteSubRequest bytes offset := by
  have hfits : ∀ n < 262144, offset + n < 2 ^ w := fun n hn => add_lt_of_buffer hw hbuffer hoffset hn
  have hseven : fileRecordSubRequestLen = 7 := rfl
  have hlength : ∀ recordLength : UInt16,
      (usizeMul w recordLength.toNat 2 : Outcome DecodeError ℕ) = .ok (recordLength.toNat * 2) ∧
        (usizeAdd w (offset + 7) (recordLength.toNat * 2) : Outcome DecodeError ℕ) =
          .ok (offset + 7 + recordLength.toNat * 2) := by
    intro recordLength
    have hword := recordLength.toNat_lt
    have hend := hfits (7 + recordLength.toNat * 2) (by omega)
    exact ⟨usizeMul_of_lt (by omega), usizeAdd_of_lt (by omega)⟩
  simp only [readWriteSubRequestUsize, readWriteSubRequest, hseven, usizeAdd_of_lt (hfits 1 (by omega)),
    usizeAdd_of_lt (hfits 3 (by omega)), usizeAdd_of_lt (hfits 5 (by omega)), usizeAdd_of_lt (hfits 7 (by omega)),
    readU16BeUsize_eq (hfits 2 (by omega)), readU16BeUsize_eq (hfits 4 (by omega)),
    readU16BeUsize_eq (hfits 6 (by omega)), ok_bind, (hlength _).1, (hlength _).2]

theorem readObjectUsize_eq : readObjectUsize w bytes offset = readObject bytes offset := by
  have hfits : ∀ n < 262144, offset + n < 2 ^ w := fun n hn => add_lt_of_buffer hw hbuffer hoffset hn
  have hlength : ∀ length : UInt8, (usizeAdd w (offset + 2) length.toNat : Outcome DecodeError ℕ) =
      .ok (offset + 2 + length.toNat) := by
    intro length
    have hbyte := length.toNat_lt
    have hend := hfits (2 + length.toNat) (by omega)
    exact usizeAdd_of_lt (by omega)
  simp only [readObjectUsize, readObject, usizeAdd_of_lt (hfits 1 (by omega)), usizeAdd_of_lt (hfits 2 (by omega)),
    ok_bind, hlength]

end Fits

/-! ### Loops -/

theorem forward_readRecordUsize : Forward (readRecordUsize w bytes) := by
  intro offset record next h
  obtain ⟨lengthEnd, -, h⟩ := bind_eq_ok.mp h
  split at h
  · cases h
  obtain ⟨subResponseLength, -, h⟩ := bind_eq_ok.mp h
  split at h
  · cases h
  obtain ⟨referenceTypeOffset, hreference, h⟩ := bind_eq_ok.mp h
  obtain ⟨referenceTypeEnd, -, h⟩ := bind_eq_ok.mp h
  split at h
  · cases h
  obtain ⟨referenceType, -, h⟩ := bind_eq_ok.mp h
  split at h
  · cases h
  obtain ⟨dataStart, hstart, h⟩ := bind_eq_ok.mp h
  obtain ⟨dataLen, -, h⟩ := bind_eq_ok.mp h
  obtain ⟨dataEnd, hend, h⟩ := bind_eq_ok.mp h
  split at h
  · cases h
  obtain ⟨record', -, h⟩ := bind_eq_ok.mp h
  obtain ⟨-, rfl⟩ := Prod.mk.inj (ok.inj h)
  have hfirst := usizeAdd_eq_ok hreference
  have hsecond := usizeAdd_eq_ok hstart
  have hthird := usizeAdd_eq_ok hend
  omega

theorem forward_readWriteSubRequestUsize : Forward (readWriteSubRequestUsize w bytes) := by
  have hseven : fileRecordSubRequestLen = 7 := rfl
  intro offset s next h
  obtain ⟨headerEnd, -, h⟩ := bind_eq_ok.mp h
  split at h
  · cases h
  obtain ⟨referenceType, -, h⟩ := bind_eq_ok.mp h
  split at h
  · cases h
  obtain ⟨fileNumberOffset, -, h⟩ := bind_eq_ok.mp h
  obtain ⟨fileNumber, -, h⟩ := bind_eq_ok.mp h
  obtain ⟨recordNumberOffset, -, h⟩ := bind_eq_ok.mp h
  obtain ⟨recordNumber, -, h⟩ := bind_eq_ok.mp h
  obtain ⟨recordLengthOffset, -, h⟩ := bind_eq_ok.mp h
  obtain ⟨recordLength, -, h⟩ := bind_eq_ok.mp h
  obtain ⟨dataStart, hstart, h⟩ := bind_eq_ok.mp h
  obtain ⟨dataLen, -, h⟩ := bind_eq_ok.mp h
  obtain ⟨dataEnd, hend, h⟩ := bind_eq_ok.mp h
  split at h
  · cases h
  obtain ⟨recordData, -, h⟩ := bind_eq_ok.mp h
  obtain ⟨-, rfl⟩ := Prod.mk.inj (ok.inj h)
  have hfirst := usizeAdd_eq_ok hstart
  have hsecond := usizeAdd_eq_ok hend
  omega

def decodeSubRequestsUsize (w : ℕ) (bytes : Bytes) : ℕ → ℕ → Outcome DecodeError (List FileRecordSubRequest) :=
  readTimes (readSubRequestUsize w bytes)

def decodeRecordsUsize (w : ℕ) (bytes : Bytes) : ℕ → ℕ → Outcome DecodeError (List Bytes) :=
  readWhile (readRecordUsize w bytes) forward_readRecordUsize

def decodeWriteSubRequestsUsize (w : ℕ) (bytes : Bytes) :
    ℕ → ℕ → Outcome DecodeError (List WriteFileRecordSubRequest) :=
  readWhile (readWriteSubRequestUsize w bytes) forward_readWriteSubRequestUsize

def decodeObjectsUsize (w : ℕ) (bytes : Bytes) : ℕ → ℕ → Outcome DecodeError (List DeviceIdentificationObject) :=
  readTimes (readObjectUsize w bytes)

section Fits

variable (hw : 32 ≤ w) (hbuffer : bytes.length < 2 ^ (w - 1)) (hoffset : offset ≤ bytes.length)

include hw hbuffer hoffset

theorem decodeSubRequestsUsize_eq (n : ℕ) :
    decodeSubRequestsUsize w bytes n offset = decodeSubRequests bytes n offset :=
  (readsTimes_decodeSubRequests bytes).congr readsTimes_readTimes (advances_readSubRequest bytes)
    (fun _ => readSubRequestUsize_eq hw hbuffer) n hoffset

theorem decodeRecordsUsize_eq (limit : ℕ) :
    decodeRecordsUsize w bytes limit offset = decodeRecords bytes limit offset :=
  (readsWhile_decodeRecords bytes limit).congr (readsWhile_readWhile _ limit) (advances_readRecord bytes)
    (fun _ => readRecordUsize_eq hw hbuffer) hoffset

theorem decodeWriteSubRequestsUsize_eq (limit : ℕ) :
    decodeWriteSubRequestsUsize w bytes limit offset = decodeWriteSubRequests bytes limit offset :=
  (readsWhile_decodeWriteSubRequests bytes limit).congr (readsWhile_readWhile _ limit)
    (advances_readWriteSubRequest bytes) (fun _ => readWriteSubRequestUsize_eq hw hbuffer) hoffset

theorem decodeObjectsUsize_eq (n : ℕ) : decodeObjectsUsize w bytes n offset = decodeObjects bytes n offset :=
  (readsTimes_decodeObjects bytes).congr readsTimes_readTimes (advances_readObject bytes)
    (fun _ => readObjectUsize_eq hw hbuffer) n hoffset

end Fits

/-! ### Messages -/

def decodeAddressAndQuantityUsize (w : ℕ) (bytes : Bytes) (functionCode : UInt8) :
    Outcome DecodeError AddressAndQuantity := do
  checkHeader bytes twoFieldPduLen functionCode
  let startingAddress ← readU16BeUsize w bytes addressFieldByte
  let quantity ← readU16BeUsize w bytes quantityOrValueFieldByte
  pure ⟨startingAddress, quantity⟩

def decodeWriteSingleCoilUsize (w : ℕ) (bytes : Bytes) : Outcome DecodeError (UInt16 × Bool) := do
  let f ← decodeAddressAndQuantityUsize w bytes functionCodeWriteSingleCoil
  if f.quantity = coilValueOn then pure (f.startingAddress, true)
  else if f.quantity = coilValueOff then pure (f.startingAddress, false)
  else .err (.invalidCoilValue f.quantity)

def decodeMaskWriteRegisterUsize (w : ℕ) (bytes : Bytes) : Outcome DecodeError (UInt16 × UInt16 × UInt16) := do
  checkHeader bytes maskWriteRegisterPduLen functionCodeMaskWriteRegister
  let referenceAddress ← readU16BeUsize w bytes addressFieldByte
  let andMask ← readU16BeUsize w bytes quantityOrValueFieldByte
  let orMask ← readU16BeUsize w bytes orMaskFieldByte
  pure (referenceAddress, andMask, orMask)

def decodeBitfieldResponseUsize (w : ℕ) (bytes : Bytes) (functionCode : UInt8) : Outcome DecodeError (List Bool) := do
  checkHeader bytes responseHeaderLen functionCode
  let byteCount ← index bytes byteCountByte
  let dataEnd ← usizeAdd w responseDataStart byteCount.toNat
  if bytes.length < dataEnd then .err .tooShort
  else do
    let packed ← slice bytes responseDataStart dataEnd
    let bitCount ← usizeMul w byteCount.toNat 8
    (List.range bitCount).mapM' (unpackBit packed)

def decodeRegisterArrayResponseUsize (w : ℕ) (bytes : Bytes) (functionCode : UInt8) :
    Outcome DecodeError (List UInt16) := do
  checkHeader bytes responseHeaderLen functionCode
  let byteCount ← index bytes byteCountByte
  if byteCount.toNat % 2 ≠ 0 then .err (.oddByteCount byteCount)
  else do
    let dataEnd ← usizeAdd w responseDataStart byteCount.toNat
    if bytes.length < dataEnd then .err .tooShort
    else do
      let chunk ← slice bytes responseDataStart dataEnd
      pure (wordsOfBytes chunk)

def ReportServerIdResponse.decodeUsize (w : ℕ) (bytes : Bytes) : Outcome DecodeError ReportServerIdResponse := do
  checkHeader bytes reportServerIdResponseHeaderLen functionCodeReportServerId
  let byteCount ← index bytes reportServerIdByteCountByte
  if byteCount.toNat = 0 then .err .tooShort
  else do
    let dataEnd ← usizeAdd w reportServerIdDataStart byteCount.toNat
    if bytes.length < dataEnd then .err .tooShort
    else do
      let serverIdEnd ← usizeSub dataEnd 1
      let serverId ← slice bytes reportServerIdDataStart serverIdEnd
      let status ← index bytes serverIdEnd
      pure ⟨serverId, status != runIndicatorOff⟩

def ReadWriteMultipleRegistersRequest.decodeUsize (w : ℕ) (bytes : Bytes) :
    Outcome DecodeError ReadWriteMultipleRegistersRequest := do
  checkHeader bytes readWriteRequestHeaderLen functionCodeReadWriteMultipleRegisters
  let readStartingAddress ← readU16BeUsize w bytes addressFieldByte
  let readQuantity ← readU16BeUsize w bytes quantityOrValueFieldByte
  let writeStartingAddress ← readU16BeUsize w bytes readWriteWriteStartingAddressByte
  let byteCount ← index bytes readWriteByteCountByte
  if byteCount.toNat % 2 ≠ 0 then .err (.oddByteCount byteCount)
  else do
    let dataEnd ← usizeAdd w readWriteValuesStart byteCount.toNat
    if bytes.length < dataEnd then .err .tooShort
    else do
      let chunk ← slice bytes readWriteValuesStart dataEnd
      pure ⟨readStartingAddress, readQuantity, writeStartingAddress, wordsOfBytes chunk⟩

def WriteMultipleCoilsRequest.decodeUsize (w : ℕ) (bytes : Bytes) : Outcome DecodeError WriteMultipleCoilsRequest := do
  checkHeader bytes writeMultipleRequestHeaderLen functionCodeWriteMultipleCoils
  let startingAddress ← readU16BeUsize w bytes addressFieldByte
  let quantity ← readU16BeUsize w bytes quantityOrValueFieldByte
  let byteCount ← index bytes writeMultipleByteCountByte
  if byteCount.toNat ≠ divCeil quantity.toNat 8 then .err (.quantityByteCountMismatch quantity byteCount)
  else do
    let dataEnd ← usizeAdd w writeMultipleValuesStart byteCount.toNat
    if bytes.length < dataEnd then .err .tooShort
    else do
      let packed ← slice bytes writeMultipleValuesStart dataEnd
      let coilValues := (packed.flatMap fun byte =>
        (List.range 8).map fun bit => byte &&& bitMask bit != 0).take quantity.toNat
      pure ⟨startingAddress, coilValues⟩

def WriteMultipleRegistersRequest.decodeUsize (w : ℕ) (bytes : Bytes) :
    Outcome DecodeError WriteMultipleRegistersRequest := do
  checkHeader bytes writeMultipleRequestHeaderLen functionCodeWriteMultipleRegisters
  let startingAddress ← readU16BeUsize w bytes addressFieldByte
  let byteCount ← index bytes writeMultipleByteCountByte
  if byteCount.toNat % 2 ≠ 0 then .err (.oddByteCount byteCount)
  else do
    let dataEnd ← usizeAdd w writeMultipleValuesStart byteCount.toNat
    if bytes.length < dataEnd then .err .tooShort
    else do
      let chunk ← slice bytes writeMultipleValuesStart dataEnd
      pure ⟨startingAddress, wordsOfBytes chunk⟩

def ReadFileRecordRequest.decodeUsize (w : ℕ) (bytes : Bytes) : Outcome DecodeError ReadFileRecordRequest := do
  checkHeader bytes responseDataStart functionCodeReadFileRecord
  let byteCount ← index bytes byteCountByte
  if byteCount.toNat = 0 ∨ byteCount.toNat % fileRecordSubRequestLen ≠ 0 then
    .err (.invalidFileRecordByteCount byteCount)
  else do
    let dataEnd ← usizeAdd w responseDataStart byteCount.toNat
    if bytes.length < dataEnd then .err .tooShort
    else do
      let subRequests ← decodeSubRequestsUsize w bytes (byteCount.toNat / fileRecordSubRequestLen) responseDataStart
      pure ⟨subRequests⟩

def ReadFileRecordResponse.decodeUsize (w : ℕ) (bytes : Bytes) : Outcome DecodeError ReadFileRecordResponse := do
  checkHeader bytes responseDataStart functionCodeReadFileRecord
  let byteCount ← index bytes byteCountByte
  let dataEnd ← usizeAdd w responseDataStart byteCount.toNat
  if bytes.length < dataEnd then .err .tooShort
  else do
    let records ← decodeRecordsUsize w bytes dataEnd responseDataStart
    pure ⟨records⟩

def decodeWriteFileRecordUsize (w : ℕ) (bytes : Bytes) (expectedFunctionCode : UInt8) :
    Outcome DecodeError (List WriteFileRecordSubRequest) := do
  checkHeader bytes responseDataStart expectedFunctionCode
  let byteCount ← index bytes byteCountByte
  let dataEnd ← usizeAdd w responseDataStart byteCount.toNat
  if bytes.length < dataEnd then .err .tooShort
  else decodeWriteSubRequestsUsize w bytes dataEnd responseDataStart

def ReadDeviceIdentificationResponse.decodeUsize (w : ℕ) (bytes : Bytes) :
    Outcome DecodeError ReadDeviceIdentificationResponse := do
  checkHeader bytes readDeviceIdentificationResponseHeaderLen functionCodeEncapsulatedInterfaceTransport
  let meiType ← index bytes meiTypeByte
  if meiType ≠ meiTypeReadDeviceIdentification then
    .err (.unexpectedMeiType meiTypeReadDeviceIdentification meiType)
  else do
    let readDeviceIdCode ← index bytes readDeviceIdCodeByte
    let conformityLevel ← index bytes conformityLevelByte
    let moreFollows ← index bytes moreFollowsByte
    let nextObjectId ← index bytes nextObjectIdByte
    let numberOfObjects ← index bytes numberOfObjectsByte
    let objects ← decodeObjectsUsize w bytes numberOfObjects.toNat responseObjectsStart
    pure ⟨readDeviceIdCode, conformityLevel, moreFollows != moreFollowsNo, nextObjectId, objects⟩

/-- The decoders by message; three of them compute nothing. -/
def decodeUsize (w : ℕ) : (k : Kind) → Bytes → Outcome DecodeError k.Payload
  | .readCoilsRequest, bytes =>
    (decodeAddressAndQuantityUsize w bytes functionCodeReadCoils).map fun f => ⟨f.startingAddress, f.quantity⟩
  | .readCoilsResponse, bytes => (decodeBitfieldResponseUsize w bytes functionCodeReadCoils).map ReadCoilsResponse.mk
  | .readDiscreteInputsRequest, bytes =>
    (decodeAddressAndQuantityUsize w bytes functionCodeReadDiscreteInputs).map fun f => ⟨f.startingAddress, f.quantity⟩
  | .readDiscreteInputsResponse, bytes =>
    (decodeBitfieldResponseUsize w bytes functionCodeReadDiscreteInputs).map ReadDiscreteInputsResponse.mk
  | .readHoldingRegistersRequest, bytes =>
    (decodeAddressAndQuantityUsize w bytes functionCodeReadHoldingRegisters).map
      fun f => ⟨f.startingAddress, f.quantity⟩
  | .readHoldingRegistersResponse, bytes =>
    (decodeRegisterArrayResponseUsize w bytes functionCodeReadHoldingRegisters).map
      ReadHoldingRegistersResponse.mk
  | .readInputRegistersRequest, bytes =>
    (decodeAddressAndQuantityUsize w bytes functionCodeReadInputRegisters).map fun f => ⟨f.startingAddress, f.quantity⟩
  | .readInputRegistersResponse, bytes =>
    (decodeRegisterArrayResponseUsize w bytes functionCodeReadInputRegisters).map
      ReadInputRegistersResponse.mk
  | .writeSingleCoilRequest, bytes => (decodeWriteSingleCoilUsize w bytes).map fun p => ⟨p.1, p.2⟩
  | .writeSingleCoilResponse, bytes => (decodeWriteSingleCoilUsize w bytes).map fun p => ⟨p.1, p.2⟩
  | .writeSingleRegisterRequest, bytes =>
    (decodeAddressAndQuantityUsize w bytes functionCodeWriteSingleRegister).map fun f => ⟨f.startingAddress, f.quantity⟩
  | .writeSingleRegisterResponse, bytes =>
    (decodeAddressAndQuantityUsize w bytes functionCodeWriteSingleRegister).map fun f => ⟨f.startingAddress, f.quantity⟩
  | .maskWriteRegisterRequest, bytes => (decodeMaskWriteRegisterUsize w bytes).map fun p => ⟨p.1, p.2.1, p.2.2⟩
  | .maskWriteRegisterResponse, bytes => (decodeMaskWriteRegisterUsize w bytes).map fun p => ⟨p.1, p.2.1, p.2.2⟩
  | .reportServerIdRequest, bytes => ReportServerIdRequest.decode bytes
  | .reportServerIdResponse, bytes => ReportServerIdResponse.decodeUsize w bytes
  | .readWriteMultipleRegistersRequest, bytes => ReadWriteMultipleRegistersRequest.decodeUsize w bytes
  | .readWriteMultipleRegistersResponse, bytes =>
    (decodeRegisterArrayResponseUsize w bytes functionCodeReadWriteMultipleRegisters).map
      ReadWriteMultipleRegistersResponse.mk
  | .writeMultipleCoilsRequest, bytes => WriteMultipleCoilsRequest.decodeUsize w bytes
  | .writeMultipleCoilsResponse, bytes =>
    (decodeAddressAndQuantityUsize w bytes functionCodeWriteMultipleCoils).map fun f => ⟨f.startingAddress, f.quantity⟩
  | .writeMultipleRegistersRequest, bytes => WriteMultipleRegistersRequest.decodeUsize w bytes
  | .writeMultipleRegistersResponse, bytes =>
    (decodeAddressAndQuantityUsize w bytes functionCodeWriteMultipleRegisters).map
      fun f => ⟨f.startingAddress, f.quantity⟩
  | .readFileRecordRequest, bytes => ReadFileRecordRequest.decodeUsize w bytes
  | .readFileRecordResponse, bytes => ReadFileRecordResponse.decodeUsize w bytes
  | .writeFileRecordRequest, bytes =>
    (decodeWriteFileRecordUsize w bytes functionCodeWriteFileRecord).map WriteFileRecordRequest.mk
  | .writeFileRecordResponse, bytes =>
    (decodeWriteFileRecordUsize w bytes functionCodeWriteFileRecord).map WriteFileRecordResponse.mk
  | .readDeviceIdentificationRequest, bytes => ReadDeviceIdentificationRequest.decode bytes
  | .readDeviceIdentificationResponse, bytes => ReadDeviceIdentificationResponse.decodeUsize w bytes
  | .exceptionResponse, bytes => ExceptionResponse.decode bytes

/-! ### Application data units -/

def TcpAdu.decodeUsize (w : ℕ) (bytes : Bytes) : Outcome DecodeError TcpAdu :=
  if bytes.length < mbapHeaderLen then .err .tooShort
  else do
    let protocolId ← readU16BeUsize w bytes mbapProtocolIdByte
    if protocolId ≠ mbapProtocolId then .err (.unexpectedProtocolId protocolId)
    else do
      let length ← readU16BeUsize w bytes mbapLengthByte
      if length = 0 ∨ mbapMaxLength < length then .err (.invalidAduLength length)
      else do
        let pduLen ← usizeSub length.toNat 1
        let pduEnd ← usizeAdd w mbapHeaderLen pduLen
        if bytes.length < pduEnd then .err .tooShort
        else do
          let transactionId ← readU16BeUsize w bytes mbapTransactionIdByte
          let unitId ← index bytes mbapUnitIdByte
          let pdu ← slice bytes mbapHeaderLen pduEnd
          pure ⟨transactionId, unitId, pdu⟩

def RtuAdu.decodeUsize (w : ℕ) (bytes : Bytes) : Outcome DecodeError RtuAdu :=
  if bytes.length < rtuMinFrameLen then .err .tooShort
  else do
    let crcStart ← usizeSub bytes.length rtuCrcLen
    let unitIdAndPdu ← slice bytes 0 crcStart
    let expectedCrc := crc16Modbus unitIdAndPdu
    let lo ← index bytes crcStart
    let second ← usizeAdd w crcStart 1
    let hi ← index bytes second
    let actualCrc := u16FromBeBytes hi lo
    if actualCrc ≠ expectedCrc then .err (.crcMismatch expectedCrc actualCrc)
    else do
      let unitId ← index bytes rtuUnitIdByte
      let pdu ← slice unitIdAndPdu 1 unitIdAndPdu.length
      pure ⟨unitId, pdu⟩

/-! ### Nothing overflows -/

/-- What follows the header can count on its bytes. -/
theorem checkHeader_bind_congr {α : Type} {minLen : ℕ} {functionCode : UInt8} {f g : Unit → Outcome DecodeError α}
    (h : minLen ≤ bytes.length → f () = g ()) :
    (checkHeader bytes minLen functionCode >>= f) = checkHeader bytes minLen functionCode >>= g := by
  refine bind_congr_ok fun _ hok => h ?_
  unfold checkHeader at hok
  split at hok
  · cases hok
  · omega

section Fits

variable (hw : 32 ≤ w)

include hw

theorem lt_word {n : ℕ} (hn : n < 4294967296) : n < 2 ^ w :=
  lt_of_lt_of_le hn (Nat.pow_le_pow_right (n := 2) (by omega) hw)

/-- A fixed field of a header is read where it is. -/
theorem readU16BeUsize_field {field : ℕ} (hfield : field < 16) :
    (readU16BeUsize w bytes field : Outcome ε UInt16) = readU16Be bytes field :=
  readU16BeUsize_eq (lt_word hw (by omega))

/-- The end of the data behind a count that takes one byte. -/
theorem usizeAdd_count {start : ℕ} (hstart : start < 16) (count : UInt8) :
    (usizeAdd w start count.toNat : Outcome ε ℕ) = .ok (start + count.toNat) := by
  have hbyte := count.toNat_lt
  exact usizeAdd_of_lt (lt_word hw (by omega))

theorem decodeAddressAndQuantityUsize_eq (functionCode : UInt8) :
    decodeAddressAndQuantityUsize w bytes functionCode = decodeAddressAndQuantity bytes functionCode := by
  simp only [decodeAddressAndQuantityUsize, decodeAddressAndQuantity,
    readU16BeUsize_field hw (show addressFieldByte < 16 by decide),
    readU16BeUsize_field hw (show quantityOrValueFieldByte < 16 by decide)]

theorem decodeWriteSingleCoilUsize_eq : decodeWriteSingleCoilUsize w bytes = decodeWriteSingleCoil bytes := by
  simp only [decodeWriteSingleCoilUsize, decodeWriteSingleCoil, decodeAddressAndQuantityUsize_eq hw]

theorem decodeMaskWriteRegisterUsize_eq : decodeMaskWriteRegisterUsize w bytes = decodeMaskWriteRegister bytes := by
  simp only [decodeMaskWriteRegisterUsize, decodeMaskWriteRegister,
    readU16BeUsize_field hw (show addressFieldByte < 16 by decide),
    readU16BeUsize_field hw (show quantityOrValueFieldByte < 16 by decide),
    readU16BeUsize_field hw (show orMaskFieldByte < 16 by decide)]

theorem decodeBitfieldResponseUsize_eq (functionCode : UInt8) :
    decodeBitfieldResponseUsize w bytes functionCode = decodeBitfieldResponse bytes functionCode := by
  have hbits : ∀ byteCount : UInt8, (usizeMul w byteCount.toNat 8 : Outcome DecodeError ℕ) =
      .ok (byteCount.toNat * 8) := by
    intro byteCount
    have hbyte := byteCount.toNat_lt
    exact usizeMul_of_lt (lt_word hw (by omega))
  simp only [decodeBitfieldResponseUsize, decodeBitfieldResponse,
    usizeAdd_count hw (show responseDataStart < 16 by decide), hbits, ok_bind]

theorem decodeRegisterArrayResponseUsize_eq (functionCode : UInt8) :
    decodeRegisterArrayResponseUsize w bytes functionCode = decodeRegisterArrayResponse bytes functionCode := by
  simp only [decodeRegisterArrayResponseUsize, decodeRegisterArrayResponse,
    usizeAdd_count hw (show responseDataStart < 16 by decide), ok_bind]

theorem ReportServerIdResponse.decodeUsize_eq : decodeUsize w bytes = decode bytes := by
  have hend : ∀ byteCount : UInt8, (usizeSub (reportServerIdDataStart + byteCount.toNat) 1 : Outcome DecodeError ℕ) =
      .ok (reportServerIdDataStart + byteCount.toNat - 1) :=
    fun byteCount => usizeSub_of_le (Nat.le_add_right_of_le (by decide))
  simp only [decodeUsize, decode, usizeAdd_count hw (show reportServerIdDataStart < 16 by decide), hend, ok_bind]

theorem ReadWriteMultipleRegistersRequest.decodeUsize_eq : decodeUsize w bytes = decode bytes := by
  simp only [decodeUsize, decode, readU16BeUsize_field hw (show addressFieldByte < 16 by decide),
    readU16BeUsize_field hw (show quantityOrValueFieldByte < 16 by decide),
    readU16BeUsize_field hw (show readWriteWriteStartingAddressByte < 16 by decide),
    usizeAdd_count hw (show readWriteValuesStart < 16 by decide), ok_bind]

theorem WriteMultipleCoilsRequest.decodeUsize_eq : decodeUsize w bytes = decode bytes := by
  simp only [decodeUsize, decode, readU16BeUsize_field hw (show addressFieldByte < 16 by decide),
    readU16BeUsize_field hw (show quantityOrValueFieldByte < 16 by decide),
    usizeAdd_count hw (show writeMultipleValuesStart < 16 by decide), ok_bind]

theorem WriteMultipleRegistersRequest.decodeUsize_eq : decodeUsize w bytes = decode bytes := by
  simp only [decodeUsize, decode, readU16BeUsize_field hw (show addressFieldByte < 16 by decide),
    usizeAdd_count hw (show writeMultipleValuesStart < 16 by decide), ok_bind]

theorem TcpAdu.decodeUsize_eq : decodeUsize w bytes = decode bytes := by
  have hend : ∀ length : UInt16, (usizeAdd w mbapHeaderLen (length.toNat - 1) : Outcome DecodeError ℕ) =
      .ok (mbapHeaderLen + (length.toNat - 1)) := by
    intro length
    have hword := length.toNat_lt
    have hheader : mbapHeaderLen = 7 := rfl
    exact usizeAdd_of_lt (lt_word hw (by omega))
  simp only [decodeUsize, decode, readU16BeUsize_field hw (show mbapProtocolIdByte < 16 by decide),
    readU16BeUsize_field hw (show mbapLengthByte < 16 by decide),
    readU16BeUsize_field hw (show mbapTransactionIdByte < 16 by decide)]
  split
  · rfl
  refine bind_congr fun protocolId => ?_
  split
  · rfl
  refine bind_congr fun length => ?_
  split
  · rfl
  next hlength =>
  rw [usizeSub_of_le (one_le_length hlength), ok_bind, ok_bind, hend, ok_bind]

variable (hbuffer : bytes.length < 2 ^ (w - 1))

include hbuffer

theorem RtuAdu.decodeUsize_eq : decodeUsize w bytes = decode bytes := by
  have hmin : rtuMinFrameLen = 3 := rfl
  have hcrc : rtuCrcLen = 2 := rfl
  unfold decodeUsize decode
  split
  · rfl
  · have hsecond : bytes.length - rtuCrcLen + 1 < 2 ^ w := add_lt_of_buffer hw hbuffer (by omega) (by omega)
    rw [usizeSub_of_le (by omega), ok_bind]
    simp only [usizeAdd_of_lt hsecond, ok_bind]

theorem ReadFileRecordRequest.decodeUsize_eq : decodeUsize w bytes = decode bytes := by
  refine checkHeader_bind_congr fun hlen => bind_congr fun byteCount => ?_
  simp only [usizeAdd_count hw (show responseDataStart < 16 by decide), ok_bind,
    decodeSubRequestsUsize_eq hw hbuffer hlen]

theorem ReadFileRecordResponse.decodeUsize_eq : decodeUsize w bytes = decode bytes := by
  refine checkHeader_bind_congr fun hlen => bind_congr fun byteCount => ?_
  simp only [usizeAdd_count hw (show responseDataStart < 16 by decide), ok_bind,
    decodeRecordsUsize_eq hw hbuffer hlen]

theorem decodeWriteFileRecordUsize_eq (expectedFunctionCode : UInt8) :
    decodeWriteFileRecordUsize w bytes expectedFunctionCode = decodeWriteFileRecord bytes expectedFunctionCode := by
  refine checkHeader_bind_congr fun hlen => bind_congr fun byteCount => ?_
  simp only [usizeAdd_count hw (show responseDataStart < 16 by decide), ok_bind,
    decodeWriteSubRequestsUsize_eq hw hbuffer hlen]

theorem ReadDeviceIdentificationResponse.decodeUsize_eq : decodeUsize w bytes = decode bytes := by
  refine checkHeader_bind_congr fun hlen => ?_
  simp only [decodeObjectsUsize_eq hw hbuffer (show responseObjectsStart ≤ bytes.length from hlen)]

/-- On words of 32 bits and more every decoder does what it does on natural numbers. -/
theorem decodeUsize_eq (k : Kind) : decodeUsize w k bytes = decode k bytes := by
  cases k with
  | readCoilsRequest | readDiscreteInputsRequest | readHoldingRegistersRequest | readInputRegistersRequest
  | writeSingleRegisterRequest | writeSingleRegisterResponse | writeMultipleCoilsResponse
  | writeMultipleRegistersResponse =>
    rw [decodeUsize, decodeAddressAndQuantityUsize_eq hw]
    rfl
  | writeSingleCoilRequest | writeSingleCoilResponse =>
    rw [decodeUsize, decodeWriteSingleCoilUsize_eq hw]
    rfl
  | maskWriteRegisterRequest | maskWriteRegisterResponse =>
    rw [decodeUsize, decodeMaskWriteRegisterUsize_eq hw]
    rfl
  | readCoilsResponse | readDiscreteInputsResponse =>
    rw [decodeUsize, decodeBitfieldResponseUsize_eq hw]
    rfl
  | readHoldingRegistersResponse | readInputRegistersResponse | readWriteMultipleRegistersResponse =>
    rw [decodeUsize, decodeRegisterArrayResponseUsize_eq hw]
    rfl
  | reportServerIdRequest | readDeviceIdentificationRequest | exceptionResponse => rfl
  | reportServerIdResponse => exact ReportServerIdResponse.decodeUsize_eq hw
  | readWriteMultipleRegistersRequest => exact ReadWriteMultipleRegistersRequest.decodeUsize_eq hw
  | writeMultipleCoilsRequest => exact WriteMultipleCoilsRequest.decodeUsize_eq hw
  | writeMultipleRegistersRequest => exact WriteMultipleRegistersRequest.decodeUsize_eq hw
  | readFileRecordRequest => exact ReadFileRecordRequest.decodeUsize_eq hw hbuffer
  | readFileRecordResponse => exact ReadFileRecordResponse.decodeUsize_eq hw hbuffer
  | writeFileRecordRequest | writeFileRecordResponse =>
    rw [decodeUsize, decodeWriteFileRecordUsize_eq hw hbuffer]
    rfl
  | readDeviceIdentificationResponse => exact ReadDeviceIdentificationResponse.decodeUsize_eq hw hbuffer

end Fits

end InfusedModbus.Protocol
