import InfusedModbus.Protocol.Pdu.Words
import InfusedModbus.ProtocolCore.BitWords
import InfusedModbus.ProtocolCore.Pdu.Progress

/-! The decoders of the port on machine words. They form the sums of the original, with its
turns, and those of their containers: each adds what it is given to what it holds before it
looks whether there is room. From 32 bits on none of these overflows either. -/

namespace InfusedModbus.ProtocolCore

open Foundation Foundation.Outcome Protocol

variable {ε : Type}

/-! ### Containers -/

def PduBytes.extendFromSliceUsize (w : ℕ) (self : PduBytes) (bytes : Bytes) : Outcome CapacityExceeded PduBytes :=
  grown w self.len bytes.length (self.extendFromSlice bytes)

def RegisterValues.extendFromIterUsize (w : ℕ) (self : RegisterValues) (values : List UInt16) :
    Outcome CapacityExceeded RegisterValues :=
  grown w self.len values.length (self.extendFromIter values)

def FileRecordSubRequests.pushUsize (w : ℕ) (self : FileRecordSubRequests) (subRequest : FileRecordSubRequest) :
    Outcome CapacityExceeded FileRecordSubRequests :=
  if self.len = maxFileRecordSubRequests then .err ⟨⟩ else grown w self.len 1 (self.push subRequest)

/-- The bytes first, then the count. -/
def FlatList.pushUsize {κ : Type} {size : κ → ℕ} {capacity : ℕ} (w : ℕ) (self : FlatList κ size capacity) (head : κ)
    (value : Bytes) (hhead : value.length ≤ maxPduLen → size head = value.length) :
    Outcome CapacityExceeded (FlatList κ size capacity) :=
  if self.count = capacity then .err ⟨⟩
  else do
    let after ← grown w self.data.len value.length (self.push head value hhead)
    grown w self.count 1 (.ok after)

def FileRecordResponseData.pushRecordUsize (w : ℕ) (self : FileRecordResponseData) (record : Bytes) :
    Outcome CapacityExceeded FileRecordResponseData :=
  FlatList.pushUsize w self (UInt16.ofNat record.length) record toNat_ofNat_length

def WriteFileRecordSubRequests.pushUsize (w : ℕ) (self : WriteFileRecordSubRequests) (fileNumber recordNumber : UInt16)
    (recordData : Bytes) : Outcome CapacityExceeded WriteFileRecordSubRequests :=
  FlatList.pushUsize w self ⟨fileNumber, recordNumber, UInt16.ofNat recordData.length⟩ recordData toNat_ofNat_length

theorem toNat_length_head {id : UInt8} {value : Bytes} (h : ¬255 < value.length) :
    value.length ≤ maxPduLen →
      (DeviceIdentificationHead.mk id (UInt8.ofNat value.length)).length.toNat = value.length := by
  intro _
  rw [UInt8.ofNat_toNat_mod]
  omega

def DeviceIdentificationObjects.pushUsize (w : ℕ) (self : DeviceIdentificationObjects) (id : UInt8) (value : Bytes) :
    Outcome CapacityExceeded DeviceIdentificationObjects :=
  if hvalue : 255 < value.length then .err ⟨⟩
  else FlatList.pushUsize w self ⟨id, UInt8.ofNat value.length⟩ value (toNat_length_head hvalue)

/-- `?` behind an operation on `&mut self`. -/
def settle {α : Type} (result : Outcome ε (α × Except CapacityExceeded Unit)) (refused : ε) : Outcome ε α :=
  result >>= fun r =>
    match r.2 with
    | .ok _ => pure r.1
    | .error _ => .err refused

/-- Copying packed bits into a list, in a build that checks everything. -/
def extendBits (w : ℕ) (values : BitValues) (packed : Bytes) (bitCount : ℕ) : Outcome DecodeError BitValues :=
  settle (values.extendFromPackedBytesUsize ⟨true, true, w⟩ packed bitCount) .tooLargeForBuffer

/-! ### Loops -/

theorem forward_ported {α : Type} {read : Reader Protocol.DecodeError α} (h : Forward read) : Forward (ported read) :=
  fun _ _ _ hread => h _ _ _ (mapErr_eq_ok.mp hread)

def decodeSubRequestsUsize (w : ℕ) (bytes : Bytes) :
    ℕ → ℕ → FileRecordSubRequests → Outcome DecodeError FileRecordSubRequests :=
  foldTimes (ported (readSubRequestUsize w bytes)) (pushed (FileRecordSubRequests.pushUsize w))

def decodeRecordsUsize (w : ℕ) (bytes : Bytes) :
    ℕ → ℕ → FileRecordResponseData → Outcome DecodeError FileRecordResponseData :=
  foldWhile (ported (readRecordUsize w bytes)) (forward_ported forward_readRecordUsize)
    (pushed (FileRecordResponseData.pushRecordUsize w))

def decodeWriteSubRequestsUsize (w : ℕ) (bytes : Bytes) :
    ℕ → ℕ → WriteFileRecordSubRequests → Outcome DecodeError WriteFileRecordSubRequests :=
  foldWhile (ported (readWriteSubRequestUsize w bytes)) (forward_ported forward_readWriteSubRequestUsize)
    (pushed fun (list : WriteFileRecordSubRequests) s => list.pushUsize w s.fileNumber s.recordNumber s.recordData)

def decodeObjectsUsize (w : ℕ) (bytes : Bytes) :
    ℕ → ℕ → DeviceIdentificationObjects → Outcome DecodeError DeviceIdentificationObjects :=
  foldTimes (ported (readObjectUsize w bytes))
    (pushed fun (list : DeviceIdentificationObjects) o => list.pushUsize w o.id o.value)

/-! ### Messages -/

def decodeAddressAndQuantityUsize (w : ℕ) (bytes : Bytes) (functionCode : UInt8) :
    Outcome DecodeError AddressAndQuantity := do
  checkHeader bytes twoFieldPduLen functionCode
  let startingAddress ← readU16BeUsize w bytes addressFieldByte
  let quantity ← readU16BeUsize w bytes quantityOrValueFieldByte
  pure ⟨startingAddress, quantity⟩

def decodeWriteSingleCoilUsize (w : ℕ) (bytes : Bytes) : Outcome DecodeError (UInt16 × Bool) := do
  let f ← decodeAddressAndQuantityUsize w bytes functionCodeWriteSingleCoil
  if f.quantity = coilValueOn then pure (f.startingAddress, true)
  else if f.quantity = coilValueOff then pure (f.startingAddress, false)
  else .err (.invalidCoilValue f.quantity)

def decodeMaskWriteRegisterUsize (w : ℕ) (bytes : Bytes) : Outcome DecodeError (UInt16 × UInt16 × UInt16) := do
  checkHeader bytes maskWriteRegisterPduLen functionCodeMaskWriteRegister
  let referenceAddress ← readU16BeUsize w bytes addressFieldByte
  let andMask ← readU16BeUsize w bytes quantityOrValueFieldByte
  let orMask ← readU16BeUsize w bytes orMaskFieldByte
  pure (referenceAddress, andMask, orMask)

def decodeBitfieldResponseUsize (w : ℕ) (bytes : Bytes) (functionCode : UInt8) (values : BitValues) :
    Outcome DecodeError BitValues := do
  checkHeader bytes responseHeaderLen functionCode
  let byteCount ← index bytes byteCountByte
  let dataEnd ← usizeAdd w responseDataStart byteCount.toNat
  if bytes.length < dataEnd then .err .tooShort
  else do
    let packed ← slice bytes responseDataStart dataEnd
    let bitCount ← usizeMul w byteCount.toNat 8
    extendBits w values packed bitCount

def decodeRegisterArrayResponseUsize (w : ℕ) (bytes : Bytes) (functionCode : UInt8) (values : RegisterValues) :
    Outcome DecodeError RegisterValues := do
  checkHeader bytes responseHeaderLen functionCode
  let byteCount ← index bytes byteCountByte
  if byteCount.toNat % 2 ≠ 0 then .err (.oddByteCount byteCount)
  else do
    let dataEnd ← usizeAdd w responseDataStart byteCount.toNat
    if bytes.length < dataEnd then .err .tooShort
    else do
      let chunk ← slice bytes responseDataStart dataEnd
      (values.extendFromIterUsize w (wordsOfBytes chunk)).mapErr fun _ => .tooLargeForBuffer

def ReportServerIdResponse.decodeUsize (w : ℕ) (bytes : Bytes) : Outcome DecodeError ReportServerIdResponse := do
  checkHeader bytes reportServerIdResponseHeaderLen functionCodeReportServerId
  let byteCount ← index bytes reportServerIdByteCountByte
  if byteCount.toNat = 0 then .err .tooShort
  else do
    let dataEnd ← usizeAdd w reportServerIdDataStart byteCount.toNat
    if bytes.length < dataEnd then .err .tooShort
    else do
      let serverIdEnd ← usizeSub dataEnd 1
      let slice ← slice bytes reportServerIdDataStart serverIdEnd
      let serverId ← (PduBytes.new.extendFromSliceUsize w slice).mapErr fun _ => .tooLargeForBuffer
      let status ← index bytes serverIdEnd
      pure ⟨serverId, status != runIndicatorOff⟩

def ReadWriteMultipleRegistersRequest.decodeUsize (w : ℕ) (bytes : Bytes) :
    Outcome DecodeError ReadWriteMultipleRegistersRequest := do
  checkHeader bytes readWriteRequestHeaderLen functionCodeReadWriteMultipleRegisters
  let readStartingAddress ← readU16BeUsize w bytes addressFieldByte
  let readQuantity ← readU16BeUsize w bytes quantityOrValueFieldByte
  let writeStartingAddress ← readU16BeUsize w bytes readWriteWriteStartingAddressByte
  let byteCount ← index bytes readWriteByteCountByte
  if byteCount.toNat % 2 ≠ 0 then .err (.oddByteCount byteCount)
  else do
    let dataEnd ← usizeAdd w readWriteValuesStart byteCount.toNat
    if bytes.length < dataEnd then .err .tooShort
    else do
      let chunk ← slice bytes readWriteValuesStart dataEnd
      let writeValues ← (RegisterValues.new.extendFromIterUsize w (wordsOfBytes chunk)).mapErr
        fun _ => .tooLargeForBuffer
      pure ⟨readStartingAddress, readQuantity, writeStartingAddress, writeValues⟩

def WriteMultipleCoilsRequest.decodeUsize (w : ℕ) (bytes : Bytes) : Outcome DecodeError WriteMultipleCoilsRequest := do
  checkHeader bytes writeMultipleRequestHeaderLen functionCodeWriteMultipleCoils
  let startingAddress ← readU16BeUsize w bytes addressFieldByte
  let quantity ← readU16BeUsize w bytes quantityOrValueFieldByte
  let byteCount ← index bytes writeMultipleByteCountByte
  if byteCount.toNat ≠ divCeil quantity.toNat 8 then .err (.quantityByteCountMismatch quantity byteCount)
  else do
    let dataEnd ← usizeAdd w writeMultipleValuesStart byteCount.toNat
    if bytes.length < dataEnd then .err .tooShort
    else do
      let packed ← slice bytes writeMultipleValuesStart dataEnd
      let coilValues ← extendBits w BitValues.new packed quantity.toNat
      pure ⟨startingAddress, coilValues⟩

def WriteMultipleRegistersRequest.decodeUsize (w : ℕ) (bytes : Bytes) :
    Outcome DecodeError WriteMultipleRegistersRequest := do
  checkHeader bytes writeMultipleRequestHeaderLen functionCodeWriteMultipleRegisters
  let startingAddress ← readU16BeUsize w bytes addressFieldByte
  let byteCount ← index bytes writeMultipleByteCountByte
  if byteCount.toNat % 2 ≠ 0 then .err (.oddByteCount byteCount)
  else do
    let dataEnd ← usizeAdd w writeMultipleValuesStart byteCount.toNat
    if bytes.length < dataEnd then .err .tooShort
    else do
      let chunk ← slice bytes writeMultipleValuesStart dataEnd
      let registerValues ← (RegisterValues.new.extendFromIterUsize w (wordsOfBytes chunk)).mapErr
        fun _ => .tooLargeForBuffer
      pure ⟨startingAddress, registerValues⟩

def ReadFileRecordRequest.decodeUsize (w : ℕ) (bytes : Bytes) : Outcome DecodeError ReadFileRecordRequest := do
  checkHeader bytes responseDataStart functionCodeReadFileRecord
  let byteCount ← index bytes byteCountByte
  if byteCount.toNat = 0 ∨ byteCount.toNat % fileRecordSubRequestLen ≠ 0 then
    .err (.invalidFileRecordByteCount byteCount)
  else do
    let dataEnd ← usizeAdd w responseDataStart byteCount.toNat
    if bytes.length < dataEnd then .err .tooShort
    else do
      let subRequests ← decodeSubRequestsUsize w bytes (byteCount.toNat / fileRecordSubRequestLen) responseDataStart
        FileRecordSubRequests.new
      pure ⟨subRequests⟩

def ReadFileRecordResponse.decodeUsize (w : ℕ) (bytes : Bytes) : Outcome DecodeError ReadFileRecordResponse := do
  checkHeader bytes responseDataStart functionCodeReadFileRecord
  let byteCount ← index bytes byteCountByte
  let dataEnd ← usizeAdd w responseDataStart byteCount.toNat
  if bytes.length < dataEnd then .err .tooShort
  else do
    let records ← decodeRecordsUsize w bytes dataEnd responseDataStart FlatList.new
    pure ⟨records⟩

def decodeWriteFileRecordUsize (w : ℕ) (bytes : Bytes) (expectedFunctionCode : UInt8) :
    Outcome DecodeError WriteFileRecordSubRequests := do
  checkHeader bytes responseDataStart expectedFunctionCode
  let byteCount ← index bytes byteCountByte
  let dataEnd ← usizeAdd w responseDataStart byteCount.toNat
  if bytes.length < dataEnd then .err .tooShort
  else decodeWriteSubRequestsUsize w bytes dataEnd responseDataStart FlatList.new

def ReadDeviceIdentificationResponse.decodeUsize (w : ℕ) (bytes : Bytes) :
    Outcome DecodeError ReadDeviceIdentificationResponse := do
  checkHeader bytes readDeviceIdentificationResponseHeaderLen functionCodeEncapsulatedInterfaceTransport
  let meiType ← index bytes meiTypeByte
  if meiType ≠ meiTypeReadDeviceIdentification then
    .err (.unexpectedMeiType meiTypeReadDeviceIdentification meiType)
  else do
    let readDeviceIdCode ← index bytes readDeviceIdCodeByte
    let conformityLevel ← index bytes conformityLevelByte
    let moreFollows ← index bytes moreFollowsByte
    let nextObjectId ← index bytes nextObjectIdByte
    let numberOfObjects ← index bytes numberOfObjectsByte
    let objects ← decodeObjectsUsize w bytes numberOfObjects.toNat responseObjectsStart FlatList.new
    pure ⟨readDeviceIdCode, conformityLevel, moreFollows != moreFollowsNo, nextObjectId, objects⟩

def decodeUsize (w : ℕ) : (k : Kind) → Bytes → Outcome DecodeError (Payload k)
  | .readCoilsRequest, bytes =>
    (decodeAddressAndQuantityUsize w bytes functionCodeReadCoils).map fun f => ⟨f.startingAddress, f.quantity⟩
  | .readCoilsResponse, bytes =>
    (decodeBitfieldResponseUsize w bytes functionCodeReadCoils BitValues.new).map ReadCoilsResponse.mk
  | .readDiscreteInputsRequest, bytes =>
    (decodeAddressAndQuantityUsize w bytes functionCodeReadDiscreteInputs).map fun f => ⟨f.startingAddress, f.quantity⟩
  | .readDiscreteInputsResponse, bytes =>
    (decodeBitfieldResponseUsize w bytes functionCodeReadDiscreteInputs BitValues.new).map ReadDiscreteInputsResponse.mk
  | .readHoldingRegistersRequest, bytes =>
    (decodeAddressAndQuantityUsize w bytes functionCodeReadHoldingRegisters).map
      fun f => ⟨f.startingAddress, f.quantity⟩
  | .readHoldingRegistersResponse, bytes =>
    (decodeRegisterArrayResponseUsize w bytes functionCodeReadHoldingRegisters RegisterValues.new).map
      ReadHoldingRegistersResponse.mk
  | .readInputRegistersRequest, bytes =>
    (decodeAddressAndQuantityUsize w bytes functionCodeReadInputRegisters).map fun f => ⟨f.startingAddress, f.quantity⟩
  | .readInputRegistersResponse, bytes =>
    (decodeRegisterArrayResponseUsize w bytes functionCodeReadInputRegisters RegisterValues.new).map
      ReadInputRegistersResponse.mk
  | .writeSingleCoilRequest, bytes => (decodeWriteSingleCoilUsize w bytes).map fun p => ⟨p.1, p.2⟩
  | .writeSingleCoilResponse, bytes => (decodeWriteSingleCoilUsize w bytes).map fun p => ⟨p.1, p.2⟩
  | .writeSingleRegisterRequest, bytes =>
    (decodeAddressAndQuantityUsize w bytes functionCodeWriteSingleRegister).map fun f => ⟨f.startingAddress, f.quantity⟩
  | .writeSingleRegisterResponse, bytes =>
    (decodeAddressAndQuantityUsize w bytes functionCodeWriteSingleRegister).map fun f => ⟨f.startingAddress, f.quantity⟩
  | .maskWriteRegisterRequest, bytes => (decodeMaskWriteRegisterUsize w bytes).map fun p => ⟨p.1, p.2.1, p.2.2⟩
  | .maskWriteRegisterResponse, bytes => (decodeMaskWriteRegisterUsize w bytes).map fun p => ⟨p.1, p.2.1, p.2.2⟩
  | .reportServerIdRequest, bytes => ReportServerIdRequest.decode bytes
  | .reportServerIdResponse, bytes => ReportServerIdResponse.decodeUsize w bytes
  | .readWriteMultipleRegistersRequest, bytes => ReadWriteMultipleRegistersRequest.decodeUsize w bytes
  | .readWriteMultipleRegistersResponse, bytes =>
    (decodeRegisterArrayResponseUsize w bytes functionCodeReadWriteMultipleRegisters RegisterValues.new).map
      ReadWriteMultipleRegistersResponse.mk
  | .writeMultipleCoilsRequest, bytes => WriteMultipleCoilsRequest.decodeUsize w bytes
  | .writeMultipleCoilsResponse, bytes =>
    (decodeAddressAndQuantityUsize w bytes functionCodeWriteMultipleCoils).map fun f => ⟨f.startingAddress, f.quantity⟩
  | .writeMultipleRegistersRequest, bytes => WriteMultipleRegistersRequest.decodeUsize w bytes
  | .writeMultipleRegistersResponse, bytes =>
    (decodeAddressAndQuantityUsize w bytes functionCodeWriteMultipleRegisters).map
      fun f => ⟨f.startingAddress, f.quantity⟩
  | .readFileRecordRequest, bytes => ReadFileRecordRequest.decodeUsize w bytes
  | .readFileRecordResponse, bytes => ReadFileRecordResponse.decodeUsize w bytes
  | .writeFileRecordRequest, bytes =>
    (decodeWriteFileRecordUsize w bytes functionCodeWriteFileRecord).map WriteFileRecordRequest.mk
  | .writeFileRecordResponse, bytes =>
    (decodeWriteFileRecordUsize w bytes functionCodeWriteFileRecord).map WriteFileRecordResponse.mk
  | .readDeviceIdentificationRequest, bytes => ReadDeviceIdentificationRequest.decode bytes
  | .readDeviceIdentificationResponse, bytes => ReadDeviceIdentificationResponse.decodeUsize w bytes
  | .exceptionResponse, bytes => ExceptionResponse.decode bytes

/-! ### Application data units -/

def TcpAdu.decodeUsize (w : ℕ) (bytes : Bytes) : Outcome DecodeError TcpAdu :=
  if bytes.length < mbapHeaderLen then .err .tooShort
  else do
    let protocolId ← readU16BeUsize w bytes mbapProtocolIdByte
    if protocolId ≠ mbapProtocolId then .err (.unexpectedProtocolId protocolId)
    else do
      let length ← readU16BeUsize w bytes mbapLengthByte
      if length = 0 ∨ mbapMaxLength < length then .err (.invalidAduLength length)
      else do
        let pduLen ← usizeSub length.toNat 1
        let pduEnd ← usizeAdd w mbapHeaderLen pduLen
        if bytes.length < pduEnd then .err .tooShort
        else do
          let transactionId ← readU16BeUsize w bytes mbapTransactionIdByte
          let unitId ← index bytes mbapUnitIdByte
          let data ← slice bytes mbapHeaderLen pduEnd
          let pdu ← (PduBytes.new.extendFromSliceUsize w data).unwrap
          pure ⟨transactionId, unitId, pdu⟩

def RtuAdu.decodeUsize (w : ℕ) (bytes : Bytes) : Outcome DecodeError RtuAdu :=
  if bytes.length < rtuMinFrameLen then .err .tooShort
  else do
    let crcStart ← usizeSub bytes.length rtuCrcLen
    let unitIdAndPdu ← slice bytes 0 crcStart
    let expectedCrc := crc16Modbus unitIdAndPdu
    let lo ← index bytes crcStart
    let second ← usizeAdd w crcStart 1
    let hi ← index bytes second
    let actualCrc := u16FromBeBytes hi lo
    if actualCrc ≠ expectedCrc then .err (.crcMismatch expectedCrc actualCrc)
    else do
      let unitId ← index bytes rtuUnitIdByte
      let data ← slice bytes 1 crcStart
      let pdu ← (PduBytes.new.extendFromSliceUsize w data).mapErr fun _ => .tooLargeForBuffer
      pure ⟨unitId, pdu⟩

/-! ### Nothing overflows -/

theorem settle_inPlace (self : BitValues) (write : Outcome CapacityExceeded BitValues) (refused : ε) :
    settle (self.inPlace write) refused = write.mapErr fun _ => refused := by
  cases write <;> rfl

variable {w : ℕ} {bytes : Bytes}

/-- What follows the header can count on its bytes. -/
theorem checkHeader_bind_congr {α : Type} {minLen : ℕ} {functionCode : UInt8} {f g : Unit → Outcome DecodeError α}
    (h : minLen ≤ bytes.length → f () = g ()) :
    (checkHeader bytes minLen functionCode >>= f) = checkHeader bytes minLen functionCode >>= g := by
  refine bind_congr_ok fun _ hok => h ?_
  unfold checkHeader at hok
  split at hok
  · cases hok
  · omega

theorem length_le_of_slice {i j : ℕ} {part : Bytes} (h : (slice bytes i j : Outcome ε Bytes) = .ok part) :
    part.length ≤ bytes.length := by
  have hlen := (drop_of_slice h).1
  unfold slice at h
  split at h
  · omega
  · cases h

section Fits

variable (hw : 32 ≤ w)

include hw

theorem extendBits_eq (values : BitValues) (packed : Bytes) {bitCount : ℕ} (hbits : bitCount < 65536) :
    extendBits w values packed bitCount = (values.extendFromPackedBytes packed bitCount).mapErr
      fun _ => .tooLargeForBuffer := by
  have hle := values.len_le
  have hmax : maxBitCount = 2000 := rfl
  rw [extendBits, BitValues.extendFromPackedBytesUsize_eq (.inl rfl) (lt_word hw (by omega)), settle_inPlace]

theorem decodeAddressAndQuantityUsize_eq (functionCode : UInt8) :
    decodeAddressAndQuantityUsize w bytes functionCode = decodeAddressAndQuantity bytes functionCode := by
  simp only [decodeAddressAndQuantityUsize, decodeAddressAndQuantity,
    readU16BeUsize_field hw (show addressFieldByte < 16 by decide),
    readU16BeUsize_field hw (show quantityOrValueFieldByte < 16 by decide)]

theorem decodeWriteSingleCoilUsize_eq : decodeWriteSingleCoilUsize w bytes = decodeWriteSingleCoil bytes := by
  simp only [decodeWriteSingleCoilUsize, decodeWriteSingleCoil, decodeAddressAndQuantityUsize_eq hw]

theorem decodeMaskWriteRegisterUsize_eq : decodeMaskWriteRegisterUsize w bytes = decodeMaskWriteRegister bytes := by
  simp only [decodeMaskWriteRegisterUsize, decodeMaskWriteRegister,
    readU16BeUsize_field hw (show addressFieldByte < 16 by decide),
    readU16BeUsize_field hw (show quantityOrValueFieldByte < 16 by decide),
    readU16BeUsize_field hw (show orMaskFieldByte < 16 by decide)]

theorem decodeBitfieldResponseUsize_eq (functionCode : UInt8) (values : BitValues) :
    decodeBitfieldResponseUsize w bytes functionCode values = decodeBitfieldResponse bytes functionCode values := by
  have hbits : ∀ byteCount : UInt8, (usizeMul w byteCount.toNat 8 : Outcome DecodeError ℕ) =
      .ok (byteCount.toNat * 8) := by
    intro byteCount
    have hbyte := byteCount.toNat_lt
    exact usizeMul_of_lt (lt_word hw (by omega))
  have hextend : ∀ (packed : Bytes) (byteCount : UInt8), extendBits w values packed (byteCount.toNat * 8) =
      (values.extendFromPackedBytes packed (byteCount.toNat * 8)).mapErr fun _ => .tooLargeForBuffer := by
    intro packed byteCount
    have hbyte := byteCount.toNat_lt
    exact extendBits_eq hw values packed (by omega)
  simp only [decodeBitfieldResponseUsize, decodeBitfieldResponse,
    usizeAdd_count hw (show responseDataStart < 16 by decide), hbits, hextend, ok_bind]

theorem WriteMultipleCoilsRequest.decodeUsize_eq : decodeUsize w bytes = decode bytes := by
  have hextend : ∀ (packed : Bytes) (quantity : UInt16), extendBits w BitValues.new packed quantity.toNat =
      (BitValues.new.extendFromPackedBytes packed quantity.toNat).mapErr fun _ => .tooLargeForBuffer :=
    fun packed quantity => extendBits_eq hw BitValues.new packed quantity.toNat_lt
  simp only [decodeUsize, decode, readU16BeUsize_field hw (show addressFieldByte < 16 by decide),
    readU16BeUsize_field hw (show quantityOrValueFieldByte < 16 by decide),
    usizeAdd_count hw (show writeMultipleValuesStart < 16 by decide), hextend, ok_bind]

theorem FileRecordSubRequests.pushUsize_eq (self : FileRecordSubRequests) (subRequest : FileRecordSubRequest) :
    self.pushUsize w subRequest = self.push subRequest := by
  have hle : self.len ≤ 35 := self.len_le
  unfold pushUsize
  split
  · next hfull => rw [push, dif_pos (show self.asSlice.length = _ from hfull)]
  · exact grown_of_lt (lt_word hw (by omega)) _

variable (hbuffer : bytes.length < 2 ^ (w - 1))

include hbuffer

/-- A container with little in it and a part of the buffer have a length together. -/
theorem fill_lt {used more : ℕ} (hused : used < 262144) (hmore : more ≤ bytes.length) : used + more < 2 ^ w := by
  rw [Nat.add_comm]
  exact add_lt_of_buffer hw hbuffer hmore hused

theorem PduBytes.extendFromSliceUsize_eq (self : PduBytes) {part : Bytes} (hpart : part.length ≤ bytes.length) :
    self.extendFromSliceUsize w part = self.extendFromSlice part := by
  have hle : self.len ≤ 253 := self.len_le
  exact grown_of_lt (fill_lt hw hbuffer (by omega) hpart) _

theorem RegisterValues.extendFromIterUsize_eq (self : RegisterValues) {chunk : Bytes}
    (hchunk : chunk.length ≤ bytes.length) :
    self.extendFromIterUsize w (wordsOfBytes chunk) = self.extendFromIter (wordsOfBytes chunk) := by
  have hle : self.len ≤ 125 := self.len_le
  exact grown_of_lt (fill_lt hw hbuffer (by omega) (by rw [length_wordsOfBytes]; omega)) _

theorem FlatList.pushUsize_eq {κ : Type} {size : κ → ℕ} {capacity : ℕ} (hcapacity : capacity < 262144)
    (self : FlatList κ size capacity) (head : κ) {value : Bytes}
    (hhead : value.length ≤ maxPduLen → size head = value.length) (hvalue : value.length ≤ bytes.length) :
    self.pushUsize w head value hhead = self.push head value hhead := by
  have hle : self.data.len ≤ 253 := self.data.len_le
  have hcount : self.count ≤ capacity := self.count_le
  unfold pushUsize
  split
  · next hfull => rw [push, dif_pos (show self.heads.length = _ from hfull)]
  · rw [grown_of_lt (fill_lt hw hbuffer (by omega) hvalue)]
    simp only [grown_of_lt (lt_word hw (show self.count + 1 < 4294967296 by omega))]
    cases self.push head value hhead <;> rfl

theorem DeviceIdentificationObjects.pushUsize_eq (self : DeviceIdentificationObjects) (id : UInt8) {value : Bytes}
    (hvalue : value.length ≤ bytes.length) : self.pushUsize w id value = self.push id value := by
  unfold pushUsize push
  split
  · rfl
  · exact FlatList.pushUsize_eq hw hbuffer (by decide) self _ _ hvalue

theorem decodeRegisterArrayResponseUsize_eq (functionCode : UInt8) (values : RegisterValues) :
    decodeRegisterArrayResponseUsize w bytes functionCode values =
      decodeRegisterArrayResponse bytes functionCode values := by
  simp only [decodeRegisterArrayResponseUsize, decodeRegisterArrayResponse,
    usizeAdd_count hw (show responseDataStart < 16 by decide), ok_bind]
  refine bind_congr fun _ => bind_congr fun byteCount => ?_
  split
  · rfl
  split
  · rfl
  refine bind_congr_ok fun chunk hchunk => ?_
  rw [RegisterValues.extendFromIterUsize_eq hw hbuffer values (length_le_of_slice hchunk)]

theorem ReportServerIdResponse.decodeUsize_eq : decodeUsize w bytes = decode bytes := by
  have hend : ∀ byteCount : UInt8, (usizeSub (reportServerIdDataStart + byteCount.toNat) 1 : Outcome DecodeError ℕ) =
      .ok (reportServerIdDataStart + byteCount.toNat - 1) :=
    fun byteCount => usizeSub_of_le (Nat.le_add_right_of_le (by decide))
  simp only [decodeUsize, decode, usizeAdd_count hw (show reportServerIdDataStart < 16 by decide), hend, ok_bind]
  refine bind_congr fun _ => bind_congr fun byteCount => ?_
  split
  · rfl
  split
  · rfl
  refine bind_congr_ok fun part hpart => ?_
  rw [PduBytes.extendFromSliceUsize_eq hw hbuffer PduBytes.new (length_le_of_slice hpart)]

theorem ReadWriteMultipleRegistersRequest.decodeUsize_eq : decodeUsize w bytes = decode bytes := by
  simp only [decodeUsize, decode, readU16BeUsize_field hw (show addressFieldByte < 16 by decide),
    readU16BeUsize_field hw (show quantityOrValueFieldByte < 16 by decide),
    readU16BeUsize_field hw (show readWriteWriteStartingAddressByte < 16 by decide),
    usizeAdd_count hw (show readWriteValuesStart < 16 by decide), ok_bind]
  refine bind_congr fun _ => bind_congr fun _ => bind_congr fun _ => bind_congr fun _ => bind_congr fun byteCount => ?_
  split
  · rfl
  split
  · rfl
  refine bind_congr_ok fun chunk hchunk => ?_
  rw [RegisterValues.extendFromIterUsize_eq hw hbuffer RegisterValues.new (length_le_of_slice hchunk)]

theorem WriteMultipleRegistersRequest.decodeUsize_eq : decodeUsize w bytes = decode bytes := by
  simp only [decodeUsize, decode, readU16BeUsize_field hw (show addressFieldByte < 16 by decide),
    usizeAdd_count hw (show writeMultipleValuesStart < 16 by decide), ok_bind]
  refine bind_congr fun _ => bind_congr fun _ => bind_congr fun byteCount => ?_
  split
  · rfl
  split
  · rfl
  refine bind_congr_ok fun chunk hchunk => ?_
  rw [RegisterValues.extendFromIterUsize_eq hw hbuffer RegisterValues.new (length_le_of_slice hchunk)]

section Loops

variable {offset : ℕ} (hoffset : offset ≤ bytes.length)

include hoffset

theorem decodeSubRequestsUsize_eq (n : ℕ) (subRequests : FileRecordSubRequests) :
    decodeSubRequestsUsize w bytes n offset subRequests = decodeSubRequests bytes n offset subRequests := by
  refine (foldsTimes_decodeSubRequests bytes).congr foldsTimes_foldTimes
    (advances_ported (advances_readSubRequest bytes)) ?_ ?_ n hoffset subRequests
  · intro offset hle
    rw [ported, ported, readSubRequestUsize_eq hw hbuffer hle]
  · intro list offset s next _
    rw [pushed, pushed, FileRecordSubRequests.pushUsize_eq hw]

theorem decodeRecordsUsize_eq (limit : ℕ) (records : FileRecordResponseData) :
    decodeRecordsUsize w bytes limit offset records = decodeRecords bytes limit offset records := by
  refine (foldsWhile_decodeRecords bytes limit).congr (foldsWhile_foldWhile _ limit)
    (advances_ported (advances_readRecord bytes)) ?_ ?_ hoffset records
  · intro offset hle
    rw [ported, ported, readRecordUsize_eq hw hbuffer hle]
  · intro list offset record next hread
    obtain ⟨hnext, hle, -⟩ := readRecord_eq_ok (mapErr_eq_ok.mp hread)
    exact congrArg (mapErr _) (FlatList.pushUsize_eq hw hbuffer (by decide) list _ _ (by omega))

theorem decodeWriteSubRequestsUsize_eq (limit : ℕ) (subRequests : WriteFileRecordSubRequests) :
    decodeWriteSubRequestsUsize w bytes limit offset subRequests =
      decodeWriteSubRequests bytes limit offset subRequests := by
  refine (foldsWhile_decodeWriteSubRequests bytes limit).congr (foldsWhile_foldWhile _ limit)
    (advances_ported (advances_readWriteSubRequest bytes)) ?_ ?_ hoffset subRequests
  · intro offset hle
    rw [ported, ported, readWriteSubRequestUsize_eq hw hbuffer hle]
  · intro list offset s next hread
    obtain ⟨hnext, hle, -⟩ := readWriteSubRequest_eq_ok (mapErr_eq_ok.mp hread)
    exact congrArg (mapErr _) (FlatList.pushUsize_eq hw hbuffer (by decide) list _ _ (by omega))

theorem decodeObjectsUsize_eq (n : ℕ) (objects : DeviceIdentificationObjects) :
    decodeObjectsUsize w bytes n offset objects = decodeObjects bytes n offset objects := by
  refine (foldsTimes_decodeObjects bytes).congr foldsTimes_foldTimes
    (advances_ported (advances_readObject bytes)) ?_ ?_ n hoffset objects
  · intro offset hle
    rw [ported, ported, readObjectUsize_eq hw hbuffer hle]
  · intro list offset o next hread
    obtain ⟨hnext, hle⟩ := readObject_eq_ok (mapErr_eq_ok.mp hread)
    exact congrArg (mapErr _) (DeviceIdentificationObjects.pushUsize_eq hw hbuffer list o.id (by omega))

end Loops

theorem ReadFileRecordRequest.decodeUsize_eq : decodeUsize w bytes = decode bytes := by
  refine checkHeader_bind_congr fun hlen => bind_congr fun byteCount => ?_
  simp only [usizeAdd_count hw (show responseDataStart < 16 by decide), ok_bind,
    decodeSubRequestsUsize_eq hw hbuffer hlen]

theorem ReadFileRecordResponse.decodeUsize_eq : decodeUsize w bytes = decode bytes := by
  refine checkHeader_bind_congr fun hlen => bind_congr fun byteCount => ?_
  simp only [usizeAdd_count hw (show responseDataStart < 16 by decide), ok_bind,
    decodeRecordsUsize_eq hw hbuffer hlen]

theorem decodeWriteFileRecordUsize_eq (expectedFunctionCode : UInt8) :
    decodeWriteFileRecordUsize w bytes expectedFunctionCode = decodeWriteFileRecord bytes expectedFunctionCode := by
  refine checkHeader_bind_congr fun hlen => bind_congr fun byteCount => ?_
  simp only [usizeAdd_count hw (show responseDataStart < 16 by decide), ok_bind,
    decodeWriteSubRequestsUsize_eq hw hbuffer hlen]

theorem ReadDeviceIdentificationResponse.decodeUsize_eq : decodeUsize w bytes = decode bytes := by
  refine checkHeader_bind_congr fun hlen => ?_
  simp only [decodeObjectsUsize_eq hw hbuffer (show responseObjectsStart ≤ bytes.length from hlen)]

/-- On words of 32 bits and more every decoder does what it does on natural numbers. -/
theorem decodeUsize_eq (k : Kind) : decodeUsize w k bytes = decode k bytes := by
  cases k with
  | readCoilsRequest | readDiscreteInputsRequest | readHoldingRegistersRequest | readInputRegistersRequest
  | writeSingleRegisterRequest | writeSingleRegisterResponse | writeMultipleCoilsResponse
  | writeMultipleRegistersResponse =>
    rw [decodeUsize, decodeAddressAndQuantityUsize_eq hw]
    rfl
  | writeSingleCoilRequest | writeSingleCoilResponse =>
    rw [decodeUsize, decodeWriteSingleCoilUsize_eq hw]
    rfl
  | maskWriteRegisterRequest | maskWriteRegisterResponse =>
    rw [decodeUsize, decodeMaskWriteRegisterUsize_eq hw]
    rfl
  | readCoilsResponse | readDiscreteInputsResponse =>
    rw [decodeUsize, decodeBitfieldResponseUsize_eq hw]
    rfl
  | readHoldingRegistersResponse | readInputRegistersResponse | readWriteMultipleRegistersResponse =>
    rw [decodeUsize, decodeRegisterArrayResponseUsize_eq hw hbuffer]
    rfl
  | reportServerIdRequest | readDeviceIdentificationRequest | exceptionResponse => rfl
  | reportServerIdResponse => exact ReportServerIdResponse.decodeUsize_eq hw hbuffer
  | readWriteMultipleRegistersRequest => exact ReadWriteMultipleRegistersRequest.decodeUsize_eq hw hbuffer
  | writeMultipleCoilsRequest => exact WriteMultipleCoilsRequest.decodeUsize_eq hw
  | writeMultipleRegistersRequest => exact WriteMultipleRegistersRequest.decodeUsize_eq hw hbuffer
  | readFileRecordRequest => exact ReadFileRecordRequest.decodeUsize_eq hw hbuffer
  | readFileRecordResponse => exact ReadFileRecordResponse.decodeUsize_eq hw hbuffer
  | writeFileRecordRequest | writeFileRecordResponse =>
    rw [decodeUsize, decodeWriteFileRecordUsize_eq hw hbuffer]
    rfl
  | readDeviceIdentificationResponse => exact ReadDeviceIdentificationResponse.decodeUsize_eq hw hbuffer

theorem TcpAdu.decodeUsize_eq : decodeUsize w bytes = decode bytes := by
  have hend : ∀ length : UInt16, (usizeAdd w mbapHeaderLen (length.toNat - 1) : Outcome DecodeError ℕ) =
      .ok (mbapHeaderLen + (length.toNat - 1)) := by
    intro length
    have hword := length.toNat_lt
    have hheader : mbapHeaderLen = 7 := rfl
    exact usizeAdd_of_lt (lt_word hw (by omega))
  simp only [decodeUsize, decode, readU16BeUsize_field hw (show mbapProtocolIdByte < 16 by decide),
    readU16BeUsize_field hw (show mbapLengthByte < 16 by decide),
    readU16BeUsize_field hw (show mbapTransactionIdByte < 16 by decide)]
  split
  · rfl
  refine bind_congr fun protocolId => ?_
  split
  · rfl
  refine bind_congr fun length => ?_
  split
  · rfl
  next hlength =>
  rw [usizeSub_of_le (Protocol.TcpAdu.one_le_length hlength), ok_bind, ok_bind, hend, ok_bind]
  split
  · rfl
  refine bind_congr fun _ => bind_congr fun _ => bind_congr_ok fun data hdata => ?_
  rw [PduBytes.extendFromSliceUsize_eq hw hbuffer PduBytes.new (length_le_of_slice hdata)]

theorem RtuAdu.decodeUsize_eq : decodeUsize w bytes = decode bytes := by
  have hmin : rtuMinFrameLen = 3 := rfl
  have hcrc : rtuCrcLen = 2 := rfl
  unfold decodeUsize decode
  split
  · rfl
  have hsecond : bytes.length - rtuCrcLen + 1 < 2 ^ w := add_lt_of_buffer hw hbuffer (by omega) (by omega)
  rw [usizeSub_of_le (by omega), ok_bind]
  simp only [usizeAdd_of_lt hsecond, ok_bind]
  refine bind_congr fun _ => bind_congr fun _ => bind_congr fun _ => ?_
  split
  · rfl
  refine bind_congr fun _ => bind_congr_ok fun data hdata => ?_
  rw [PduBytes.extendFromSliceUsize_eq hw hbuffer PduBytes.new (length_le_of_slice hdata)]

end Fits

end InfusedModbus.ProtocolCore
