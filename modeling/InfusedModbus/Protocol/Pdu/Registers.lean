import InfusedModbus.Protocol.Pdu.Fields

/-! The PDUs that carry a list of 16-bit registers behind a byte count: the three
register responses, Write Multiple Registers, and Read/Write Multiple Registers.
The two requests refuse to encode more registers than a PDU has room for; their
quantity field is written but not read back. -/

namespace InfusedModbus.Protocol

open Foundation Foundation.Outcome

/-! ### Register responses -/

def encodeRegisterArrayResponse (functionCode : UInt8) (registerValues : List UInt16) : Bytes :=
  functionCode :: UInt8.ofNat (registerValues.length * 2) :: bytesOfWords registerValues

def decodeRegisterArrayResponse (bytes : Bytes) (functionCode : UInt8) : Outcome DecodeError (List UInt16) := do
  checkHeader bytes responseHeaderLen functionCode
  let byteCount ← index bytes byteCountByte
  if byteCount.toNat % 2 ≠ 0 then .err (.oddByteCount byteCount)
  else if bytes.length < responseDataStart + byteCount.toNat then .err .tooShort
  else do
    let chunk ← slice bytes responseDataStart (responseDataStart + byteCount.toNat)
    pure (wordsOfBytes chunk)

@[simp] theorem length_encodeRegisterArrayResponse (functionCode : UInt8) (registerValues : List UInt16) :
    (encodeRegisterArrayResponse functionCode registerValues).length = 2 + 2 * registerValues.length := by
  simp [encodeRegisterArrayResponse]
  omega

theorem decodeRegisterArrayResponse_cons (functionCode byteCount : UInt8) (data : Bytes) :
    decodeRegisterArrayResponse (functionCode :: byteCount :: data) functionCode =
      if byteCount.toNat % 2 ≠ 0 then .err (.oddByteCount byteCount)
      else if data.length < byteCount.toNat then .err .tooShort
      else .ok (wordsOfBytes (data.take byteCount.toNat)) := by
  rw [decodeRegisterArrayResponse, checkHeader_cons functionCode (by simp [responseHeaderLen]), ok_bind,
    byteCountByte, index_cons_succ, index_cons_zero, ok_bind, responseDataStart]
  simp only [List.length_cons, Nat.add_comm 2, Nat.add_assoc, Nat.reduceAdd, Nat.add_lt_add_iff_right]
  split
  · rfl
  · split
    · rfl
    · next hlen =>
      rw [slice_of_le (by omega) (by simp; omega), Nat.add_sub_cancel]
      simp

/-- A word list whose byte length fits the byte count field is read back from it. -/
theorem wordsOfBytes_take_ofNat {registerValues : List UInt16} (h : registerValues.length * 2 < 256) :
    (UInt8.ofNat (registerValues.length * 2)).toNat = (bytesOfWords registerValues).length := by
  rw [UInt8.ofNat_toNat_mod, length_bytesOfWords, Nat.mod_eq_of_lt h, Nat.mul_comm]

theorem decodeRegisterArrayResponse_encode (functionCode : UInt8) {registerValues : List UInt16}
    (h : registerValues.length * 2 < 256) :
    decodeRegisterArrayResponse (encodeRegisterArrayResponse functionCode registerValues) functionCode =
      .ok registerValues := by
  rw [encodeRegisterArrayResponse, decodeRegisterArrayResponse_cons, wordsOfBytes_take_ofNat h,
    if_neg (by simp), if_neg (by omega), List.take_length, wordsOfBytes_bytesOfWords]

theorem decodeRegisterArrayResponse_ne_panic (bytes : Bytes) (functionCode : UInt8) :
    decodeRegisterArrayResponse bytes functionCode ≠ .panic := by
  rcases checkHeader_cases bytes functionCode (show 0 < responseHeaderLen by decide)
    with ⟨rest, rfl, hlen⟩ | ⟨e, he⟩
  · match rest, hlen with
    | byteCount :: data, _ =>
      rw [decodeRegisterArrayResponse_cons]
      split
      · simp
      · split <;> simp
  · simp [decodeRegisterArrayResponse, he]

structure ReadHoldingRegistersResponse where
  registerValues : List UInt16
  deriving DecidableEq, Repr

structure ReadInputRegistersResponse where
  registerValues : List UInt16
  deriving DecidableEq, Repr

structure ReadWriteMultipleRegistersResponse where
  registerValues : List UInt16
  deriving DecidableEq, Repr

def ReadHoldingRegistersResponse.encode (m : ReadHoldingRegistersResponse) : Bytes :=
  encodeRegisterArrayResponse functionCodeReadHoldingRegisters m.registerValues

def ReadHoldingRegistersResponse.decode (bytes : Bytes) : Outcome DecodeError ReadHoldingRegistersResponse :=
  (decodeRegisterArrayResponse bytes functionCodeReadHoldingRegisters).map ReadHoldingRegistersResponse.mk

def ReadInputRegistersResponse.encode (m : ReadInputRegistersResponse) : Bytes :=
  encodeRegisterArrayResponse functionCodeReadInputRegisters m.registerValues

def ReadInputRegistersResponse.decode (bytes : Bytes) : Outcome DecodeError ReadInputRegistersResponse :=
  (decodeRegisterArrayResponse bytes functionCodeReadInputRegisters).map ReadInputRegistersResponse.mk

def ReadWriteMultipleRegistersResponse.encode (m : ReadWriteMultipleRegistersResponse) : Bytes :=
  encodeRegisterArrayResponse functionCodeReadWriteMultipleRegisters m.registerValues

def ReadWriteMultipleRegistersResponse.decode (bytes : Bytes) :
    Outcome DecodeError ReadWriteMultipleRegistersResponse :=
  (decodeRegisterArrayResponse bytes functionCodeReadWriteMultipleRegisters).map
    ReadWriteMultipleRegistersResponse.mk

/-! ### Write Multiple Registers -/

/-- The most registers one Write Multiple Registers request may carry. -/
def maxWriteMultipleRegistersCount : ℕ := 123

structure WriteMultipleRegistersRequest where
  startingAddress : UInt16
  registerValues : List UInt16
  deriving DecidableEq, Repr

namespace WriteMultipleRegistersRequest

def encode (m : WriteMultipleRegistersRequest) : Outcome EncodeError Bytes :=
  if m.registerValues.length > maxWriteMultipleRegistersCount then
    .err (.tooManyRegisters m.registerValues.length maxWriteMultipleRegistersCount)
  else
    .ok (functionCodeWriteMultipleRegisters ::
      (u16ToBeBytes m.startingAddress ++ (u16ToBeBytes (UInt16.ofNat m.registerValues.length) ++
        UInt8.ofNat (m.registerValues.length * 2) :: bytesOfWords m.registerValues)))

def decode (bytes : Bytes) : Outcome DecodeError WriteMultipleRegistersRequest := do
  checkHeader bytes writeMultipleRequestHeaderLen functionCodeWriteMultipleRegisters
  let startingAddress ← readU16Be bytes addressFieldByte
  let byteCount ← index bytes writeMultipleByteCountByte
  if byteCount.toNat % 2 ≠ 0 then .err (.oddByteCount byteCount)
  else if bytes.length < writeMultipleValuesStart + byteCount.toNat then .err .tooShort
  else do
    let chunk ← slice bytes writeMultipleValuesStart (writeMultipleValuesStart + byteCount.toNat)
    pure ⟨startingAddress, wordsOfBytes chunk⟩

theorem decode_cons (a1 a0 q1 q0 byteCount : UInt8) (data : Bytes) :
    decode (functionCodeWriteMultipleRegisters :: a1 :: a0 :: q1 :: q0 :: byteCount :: data) =
      if byteCount.toNat % 2 ≠ 0 then .err (.oddByteCount byteCount)
      else if data.length < byteCount.toNat then .err .tooShort
      else .ok ⟨u16FromBeBytes a1 a0, wordsOfBytes (data.take byteCount.toNat)⟩ := by
  rw [decode, checkHeader_cons _ (by simp [writeMultipleRequestHeaderLen])]
  simp only [ok_bind, addressFieldByte, writeMultipleByteCountByte, writeMultipleValuesStart,
    readU16Be_cons_succ, readU16Be_cons_zero, index_cons_succ, index_cons_zero, List.length_cons,
    Nat.add_comm 6, Nat.add_assoc, Nat.reduceAdd, Nat.add_lt_add_iff_right]
  split
  · rfl
  · split
    · rfl
    · next hlen =>
      rw [slice_of_le (by omega) (by simp; omega), Nat.add_sub_cancel]
      simp

theorem decode_encode {m : WriteMultipleRegistersRequest} {bytes : Bytes} (h : m.encode = .ok bytes) :
    decode bytes = .ok m := by
  unfold encode at h
  split at h
  · cases h
  · next hcount =>
    simp only [maxWriteMultipleRegistersCount] at hcount
    obtain rfl := Outcome.ok.inj h
    simp only [u16ToBeBytes, List.cons_append, List.nil_append, decode_cons, u16FromBeBytes_toBeBytes,
      wordsOfBytes_take_ofNat (show m.registerValues.length * 2 < 256 by omega)]
    rw [if_neg (by simp), if_neg (by omega), List.take_length, wordsOfBytes_bytesOfWords]

theorem decode_ne_panic (bytes : Bytes) : decode bytes ≠ .panic := by
  rcases checkHeader_cases bytes functionCodeWriteMultipleRegisters (show 0 < writeMultipleRequestHeaderLen by decide)
    with ⟨rest, rfl, hlen⟩ | ⟨e, he⟩
  · match rest, hlen with
    | a1 :: a0 :: q1 :: q0 :: byteCount :: data, _ =>
      rw [decode_cons]
      split
      · simp
      · split <;> simp
  · simp [decode, he]

/-- A decoded request carries no more registers than its byte count can say. -/
theorem length_of_decode {bytes : Bytes} {m : WriteMultipleRegistersRequest} (h : decode bytes = .ok m) :
    m.registerValues.length ≤ 127 := by
  rcases checkHeader_cases bytes functionCodeWriteMultipleRegisters (show 0 < writeMultipleRequestHeaderLen by decide)
    with ⟨rest, rfl, hlen⟩ | ⟨e, he⟩
  · match rest, hlen with
    | a1 :: a0 :: q1 :: q0 :: byteCount :: data, _ =>
      rw [decode_cons] at h
      split at h
      · cases h
      · split at h
        · cases h
        · obtain rfl := Outcome.ok.inj h
          have := byteCount.toNat_lt
          simp only [length_wordsOfBytes, List.length_take]
          omega
  · simp [decode, he] at h

end WriteMultipleRegistersRequest

/-! ### Read/Write Multiple Registers -/

/-- The most registers the write half of one Read/Write request may carry. -/
def maxReadWriteMultipleRegistersWriteCount : ℕ := 121

structure ReadWriteMultipleRegistersRequest where
  readStartingAddress : UInt16
  readQuantity : UInt16
  writeStartingAddress : UInt16
  writeValues : List UInt16
  deriving DecidableEq, Repr

namespace ReadWriteMultipleRegistersRequest

def encode (m : ReadWriteMultipleRegistersRequest) : Outcome EncodeError Bytes :=
  if m.writeValues.length > maxReadWriteMultipleRegistersWriteCount then
    .err (.tooManyRegisters m.writeValues.length maxReadWriteMultipleRegistersWriteCount)
  else
    .ok (functionCodeReadWriteMultipleRegisters ::
      (u16ToBeBytes m.readStartingAddress ++ (u16ToBeBytes m.readQuantity ++
        (u16ToBeBytes m.writeStartingAddress ++ (u16ToBeBytes (UInt16.ofNat m.writeValues.length) ++
          UInt8.ofNat (m.writeValues.length * 2) :: bytesOfWords m.writeValues)))))

def decode (bytes : Bytes) : Outcome DecodeError ReadWriteMultipleRegistersRequest := do
  checkHeader bytes readWriteRequestHeaderLen functionCodeReadWriteMultipleRegisters
  let readStartingAddress ← readU16Be bytes addressFieldByte
  let readQuantity ← readU16Be bytes quantityOrValueFieldByte
  let writeStartingAddress ← readU16Be bytes readWriteWriteStartingAddressByte
  let byteCount ← index bytes readWriteByteCountByte
  if byteCount.toNat % 2 ≠ 0 then .err (.oddByteCount byteCount)
  else if bytes.length < readWriteValuesStart + byteCount.toNat then .err .tooShort
  else do
    let chunk ← slice bytes readWriteValuesStart (readWriteValuesStart + byteCount.toNat)
    pure ⟨readStartingAddress, readQuantity, writeStartingAddress, wordsOfBytes chunk⟩

theorem decode_cons (r1 r0 n1 n0 w1 w0 q1 q0 byteCount : UInt8) (data : Bytes) :
    decode (functionCodeReadWriteMultipleRegisters ::
        r1 :: r0 :: n1 :: n0 :: w1 :: w0 :: q1 :: q0 :: byteCount :: data) =
      if byteCount.toNat % 2 ≠ 0 then .err (.oddByteCount byteCount)
      else if data.length < byteCount.toNat then .err .tooShort
      else .ok ⟨u16FromBeBytes r1 r0, u16FromBeBytes n1 n0, u16FromBeBytes w1 w0,
        wordsOfBytes (data.take byteCount.toNat)⟩ := by
  rw [decode, checkHeader_cons _ (by simp [readWriteRequestHeaderLen])]
  simp only [ok_bind, addressFieldByte, quantityOrValueFieldByte, readWriteWriteStartingAddressByte,
    readWriteByteCountByte, readWriteValuesStart, readU16Be_cons_succ, readU16Be_cons_zero,
    index_cons_succ, index_cons_zero, List.length_cons, Nat.add_comm 10, Nat.add_assoc, Nat.reduceAdd,
    Nat.add_lt_add_iff_right]
  split
  · rfl
  · split
    · rfl
    · next hlen =>
      rw [slice_of_le (by omega) (by simp; omega), Nat.add_sub_cancel]
      simp

theorem decode_encode {m : ReadWriteMultipleRegistersRequest} {bytes : Bytes} (h : m.encode = .ok bytes) :
    decode bytes = .ok m := by
  unfold encode at h
  split at h
  · cases h
  · next hcount =>
    simp only [maxReadWriteMultipleRegistersWriteCount] at hcount
    obtain rfl := Outcome.ok.inj h
    simp only [u16ToBeBytes, List.cons_append, List.nil_append, decode_cons, u16FromBeBytes_toBeBytes,
      wordsOfBytes_take_ofNat (show m.writeValues.length * 2 < 256 by omega)]
    rw [if_neg (by simp), if_neg (by omega), List.take_length, wordsOfBytes_bytesOfWords]

theorem decode_ne_panic (bytes : Bytes) : decode bytes ≠ .panic := by
  rcases checkHeader_cases bytes functionCodeReadWriteMultipleRegisters (show 0 < readWriteRequestHeaderLen by decide)
    with ⟨rest, rfl, hlen⟩ | ⟨e, he⟩
  · match rest, hlen with
    | r1 :: r0 :: n1 :: n0 :: w1 :: w0 :: q1 :: q0 :: byteCount :: data, _ =>
      rw [decode_cons]
      split
      · simp
      · split <;> simp
  · simp [decode, he]

/-- A decoded request carries no more registers than its byte count can say. -/
theorem length_of_decode {bytes : Bytes} {m : ReadWriteMultipleRegistersRequest} (h : decode bytes = .ok m) :
    m.writeValues.length ≤ 127 := by
  rcases checkHeader_cases bytes functionCodeReadWriteMultipleRegisters (show 0 < readWriteRequestHeaderLen by decide)
    with ⟨rest, rfl, hlen⟩ | ⟨e, he⟩
  · match rest, hlen with
    | r1 :: r0 :: n1 :: n0 :: w1 :: w0 :: q1 :: q0 :: byteCount :: data, _ =>
      rw [decode_cons] at h
      split at h
      · cases h
      · split at h
        · cases h
        · obtain rfl := Outcome.ok.inj h
          have := byteCount.toNat_lt
          simp only [length_wordsOfBytes, List.length_take]
          omega
  · simp [decode, he] at h

end ReadWriteMultipleRegistersRequest

end InfusedModbus.Protocol
