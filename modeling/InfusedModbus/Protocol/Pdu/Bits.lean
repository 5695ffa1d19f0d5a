import InfusedModbus.Foundation.BitPack
import InfusedModbus.Protocol.Pdu.Fields

/-! The PDUs that carry packed bits: the responses to the two bit reads and the
Write Multiple Coils request. A response does not say how many of its bits are
real, so decoding it also yields the padding; the request's quantity field does. -/

namespace InfusedModbus.Protocol

open Foundation Foundation.Outcome

/-- Set bit `bitIndex`, the least significant bit of the first byte being bit 0. -/
def packBit (packed : Bytes) (bitIndex : ℕ) : Bytes := setBit packed bitIndex

/-- Read bit `bitIndex` back. -/
def unpackBit {ε : Type} (packed : Bytes) (bitIndex : ℕ) : Outcome ε Bool := do
  let byte ← index packed (bitIndex / 8)
  pure (byte &&& bitMask (bitIndex % 8) != 0)

theorem unpackBit_of_lt {ε : Type} {packed : Bytes} {bitIndex : ℕ} (h : bitIndex / 8 < packed.length) :
    (unpackBit packed bitIndex : Outcome ε Bool) = .ok (bitAt packed bitIndex) := by
  rw [unpackBit, index_of_lt h, ok_bind, testMask (Nat.mod_lt _ (by omega)), bitAt_eq_getElem h, pure_eq]

/-- Set the bits of a list that are true, numbering them from `bitIndex`. -/
def packFrom (bitIndex : ℕ) : List Bool → Bytes → Bytes
  | [], packed => packed
  | value :: values, packed => packFrom (bitIndex + 1) values (if value then packBit packed bitIndex else packed)

theorem packFrom_eq_setBits (bitIndex : ℕ) (values : List Bool) (packed : Bytes) :
    packFrom bitIndex values packed = setBits bitIndex values packed := by
  induction values generalizing bitIndex packed with
  | nil => rfl
  | cons value values ih => rw [packFrom, setBits, ih, packBit]

/-! ### Bitfield responses -/

def encodeBitfieldResponse (functionCode : UInt8) (values : List Bool) : Bytes :=
  let byteCount := divCeil values.length 8
  functionCode :: UInt8.ofNat byteCount :: packFrom 0 values (List.replicate byteCount 0)

def decodeBitfieldResponse (bytes : Bytes) (functionCode : UInt8) : Outcome DecodeError (List Bool) := do
  checkHeader bytes responseHeaderLen functionCode
  let byteCount ← index bytes byteCountByte
  if bytes.length < responseDataStart + byteCount.toNat then .err .tooShort
  else do
    let packed ← slice bytes responseDataStart (responseDataStart + byteCount.toNat)
    (List.range (byteCount.toNat * 8)).mapM' (unpackBit packed)

theorem encodeBitfieldResponse_eq (functionCode : UInt8) (values : List Bool) :
    encodeBitfieldResponse functionCode values =
      functionCode :: UInt8.ofNat (divCeil values.length 8) :: packBits values := by
  rw [encodeBitfieldResponse, packFrom_eq_setBits, setBits_replicate_zero]

@[simp] theorem length_encodeBitfieldResponse (functionCode : UInt8) (values : List Bool) :
    (encodeBitfieldResponse functionCode values).length = 2 + divCeil values.length 8 := by
  simp [encodeBitfieldResponse_eq]
  omega

/-- Decoding reads as many whole bytes as the byte count says. -/
theorem decodeBitfieldResponse_cons (functionCode byteCount : UInt8) (data : Bytes) :
    decodeBitfieldResponse (functionCode :: byteCount :: data) functionCode =
      if data.length < byteCount.toNat then .err .tooShort
      else .ok (unpackBits (8 * byteCount.toNat) (data.take byteCount.toNat)) := by
  rw [decodeBitfieldResponse, checkHeader_cons functionCode (by simp [responseHeaderLen]), ok_bind,
    byteCountByte, index_cons_succ, index_cons_zero, ok_bind, responseDataStart]
  simp only [List.length_cons, Nat.add_comm 2, Nat.add_assoc, Nat.reduceAdd, Nat.add_lt_add_iff_right]
  split
  · rfl
  · next hlen =>
    have htake : (data.take byteCount.toNat).length = byteCount.toNat := by simp; omega
    have hunpack : ∀ i ∈ List.range (byteCount.toNat * 8),
        (unpackBit (data.take byteCount.toNat) i : Outcome DecodeError Bool) =
          .ok (bitAt (data.take byteCount.toNat) i) := by
      intro i hi
      have hlt := List.mem_range.mp hi
      exact unpackBit_of_lt (by omega)
    rw [slice_of_le (by omega) (by simp; omega), Nat.add_sub_cancel]
    simp only [List.drop_succ_cons, List.drop_zero, ok_bind]
    rw [mapM_of_forall_ok hunpack, Nat.mul_comm, unpackBits]

/-- Decoding what was encoded gives the bits back, padded to whole bytes. -/
theorem decodeBitfieldResponse_encode (functionCode : UInt8) {values : List Bool}
    (h : divCeil values.length 8 < 256) :
    decodeBitfieldResponse (encodeBitfieldResponse functionCode values) functionCode =
      .ok (values ++ List.replicate (8 * divCeil values.length 8 - values.length) false) := by
  have hcount : (UInt8.ofNat (divCeil values.length 8)).toNat = (packBits values).length := by
    rw [length_packBits, UInt8.ofNat_toNat_mod, Nat.mod_eq_of_lt h]
  have hceil := divCeil_eight values.length
  rw [encodeBitfieldResponse_eq, decodeBitfieldResponse_cons, hcount, if_neg (by omega), List.take_length,
    length_packBits, unpackBits_packBits_padded values (by omega)]

theorem decodeBitfieldResponse_ne_panic (bytes : Bytes) (functionCode : UInt8) :
    decodeBitfieldResponse bytes functionCode ≠ .panic := by
  rcases checkHeader_cases bytes functionCode (show 0 < responseHeaderLen by decide)
    with ⟨rest, rfl, hlen⟩ | ⟨e, he⟩
  · match rest, hlen with
    | byteCount :: data, _ =>
      rw [decodeBitfieldResponse_cons]
      split <;> simp
  · simp [decodeBitfieldResponse, he]

structure ReadCoilsResponse where
  coilValues : List Bool
  deriving DecidableEq, Repr

structure ReadDiscreteInputsResponse where
  discreteInputValues : List Bool
  deriving DecidableEq, Repr

def ReadCoilsResponse.encode (m : ReadCoilsResponse) : Bytes :=
  encodeBitfieldResponse functionCodeReadCoils m.coilValues

def ReadCoilsResponse.decode (bytes : Bytes) : Outcome DecodeError ReadCoilsResponse :=
  (decodeBitfieldResponse bytes functionCodeReadCoils).map ReadCoilsResponse.mk

def ReadDiscreteInputsResponse.encode (m : ReadDiscreteInputsResponse) : Bytes :=
  encodeBitfieldResponse functionCodeReadDiscreteInputs m.discreteInputValues

def ReadDiscreteInputsResponse.decode (bytes : Bytes) : Outcome DecodeError ReadDiscreteInputsResponse :=
  (decodeBitfieldResponse bytes functionCodeReadDiscreteInputs).map ReadDiscreteInputsResponse.mk

/-! ### Write Multiple Coils -/

structure WriteMultipleCoilsRequest where
  startingAddress : UInt16
  coilValues : List Bool
  deriving DecidableEq, Repr

namespace WriteMultipleCoilsRequest

def encode (m : WriteMultipleCoilsRequest) : Bytes :=
  let byteCount := divCeil m.coilValues.length 8
  functionCodeWriteMultipleCoils ::
    (u16ToBeBytes m.startingAddress ++ (u16ToBeBytes (UInt16.ofNat m.coilValues.length) ++
      UInt8.ofNat byteCount :: packFrom 0 m.coilValues (List.replicate byteCount 0)))

/-- The quantity field must agree with the byte count; it says which bits are padding. -/
def decode (bytes : Bytes) : Outcome DecodeError WriteMultipleCoilsRequest := do
  checkHeader bytes writeMultipleRequestHeaderLen functionCodeWriteMultipleCoils
  let startingAddress ← readU16Be bytes addressFieldByte
  let quantity ← readU16Be bytes quantityOrValueFieldByte
  let byteCount ← index bytes writeMultipleByteCountByte
  if byteCount.toNat ≠ divCeil quantity.toNat 8 then .err (.quantityByteCountMismatch quantity byteCount)
  else if bytes.length < writeMultipleValuesStart + byteCount.toNat then .err .tooShort
  else do
    let packed ← slice bytes writeMultipleValuesStart (writeMultipleValuesStart + byteCount.toNat)
    let coilValues := (packed.flatMap fun byte =>
      (List.range 8).map fun bit => byte &&& bitMask bit != 0).take quantity.toNat
    pure ⟨startingAddress, coilValues⟩

theorem encode_eq (m : WriteMultipleCoilsRequest) :
    m.encode = functionCodeWriteMultipleCoils :: (u16ToBeBytes m.startingAddress ++
      (u16ToBeBytes (UInt16.ofNat m.coilValues.length) ++
        UInt8.ofNat (divCeil m.coilValues.length 8) :: packBits m.coilValues)) := by
  rw [encode, packFrom_eq_setBits, setBits_replicate_zero]

@[simp] theorem length_encode (m : WriteMultipleCoilsRequest) :
    m.encode.length = 6 + divCeil m.coilValues.length 8 := by
  simp [encode_eq]
  omega

theorem decode_cons (a1 a0 q1 q0 byteCount : UInt8) (data : Bytes) :
    decode (functionCodeWriteMultipleCoils :: a1 :: a0 :: q1 :: q0 :: byteCount :: data) =
      if byteCount.toNat ≠ divCeil (u16FromBeBytes q1 q0).toNat 8 then
        .err (.quantityByteCountMismatch (u16FromBeBytes q1 q0) byteCount)
      else if data.length < byteCount.toNat then .err .tooShort
      else .ok ⟨u16FromBeBytes a1 a0, unpackBits (u16FromBeBytes q1 q0).toNat (data.take byteCount.toNat)⟩ := by
  rw [decode, checkHeader_cons _ (by simp [writeMultipleRequestHeaderLen])]
  simp only [ok_bind, addressFieldByte, quantityOrValueFieldByte, writeMultipleByteCountByte,
    writeMultipleValuesStart, readU16Be_cons_succ, readU16Be_cons_zero, index_cons_succ, index_cons_zero,
    List.length_cons, Nat.add_comm 6, Nat.add_assoc, Nat.reduceAdd, Nat.add_lt_add_iff_right]
  split
  · rfl
  · next hcount =>
    have hceil := divCeil_eight (u16FromBeBytes q1 q0).toNat
    split
    · rfl
    · next hlen =>
      have htake : (data.take byteCount.toNat).length = byteCount.toNat := by simp; omega
      rw [slice_of_le (by omega) (by simp; omega), Nat.add_sub_cancel]
      simp only [List.drop_succ_cons, List.drop_zero, ok_bind]
      rw [flatMap_bits_eq_unpackBits, pure_eq, take_unpackBits (by omega)]

theorem decode_encode {m : WriteMultipleCoilsRequest} (h : divCeil m.coilValues.length 8 < 256) :
    decode m.encode = .ok m := by
  have hceil := divCeil_eight m.coilValues.length
  have hquantity : (UInt16.ofNat m.coilValues.length).toNat = m.coilValues.length := by
    rw [UInt16.ofNat_toNat_mod]
    omega
  have hcount : (UInt8.ofNat (divCeil m.coilValues.length 8)).toNat = (packBits m.coilValues).length := by
    rw [length_packBits, UInt8.ofNat_toNat_mod, Nat.mod_eq_of_lt h]
  rw [encode_eq]
  simp only [u16ToBeBytes, List.cons_append, List.nil_append, decode_cons, u16FromBeBytes_toBeBytes,
    hquantity, hcount, length_packBits, ne_eq, not_true_eq_false, if_false, Nat.lt_irrefl]
  rw [← length_packBits, List.take_length, unpackBits_packBits]

theorem decode_ne_panic (bytes : Bytes) : decode bytes ≠ .panic := by
  rcases checkHeader_cases bytes functionCodeWriteMultipleCoils (show 0 < writeMultipleRequestHeaderLen by decide)
    with ⟨rest, rfl, hlen⟩ | ⟨e, he⟩
  · match rest, hlen with
    | a1 :: a0 :: q1 :: q0 :: byteCount :: data, _ =>
      rw [decode_cons]
      split
      · simp
      · split <;> simp
  · simp [decode, he]

end WriteMultipleCoilsRequest

end InfusedModbus.Protocol
