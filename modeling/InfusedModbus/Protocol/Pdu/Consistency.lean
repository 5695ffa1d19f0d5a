import InfusedModbus.Protocol.Pdu.FileRecordFraming
import InfusedModbus.Protocol.Pdu.Message

/-! What an accepted request says about the bytes it was read from. Encoding it again
gives these bytes back as far as they were read, for most types; the padding of a
Write Multiple Coils request comes back as zeros. The two requests that write registers
take their number from the byte count and never look at the quantity field: they come
back exactly when the two agree and the number is one that encoding allows. -/

namespace InfusedModbus.Protocol

open Foundation Foundation.Outcome

/-! ### Fields of a PDU -/

/-- The word at an offset. -/
def wordAt (bytes : Bytes) (offset : ℕ) : UInt16 :=
  u16FromBeBytes (bytes.getD offset 0) (bytes.getD (offset + 1) 0)

def writtenQuantityFieldByte : ℕ := 7

/-- The request types that the server decodes, Write File Record aside. -/
def Kind.isServed : Kind → Bool
  | .readCoilsRequest | .readDiscreteInputsRequest | .readHoldingRegistersRequest | .readInputRegistersRequest
  | .writeSingleCoilRequest | .writeSingleRegisterRequest | .maskWriteRegisterRequest | .reportServerIdRequest
  | .readWriteMultipleRegistersRequest | .writeMultipleCoilsRequest | .writeMultipleRegistersRequest
  | .readFileRecordRequest | .readDeviceIdentificationRequest => true
  | _ => false

/-- The quantity field agrees with the byte count and keeps to the limit of the encoder. -/
def QuantityAgrees (bytes : Bytes) : Kind → Prop
  | .writeMultipleRegistersRequest =>
    (wordAt bytes quantityOrValueFieldByte).toNat * 2 = (bytes.getD writeMultipleByteCountByte 0).toNat ∧
      (wordAt bytes quantityOrValueFieldByte).toNat ≤ maxWriteMultipleRegistersCount
  | .readWriteMultipleRegistersRequest =>
    (wordAt bytes writtenQuantityFieldByte).toNat * 2 = (bytes.getD readWriteByteCountByte 0).toNat ∧
      (wordAt bytes writtenQuantityFieldByte).toNat ≤ maxReadWriteMultipleRegistersWriteCount
  | _ => True

instance (bytes : Bytes) (k : Kind) : Decidable (QuantityAgrees bytes k) := by
  unfold QuantityAgrees
  split <;> infer_instance

/-- A prefix but for the bits of the last byte that no coil uses. -/
structure IsPrefixUpToPadding (quantity : ℕ) (encoded bytes : Bytes) : Prop where
  length_eq : encoded.length = writeMultipleValuesStart + divCeil quantity 8
  length_le : encoded.length ≤ bytes.length
  header : encoded.take writeMultipleValuesStart = bytes.take writeMultipleValuesStart
  bits : ∀ i < quantity,
    bitAt (encoded.drop writeMultipleValuesStart) i = bitAt (bytes.drop writeMultipleValuesStart) i

/-- The message encodes to the bytes it was read from. -/
def EncodesBack (bytes : Bytes) : (k : Kind) → k.Payload → Prop
  | .writeMultipleCoilsRequest, m => IsPrefixUpToPadding m.coilValues.length m.encode bytes
  | k, m => ∃ encoded, encode k m = .ok encoded ∧ encoded <+: bytes

/-! ### Fixed PDUs -/

theorem encodeAddressAndQuantity_prefix {bytes : Bytes} {functionCode : UInt8} {f : AddressAndQuantity}
    (h : decodeAddressAndQuantity bytes functionCode = .ok f) :
    encodeAddressAndQuantity functionCode f.startingAddress f.quantity <+: bytes := by
  rcases checkHeader_cases bytes functionCode (show 0 < twoFieldPduLen by decide) with ⟨rest, rfl, hlen⟩ | ⟨e, he⟩
  · match rest, hlen with
    | a1 :: a0 :: q1 :: q0 :: rest, _ =>
      rw [decodeAddressAndQuantity_cons] at h
      obtain rfl := ok.inj h
      simp [encodeAddressAndQuantity, u16ToBeBytes]
  · simp [decodeAddressAndQuantity, he] at h

theorem encodeWriteSingleCoil_prefix {bytes : Bytes} {p : UInt16 × Bool} (h : decodeWriteSingleCoil bytes = .ok p) :
    encodeWriteSingleCoil p.1 p.2 <+: bytes := by
  obtain ⟨f, hf, h⟩ := bind_eq_ok.mp h
  have hprefix := encodeAddressAndQuantity_prefix hf
  split at h
  · next hon =>
    obtain rfl := ok.inj h
    rwa [encodeWriteSingleCoil, if_pos rfl, ← hon]
  · split at h
    · next hoff =>
      obtain rfl := ok.inj h
      rwa [encodeWriteSingleCoil, if_neg (by simp), ← hoff]
    · cases h

theorem encodeMaskWriteRegister_prefix {bytes : Bytes} {p : UInt16 × UInt16 × UInt16}
    (h : decodeMaskWriteRegister bytes = .ok p) : encodeMaskWriteRegister p.1 p.2.1 p.2.2 <+: bytes := by
  rcases checkHeader_cases bytes functionCodeMaskWriteRegister (show 0 < maskWriteRegisterPduLen by decide)
    with ⟨rest, rfl, hlen⟩ | ⟨e, he⟩
  · match rest, hlen with
    | a1 :: a0 :: m1 :: m0 :: o1 :: o0 :: rest, _ =>
      rw [decodeMaskWriteRegister_cons] at h
      obtain rfl := ok.inj h
      simp [encodeMaskWriteRegister, u16ToBeBytes]
  · simp [decodeMaskWriteRegister, he] at h

theorem ReportServerIdRequest.encode_prefix {bytes : Bytes} {m : ReportServerIdRequest} (h : decode bytes = .ok m) :
    m.encode <+: bytes := by
  unfold decode at h
  match bytes with
  | [] => cases h
  | functionCode :: rest =>
    rw [List.head?_cons] at h
    dsimp only at h
    split at h
    · cases h
    · next hcode => simp [encode, not_not.mp hcode]

theorem ReadDeviceIdentificationRequest.encode_prefix {bytes : Bytes} {m : ReadDeviceIdentificationRequest}
    (h : decode bytes = .ok m) : m.encode <+: bytes := by
  rcases checkHeader_cases bytes functionCodeEncapsulatedInterfaceTransport
    (show 0 < readDeviceIdentificationRequestLen by decide) with ⟨rest, rfl, hlen⟩ | ⟨e, he⟩
  · match rest, hlen with
    | meiType :: code :: objectId :: rest, _ =>
      rw [decode_cons] at h
      split at h
      · cases h
      · next hmei =>
        obtain rfl := ok.inj h
        simp [encode, not_not.mp hmei]
  · simp [decode, he] at h

/-! ### Read File Record -/

/-- A sub-request of a read and the offset behind it. -/
def readSubRequest (bytes : Bytes) (offset : ℕ) : Outcome DecodeError (FileRecordSubRequest × ℕ) := do
  let referenceType ← index bytes offset
  if referenceType ≠ fileRecordReferenceType then .err (.invalidFileRecordReferenceType referenceType)
  else do
    let fileNumber ← readU16Be bytes (offset + 1)
    let recordNumber ← readU16Be bytes (offset + 3)
    let recordLength ← readU16Be bytes (offset + 5)
    pure (⟨fileNumber, recordNumber, recordLength⟩, offset + fileRecordSubRequestLen)

theorem readsTimes_decodeSubRequests (bytes : Bytes) :
    ReadsTimes (readSubRequest bytes) (decodeSubRequests bytes) where
  zero _ := rfl
  succ n offset := by
    rw [decodeSubRequests]
    simp only [readSubRequest, ite_bind, err_bind, Outcome.bind_assoc, pure_eq, ok_bind]

theorem readSubRequest_eq_ok {bytes : Bytes} {s : FileRecordSubRequest} {offset next : ℕ}
    (h : readSubRequest bytes offset = .ok (s, next)) :
    next = offset + 7 ∧ bytes.drop offset = encodeSubRequest s ++ bytes.drop next := by
  unfold readSubRequest at h
  obtain ⟨referenceType, hreference, h⟩ := bind_eq_ok.mp h
  split at h
  · cases h
  next href =>
  obtain ⟨fileNumber, hfile, h⟩ := bind_eq_ok.mp h
  obtain ⟨recordNumber, hrecord, h⟩ := bind_eq_ok.mp h
  obtain ⟨recordLength, hlength, h⟩ := bind_eq_ok.mp h
  obtain ⟨rfl, rfl⟩ := Prod.mk.inj (ok.inj h)
  refine ⟨rfl, ?_⟩
  rw [drop_of_index hreference, drop_of_readU16Be hfile, drop_of_readU16Be hrecord, drop_of_readU16Be hlength,
    encodeSubRequest, not_not.mp href]
  rfl

theorem ReadFileRecordRequest.encode_prefix {bytes : Bytes} {m : ReadFileRecordRequest} (h : decode bytes = .ok m) :
    m.encode <+: bytes := by
  rcases checkHeader_cases bytes functionCodeReadFileRecord
    (show 0 < responseDataStart by decide) with ⟨rest, rfl, hlen⟩ | ⟨e, he⟩
  · match rest, hlen with
    | byteCount :: data, _ =>
      rw [decode_cons] at h
      split at h
      · cases h
      next hcount =>
      split at h
      · cases h
      obtain ⟨subRequests, hsubs, rfl⟩ := map_eq_ok.mp h
      obtain ⟨hlength, stop, hstop⟩ :=
        (readsTimes_decodeSubRequests _).drop_eq (fun ha => (readSubRequest_eq_ok ha).2) hsubs
      have hbytes : subRequests.length * fileRecordSubRequestLen = byteCount.toNat := by
        rw [hlength]
        exact Nat.div_mul_cancel (Nat.dvd_of_mod_eq_zero (by tauto))
      rw [encode, hbytes, UInt8.ofNat_toNat, List.cons_prefix_cons, List.cons_prefix_cons]
      exact ⟨rfl, rfl, _, hstop.symm⟩
  · simp [decode, he] at h

/-! ### Quantities -/

theorem bytesOfWords_wordsOfBytes_take {data : Bytes} {n : ℕ} (heven : n % 2 = 0) (hle : n ≤ data.length) :
    (wordsOfBytes (data.take n)).length = n / 2 ∧ bytesOfWords (wordsOfBytes (data.take n)) = data.take n := by
  have hlen : (data.take n).length = n := by
    rw [List.length_take]
    omega
  exact ⟨by rw [length_wordsOfBytes, hlen], bytesOfWords_wordsOfBytes (by rw [hlen]; exact heven)⟩

/-- A header whose quantity field counts the words of the data behind a byte count. -/
theorem quantity_data_prefix_iff {q1 q0 byteCount : UInt8} {data : Bytes} (heven : byteCount.toNat % 2 = 0) :
    u16ToBeBytes (UInt16.ofNat (byteCount.toNat / 2)) ++
        UInt8.ofNat (byteCount.toNat / 2 * 2) :: data.take byteCount.toNat <+: q1 :: q0 :: byteCount :: data ↔
      (u16FromBeBytes q1 q0).toNat * 2 = byteCount.toNat := by
  have hcount := byteCount.toNat_lt
  have hhalf : byteCount.toNat / 2 * 2 = byteCount.toNat := by omega
  have hof : (UInt16.ofNat (byteCount.toNat / 2)).toNat = byteCount.toNat / 2 := by
    rw [UInt16.ofNat_toNat_mod]
    omega
  rw [hhalf, UInt8.ofNat_toNat, u16ToBeBytes]
  simp only [List.cons_append, List.nil_append, List.cons_prefix_cons, List.take_prefix, and_true]
  constructor
  · rintro ⟨rfl, rfl⟩
    rw [u16FromBeBytes_toBeBytes, hof]
    exact hhalf
  · intro hquantity
    have hword : UInt16.ofNat (byteCount.toNat / 2) = u16FromBeBytes q1 q0 := by
      apply UInt16.toNat_inj.mp
      rw [hof]
      omega
    rw [hword, hiByte_fromBeBytes, loByte_fromBeBytes]
    exact ⟨rfl, rfl⟩

theorem WriteMultipleRegistersRequest.decode_eq_ok {bytes : Bytes} {m : WriteMultipleRegistersRequest}
    (h : decode bytes = .ok m) : ∃ a1 a0 q1 q0 byteCount data,
      bytes = functionCodeWriteMultipleRegisters :: a1 :: a0 :: q1 :: q0 :: byteCount :: data ∧
        byteCount.toNat % 2 = 0 ∧ byteCount.toNat ≤ data.length ∧
        m = ⟨u16FromBeBytes a1 a0, wordsOfBytes (data.take byteCount.toNat)⟩ := by
  rcases checkHeader_cases bytes functionCodeWriteMultipleRegisters (show 0 < writeMultipleRequestHeaderLen by decide)
    with ⟨rest, rfl, hlen⟩ | ⟨e, he⟩
  · match rest, hlen with
    | a1 :: a0 :: q1 :: q0 :: byteCount :: data, _ =>
      rw [decode_cons] at h
      split at h
      · cases h
      next heven =>
      split at h
      · cases h
      next hshort => exact ⟨a1, a0, q1, q0, byteCount, data, rfl, by omega, by omega, (ok.inj h).symm⟩
  · simp [decode, he] at h

theorem ReadWriteMultipleRegistersRequest.decode_eq_ok {bytes : Bytes} {m : ReadWriteMultipleRegistersRequest}
    (h : decode bytes = .ok m) : ∃ r1 r0 n1 n0 w1 w0 q1 q0 byteCount data,
      bytes = functionCodeReadWriteMultipleRegisters :: r1 :: r0 :: n1 :: n0 :: w1 :: w0 :: q1 :: q0 ::
          byteCount :: data ∧
        byteCount.toNat % 2 = 0 ∧ byteCount.toNat ≤ data.length ∧
        m = ⟨u16FromBeBytes r1 r0, u16FromBeBytes n1 n0, u16FromBeBytes w1 w0,
          wordsOfBytes (data.take byteCount.toNat)⟩ := by
  rcases checkHeader_cases bytes functionCodeReadWriteMultipleRegisters (show 0 < readWriteRequestHeaderLen by decide)
    with ⟨rest, rfl, hlen⟩ | ⟨e, he⟩
  · match rest, hlen with
    | r1 :: r0 :: n1 :: n0 :: w1 :: w0 :: q1 :: q0 :: byteCount :: data, _ =>
      rw [decode_cons] at h
      split at h
      · cases h
      next heven =>
      split at h
      · cases h
      next hshort =>
      exact ⟨r1, r0, n1, n0, w1, w0, q1, q0, byteCount, data, rfl, by omega, by omega, (ok.inj h).symm⟩
  · simp [decode, he] at h

/-- A write of the words behind a byte count, encoded up to a limit, against the bytes it was read from. -/
theorem encode_words_iff {head data : Bytes} {q1 q0 byteCount : UInt8} {limit : ℕ}
    {words : List UInt16} (heven : byteCount.toNat % 2 = 0) (hle : byteCount.toNat ≤ data.length)
    (hwords : words = wordsOfBytes (data.take byteCount.toNat)) :
    (∃ encoded, (if words.length > limit then .err (.tooManyRegisters words.length limit)
        else .ok (head ++ (u16ToBeBytes (UInt16.ofNat words.length) ++
          UInt8.ofNat (words.length * 2) :: bytesOfWords words)) : Outcome EncodeError Bytes) = .ok encoded ∧
      encoded <+: head ++ q1 :: q0 :: byteCount :: data) ↔
      (u16FromBeBytes q1 q0).toNat * 2 = byteCount.toNat ∧ (u16FromBeBytes q1 q0).toNat ≤ limit := by
  obtain ⟨hlen, hbytes⟩ := bytesOfWords_wordsOfBytes_take heven hle
  subst hwords
  rw [hlen, hbytes]
  by_cases hmany : byteCount.toNat / 2 > limit
  · rw [if_pos hmany]
    simp only [reduceCtorEq, false_and, exists_false, false_iff, not_and]
    omega
  · rw [if_neg hmany]
    simp only [ok.injEq, exists_eq_left', List.prefix_append_right_inj, quantity_data_prefix_iff heven]
    exact ⟨fun hquantity => ⟨hquantity, by omega⟩, fun h => h.1⟩

theorem WriteMultipleRegistersRequest.encodesBack_iff {bytes : Bytes} {m : WriteMultipleRegistersRequest}
    (h : decode bytes = .ok m) :
    EncodesBack bytes .writeMultipleRegistersRequest m ↔ QuantityAgrees bytes .writeMultipleRegistersRequest := by
  obtain ⟨a1, a0, q1, q0, byteCount, data, rfl, heven, hle, rfl⟩ := decode_eq_ok h
  have hiff := @encode_words_iff [functionCodeWriteMultipleRegisters, a1, a0] data q1 q0 byteCount
    maxWriteMultipleRegistersCount _ heven hle rfl
  refine Iff.trans ?_ hiff
  simp only [EncodesBack, Protocol.encode, encode, u16ToBeBytes, hiByte_fromBeBytes, loByte_fromBeBytes,
    List.cons_append, List.nil_append]

theorem ReadWriteMultipleRegistersRequest.encodesBack_iff {bytes : Bytes} {m : ReadWriteMultipleRegistersRequest}
    (h : decode bytes = .ok m) :
    EncodesBack bytes .readWriteMultipleRegistersRequest m ↔
      QuantityAgrees bytes .readWriteMultipleRegistersRequest := by
  obtain ⟨r1, r0, n1, n0, w1, w0, q1, q0, byteCount, data, rfl, heven, hle, rfl⟩ := decode_eq_ok h
  have hiff := @encode_words_iff [functionCodeReadWriteMultipleRegisters, r1, r0, n1, n0, w1, w0] data q1 q0
    byteCount maxReadWriteMultipleRegistersWriteCount _ heven hle rfl
  refine Iff.trans ?_ hiff
  simp only [EncodesBack, Protocol.encode, encode, u16ToBeBytes, hiByte_fromBeBytes, loByte_fromBeBytes,
    List.cons_append, List.nil_append]

theorem WriteMultipleCoilsRequest.decode_eq_ok {bytes : Bytes} {m : WriteMultipleCoilsRequest}
    (h : decode bytes = .ok m) : ∃ a1 a0 q1 q0 byteCount data,
      bytes = functionCodeWriteMultipleCoils :: a1 :: a0 :: q1 :: q0 :: byteCount :: data ∧
        byteCount.toNat = divCeil (u16FromBeBytes q1 q0).toNat 8 ∧ byteCount.toNat ≤ data.length ∧
        m = ⟨u16FromBeBytes a1 a0, unpackBits (u16FromBeBytes q1 q0).toNat (data.take byteCount.toNat)⟩ := by
  rcases checkHeader_cases bytes functionCodeWriteMultipleCoils (show 0 < writeMultipleRequestHeaderLen by decide)
    with ⟨rest, rfl, hlen⟩ | ⟨e, he⟩
  · match rest, hlen with
    | a1 :: a0 :: q1 :: q0 :: byteCount :: data, _ =>
      rw [decode_cons] at h
      split at h
      · cases h
      next hcount =>
      split at h
      · cases h
      next hshort => exact ⟨a1, a0, q1, q0, byteCount, data, rfl, not_not.mp hcount, by omega, (ok.inj h).symm⟩
  · simp [decode, he] at h

theorem WriteMultipleCoilsRequest.encodesBack {bytes : Bytes} {m : WriteMultipleCoilsRequest}
    (h : decode bytes = .ok m) : EncodesBack bytes .writeMultipleCoilsRequest m := by
  obtain ⟨a1, a0, q1, q0, byteCount, data, rfl, hcount, hle, rfl⟩ := decode_eq_ok h
  have hceil := divCeil_eight (u16FromBeBytes q1 q0).toNat
  have hstart : writeMultipleValuesStart = 6 := rfl
  have hencoded : encode ⟨u16FromBeBytes a1 a0, unpackBits (u16FromBeBytes q1 q0).toNat (data.take byteCount.toNat)⟩ =
      functionCodeWriteMultipleCoils :: a1 :: a0 :: q1 :: q0 :: byteCount ::
        packBits (unpackBits (u16FromBeBytes q1 q0).toNat (data.take byteCount.toNat)) := by
    rw [encode_eq, length_unpackBits, ← hcount, UInt8.ofNat_toNat, UInt16.ofNat_toNat]
    simp only [u16ToBeBytes, hiByte_fromBeBytes, loByte_fromBeBytes, List.cons_append, List.nil_append]
  refine ⟨?_, ?_, ?_, ?_⟩
  · rw [length_encode, hstart]
  · rw [length_encode, length_unpackBits]
    simp only [List.length_cons]
    omega
  · rw [hencoded]
    rfl
  · intro i hi
    rw [length_unpackBits] at hi
    rw [hencoded]
    simp only [hstart, List.drop_succ_cons, List.drop_zero]
    rw [bitAt_packBits, unpackBits, List.getD_eq_getElem?_getD, List.getElem?_map, List.getElem?_range hi,
      Option.map_some, Option.getD_some, bitAt_take (by omega)]

/-! ### All request types -/

/-- A decoded request encodes back to its bytes exactly when its quantity field agrees. -/
theorem encodesBack_iff {k : Kind} (hk : k.isServed) {bytes : Bytes} {m : k.Payload} (h : decode k bytes = .ok m) :
    EncodesBack bytes k m ↔ QuantityAgrees bytes k := by
  cases k with
  | readCoilsRequest | readDiscreteInputsRequest | readHoldingRegistersRequest | readInputRegistersRequest
  | writeSingleRegisterRequest =>
    obtain ⟨f, hf, rfl⟩ := map_eq_ok.mp h
    exact iff_of_true ⟨_, rfl, encodeAddressAndQuantity_prefix hf⟩ trivial
  | writeSingleCoilRequest =>
    obtain ⟨p, hp, rfl⟩ := map_eq_ok.mp h
    exact iff_of_true ⟨_, rfl, encodeWriteSingleCoil_prefix hp⟩ trivial
  | maskWriteRegisterRequest =>
    obtain ⟨p, hp, rfl⟩ := map_eq_ok.mp h
    exact iff_of_true ⟨_, rfl, encodeMaskWriteRegister_prefix hp⟩ trivial
  | reportServerIdRequest => exact iff_of_true ⟨_, rfl, ReportServerIdRequest.encode_prefix h⟩ trivial
  | readDeviceIdentificationRequest =>
    exact iff_of_true ⟨_, rfl, ReadDeviceIdentificationRequest.encode_prefix h⟩ trivial
  | readFileRecordRequest => exact iff_of_true ⟨_, rfl, ReadFileRecordRequest.encode_prefix h⟩ trivial
  | writeMultipleCoilsRequest => exact iff_of_true (WriteMultipleCoilsRequest.encodesBack h) trivial
  | writeMultipleRegistersRequest => exact WriteMultipleRegistersRequest.encodesBack_iff h
  | readWriteMultipleRegistersRequest => exact ReadWriteMultipleRegistersRequest.encodesBack_iff h
  | readCoilsResponse | readDiscreteInputsResponse | readHoldingRegistersResponse | readInputRegistersResponse
  | writeSingleCoilResponse | writeSingleRegisterResponse | maskWriteRegisterResponse | reportServerIdResponse
  | readWriteMultipleRegistersResponse | writeMultipleCoilsResponse | writeMultipleRegistersResponse
  | readFileRecordResponse | writeFileRecordRequest | writeFileRecordResponse | readDeviceIdentificationResponse
  | exceptionResponse => cases hk

end InfusedModbus.Protocol
