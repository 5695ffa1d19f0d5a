import InfusedModbus.Protocol.Pdu.Progress
import InfusedModbus.ProtocolCore.Adu
import InfusedModbus.ProtocolCore.Pdu.Message

/-! The loops of the decoders of the port. They take the same turns as those of the
original and put what they read into containers that refuse what does not fit. No push
panics and no turn does, and so no decoder of the port does. -/

namespace InfusedModbus.ProtocolCore

open Foundation Foundation.Outcome Protocol

/-! ### Containers -/

section Containers

variable {κ : Type} {size : κ → ℕ} {capacity : ℕ}

theorem FlatList.push_ne_panic (self : FlatList κ size capacity) (head : κ) (value : Bytes)
    (hhead : value.length ≤ maxPduLen → size head = value.length) : self.push head value hhead ≠ .panic := by
  unfold FlatList.push
  split
  · simp
  · split
    · simp
    · simp
    · next hpanic => exact absurd hpanic (extendFromSlice_ne_panic _ _)

end Containers

theorem FileRecordSubRequests.push_ne_panic (self : FileRecordSubRequests) (s : FileRecordSubRequest) :
    self.push s ≠ .panic := by
  unfold push
  split <;> simp

theorem DeviceIdentificationObjects.push_ne_panic (self : DeviceIdentificationObjects) (id : UInt8) (value : Bytes) :
    self.push id value ≠ .panic := by
  unfold push
  split
  · simp
  · exact FlatList.push_ne_panic _ _ _ _

/-! ### The loops of the port -/

/-- A turn of the original, its errors those of the port. -/
def ported {α : Type} (read : Reader Protocol.DecodeError α) : Reader DecodeError α :=
  fun offset => (read offset).mapErr .ofProtocol

theorem advances_ported {α : Type} {read : Reader Protocol.DecodeError α} {size : ℕ} (h : Advances read size) :
    Advances (ported read) size :=
  ⟨fun ha => h.lt (mapErr_eq_ok.mp ha), fun ha => h.le (mapErr_eq_ok.mp ha)⟩

/-- A push of the port; what does not fit is too large. -/
def pushed {α σ : Type} (push : σ → α → Outcome CapacityExceeded σ) (s : σ) (a : α) : Outcome DecodeError σ :=
  (push s a).mapErr fun _ => .tooLargeForBuffer

theorem foldsTimes_decodeSubRequests (bytes : Bytes) :
    FoldsTimes (ported (readSubRequest bytes)) (pushed FileRecordSubRequests.push) (decodeSubRequests bytes) where
  zero _ _ := rfl
  succ n offset subRequests := by
    rw [decodeSubRequests]
    simp only [ported, pushed, readSubRequest, mapErr_bind, mapErr_ite, mapErr_index, mapErr_readU16Be, mapErr_err,
      mapErr_ok, DecodeError.ofProtocol, ite_bind, err_bind, Outcome.bind_assoc, pure_eq, ok_bind]

theorem foldsWhile_decodeRecords (bytes : Bytes) (limit : ℕ) :
    FoldsWhile (ported (readRecord bytes)) (pushed FileRecordResponseData.pushRecord) limit
      (decodeRecords bytes limit) := by
  intro offset records
  rw [decodeRecords]
  by_cases hlt : offset < limit
  · rw [dif_pos hlt, if_pos hlt]
    simp only [ported, pushed, readRecord, mapErr_bind, mapErr_ite, mapErr_index, mapErr_slice, mapErr_err,
      mapErr_ok, DecodeError.ofProtocol, ite_bind, err_bind, Outcome.bind_assoc, pure_eq, ok_bind]
  · rw [dif_neg hlt, if_neg hlt]

theorem foldsWhile_decodeWriteSubRequests (bytes : Bytes) (limit : ℕ) :
    FoldsWhile (ported (readWriteSubRequest bytes))
      (pushed fun (list : WriteFileRecordSubRequests) s => list.push s.fileNumber s.recordNumber s.recordData) limit
      (decodeWriteSubRequests bytes limit) := by
  intro offset subRequests
  rw [decodeWriteSubRequests]
  by_cases hlt : offset < limit
  · rw [dif_pos hlt, if_pos hlt]
    simp only [ported, pushed, readWriteSubRequest, mapErr_bind, mapErr_ite, mapErr_index, mapErr_readU16Be,
      mapErr_slice, mapErr_err, mapErr_ok, DecodeError.ofProtocol, ite_bind, err_bind, Outcome.bind_assoc, pure_eq,
      ok_bind]
  · rw [dif_neg hlt, if_neg hlt]

theorem foldsTimes_decodeObjects (bytes : Bytes) :
    FoldsTimes (ported (readObject bytes))
      (pushed fun (list : DeviceIdentificationObjects) o => list.push o.id o.value) (decodeObjects bytes) where
  zero _ _ := rfl
  succ n offset objects := by
    rw [decodeObjects]
    simp only [ported, pushed, readObject, mapErr_bind, mapErr_ite, mapErr_index, mapErr_slice, mapErr_err,
      mapErr_ok, DecodeError.ofProtocol, ite_bind, err_bind, Outcome.bind_assoc, pure_eq, ok_bind]

/-! ### No decoder of the port panics -/

theorem ReadFileRecordRequest.decode_ne_panic (bytes : Bytes) : decode bytes ≠ .panic := by
  rcases checkHeader_cases bytes functionCodeReadFileRecord
    (show 0 < responseDataStart by decide) with ⟨rest, rfl, hlen⟩ | ⟨e, he⟩
  · match rest, hlen with
    | byteCount :: data, hlen =>
      rw [decode, checkHeader_eq, checkHeader_cons _ hlen, mapErr_ok, ok_bind, byteCountByte, index_cons_succ,
        index_cons_zero, ok_bind]
      split
      · simp
      split
      · simp
      next hroom =>
      refine bind_ne_panic ?_ fun _ _ => by simp
      have hfits := Nat.div_mul_le_self byteCount.toNat fileRecordSubRequestLen
      exact (foldsTimes_decodeSubRequests _).ne_panic_of_fixed
        (fun _ h => mapErr_ne_panic.mpr (readSubRequest_ne_panic h))
        (fun h => (readSubRequest_eq_ok (mapErr_eq_ok.mp h)).1)
        (fun _ _ => mapErr_ne_panic.mpr (FileRecordSubRequests.push_ne_panic _ _)) (by omega) _
  · simp [decode, checkHeader_eq, he]

theorem ReadFileRecordResponse.decode_ne_panic (bytes : Bytes) : decode bytes ≠ .panic := by
  rcases checkHeader_cases bytes functionCodeReadFileRecord
    (show 0 < responseDataStart by decide) with ⟨rest, rfl, hlen⟩ | ⟨e, he⟩
  · match rest, hlen with
    | byteCount :: data, hlen =>
      rw [decode, checkHeader_eq, checkHeader_cons _ hlen, mapErr_ok, ok_bind, byteCountByte, index_cons_succ,
        index_cons_zero, ok_bind]
      split
      · simp
      refine bind_ne_panic ?_ fun _ _ => by simp
      exact (foldsWhile_decodeRecords _ _).ne_panic (advances_ported (advances_readRecord _))
        (fun _ => mapErr_ne_panic.mpr (readRecord_ne_panic _ _))
        (fun _ _ => mapErr_ne_panic.mpr (FlatList.push_ne_panic _ _ _ _)) _ _
  · simp [decode, checkHeader_eq, he]

theorem decodeWriteFileRecord_ne_panic (bytes : Bytes) (functionCode : UInt8) :
    decodeWriteFileRecord bytes functionCode ≠ .panic := by
  rcases checkHeader_cases bytes functionCode
    (show 0 < responseDataStart by decide) with ⟨rest, rfl, hlen⟩ | ⟨e, he⟩
  · match rest, hlen with
    | byteCount :: data, hlen =>
      rw [decodeWriteFileRecord, checkHeader_eq, checkHeader_cons _ hlen, mapErr_ok, ok_bind, byteCountByte,
        index_cons_succ, index_cons_zero, ok_bind]
      split
      · simp
      exact (foldsWhile_decodeWriteSubRequests _ _).ne_panic (advances_ported (advances_readWriteSubRequest _))
        (fun _ => mapErr_ne_panic.mpr (readWriteSubRequest_ne_panic _ _))
        (fun _ _ => mapErr_ne_panic.mpr (FlatList.push_ne_panic _ _ _ _)) _ _
  · simp [decodeWriteFileRecord, checkHeader_eq, he]

theorem ReadDeviceIdentificationResponse.decode_ne_panic (bytes : Bytes) : decode bytes ≠ .panic := by
  rcases checkHeader_cases bytes functionCodeEncapsulatedInterfaceTransport
    (show 0 < readDeviceIdentificationResponseHeaderLen by decide) with ⟨rest, rfl, hlen⟩ | ⟨e, he⟩
  · match rest, hlen with
    | meiType :: code :: level :: more :: next :: count :: data, hlen =>
      rw [decode, checkHeader_eq, checkHeader_cons _ hlen, mapErr_ok, ok_bind]
      simp only [meiTypeByte, readDeviceIdCodeByte, conformityLevelByte, moreFollowsByte, nextObjectIdByte,
        numberOfObjectsByte, index_cons_succ, index_cons_zero, ok_bind]
      split
      · simp
      refine bind_ne_panic ?_ fun _ _ => by simp
      exact (foldsTimes_decodeObjects _).ne_panic (fun _ => mapErr_ne_panic.mpr (readObject_ne_panic _ _))
        (fun _ _ => mapErr_ne_panic.mpr (DeviceIdentificationObjects.push_ne_panic _ _ _)) _ _ _
  · simp [decode, checkHeader_eq, he]

/-- What the original decodes without a panic, the port refuses or decodes alike. -/
theorem ne_panic_of_capped {α β : Type} {x : Outcome DecodeError α} {f : α → β} {size : β → ℕ} {capacity : ℕ}
    {original : Outcome Protocol.DecodeError β} (h : x.map f = capped size capacity original)
    (horiginal : original ≠ .panic) : x ≠ .panic := by
  rw [← map_ne_panic (f := f), h]
  refine bind_ne_panic (mapErr_ne_panic.mpr horiginal) fun a _ => ?_
  split <;> simp

theorem decode_ne_panic (k : Kind) (bytes : Bytes) : decode k bytes ≠ .panic := by
  cases k with
  | readCoilsRequest | readDiscreteInputsRequest | readHoldingRegistersRequest | readInputRegistersRequest
  | writeSingleRegisterRequest | writeSingleRegisterResponse | writeMultipleCoilsResponse
  | writeMultipleRegistersResponse =>
    refine map_ne_panic.mpr ?_
    rw [decodeAddressAndQuantity_eq]
    exact mapErr_ne_panic.mpr (decodeAddressAndQuantity_ne_panic _ _)
  | writeSingleCoilRequest | writeSingleCoilResponse =>
    refine map_ne_panic.mpr ?_
    rw [decodeWriteSingleCoil_eq]
    exact mapErr_ne_panic.mpr (decodeWriteSingleCoil_ne_panic _)
  | maskWriteRegisterRequest | maskWriteRegisterResponse =>
    refine map_ne_panic.mpr ?_
    rw [decodeMaskWriteRegister_eq]
    exact mapErr_ne_panic.mpr (decodeMaskWriteRegister_ne_panic _)
  | reportServerIdRequest =>
    exact (ReportServerIdRequest.decode_eq bytes).trans_ne
      (mapErr_ne_panic.mpr (Protocol.ReportServerIdRequest.decode_ne_panic bytes))
  | readDeviceIdentificationRequest =>
    exact (ReadDeviceIdentificationRequest.decode_eq bytes).trans_ne
      (mapErr_ne_panic.mpr (Protocol.ReadDeviceIdentificationRequest.decode_ne_panic bytes))
  | exceptionResponse =>
    exact (ExceptionResponse.decode_eq bytes).trans_ne
      (mapErr_ne_panic.mpr (Protocol.ExceptionResponse.decode_ne_panic bytes))
  | readCoilsResponse | readDiscreteInputsResponse =>
    exact map_ne_panic.mpr
      (ne_panic_of_capped (decodeBitfieldResponse_eq bytes _) (decodeBitfieldResponse_ne_panic _ _))
  | readHoldingRegistersResponse | readInputRegistersResponse | readWriteMultipleRegistersResponse =>
    exact map_ne_panic.mpr
      (ne_panic_of_capped (decodeRegisterArrayResponse_eq bytes _) (decodeRegisterArrayResponse_ne_panic _ _))
  | reportServerIdResponse =>
    exact ne_panic_of_capped (ReportServerIdResponse.decode_eq bytes)
      (Protocol.ReportServerIdResponse.decode_ne_panic bytes)
  | readWriteMultipleRegistersRequest =>
    exact ne_panic_of_capped (ReadWriteMultipleRegistersRequest.decode_eq bytes)
      (Protocol.ReadWriteMultipleRegistersRequest.decode_ne_panic bytes)
  | writeMultipleCoilsRequest =>
    exact ne_panic_of_capped (WriteMultipleCoilsRequest.decode_eq bytes)
      (Protocol.WriteMultipleCoilsRequest.decode_ne_panic bytes)
  | writeMultipleRegistersRequest =>
    exact ne_panic_of_capped (WriteMultipleRegistersRequest.decode_eq bytes)
      (Protocol.WriteMultipleRegistersRequest.decode_ne_panic bytes)
  | readFileRecordRequest => exact ReadFileRecordRequest.decode_ne_panic bytes
  | readFileRecordResponse => exact ReadFileRecordResponse.decode_ne_panic bytes
  | writeFileRecordRequest | writeFileRecordResponse => exact map_ne_panic.mpr (decodeWriteFileRecord_ne_panic _ _)
  | readDeviceIdentificationResponse => exact ReadDeviceIdentificationResponse.decode_ne_panic bytes

end InfusedModbus.ProtocolCore
