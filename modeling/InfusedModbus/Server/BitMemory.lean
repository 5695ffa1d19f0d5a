import InfusedModbus.Server.Handler

/-! The coils of a machine as a partial memory of bits: what the coil requests mean
to a client that only knows addresses. Addresses are natural numbers and do not wrap;
only some of them are configured. A request is taken apart by the layout of the
protocol alone, without the codec. -/

namespace InfusedModbus.Server

open Foundation Foundation.Outcome Protocol Datafs

/-! ### Requests -/

/-- A request PDU of one of the three coil function codes. -/
structure CoilPdu where
  bytes : Bytes
  isCoil : bytes.head? = some functionCodeReadCoils ∨ bytes.head? = some functionCodeWriteSingleCoil ∨
    bytes.head? = some functionCodeWriteMultipleCoils

inductive CoilRequest where
  | read (address quantity : UInt16)
  | writeSingle (address : UInt16) (value : Bool)
  | writeMultiple (address : UInt16) (values : List Bool)
  deriving DecidableEq, Repr

/-- What a PDU asks for; none when it is malformed. -/
def parseCoilRequest : Bytes → Option CoilRequest
  | functionCode :: a1 :: a0 :: q1 :: q0 :: rest =>
    if functionCode = functionCodeReadCoils then some (.read (u16FromBeBytes a1 a0) (u16FromBeBytes q1 q0))
    else if functionCode = functionCodeWriteSingleCoil then
      if u16FromBeBytes q1 q0 = 0xFF00 then some (.writeSingle (u16FromBeBytes a1 a0) true)
      else if u16FromBeBytes q1 q0 = 0x0000 then some (.writeSingle (u16FromBeBytes a1 a0) false)
      else none
    else if functionCode = functionCodeWriteMultipleCoils then
      match rest with
      | byteCount :: data =>
        if byteCount.toNat = divCeil (u16FromBeBytes q1 q0).toNat 8 ∧ byteCount.toNat ≤ data.length then
          some (.writeMultiple (u16FromBeBytes a1 a0)
            (unpackBits (u16FromBeBytes q1 q0).toNat (data.take byteCount.toNat)))
        else none
      | [] => none
    else none
  | _ => none

/-! ### The memory -/

/-- A bit at every address; only those of configured coils mean anything. -/
abbrev BitMemory := ℕ → Bool

/-- Coils that a bit memory can stand for: told apart by name and by address. -/
structure FlatCoils (coils : List CoilDescription) : Prop where
  names : (coils.map CoilDescription.name).Nodup
  addresses : (coils.map CoilDescription.address).Nodup

/-- Every address of the range exists and is configured. -/
def Addressable (coils : List CoilDescription) (address n : ℕ) : Prop :=
  ∀ i < n, address + i ≤ 65535 ∧ ∃ coil ∈ coils, coil.address.toNat = address + i

open Classical in
/-- What the memory answers. -/
noncomputable def bitMemoryStep (coils : List CoilDescription) (mem : BitMemory) (pdu : Bytes) : BitMemory × Bytes :=
  match parseCoilRequest pdu with
  | some (.read address quantity) =>
    if Addressable coils address.toNat quantity.toNat then
      (mem, functionCodeReadCoils :: UInt8.ofNat (divCeil quantity.toNat 8) ::
        packBits (cells mem address.toNat quantity.toNat))
    else (mem, exception functionCodeReadCoils exceptionIllegalDataAddress)
  | some (.writeSingle address value) =>
    if Addressable coils address.toNat 1 then
      (overwrite mem address.toNat [value],
        functionCodeWriteSingleCoil :: (u16ToBeBytes address ++ if value then [0xFF, 0x00] else [0x00, 0x00]))
    else (mem, exception functionCodeWriteSingleCoil exceptionIllegalDataAddress)
  | some (.writeMultiple address values) =>
    if Addressable coils address.toNat values.length then
      (overwrite mem address.toNat values,
        functionCodeWriteMultipleCoils :: (u16ToBeBytes address ++ u16ToBeBytes (UInt16.ofNat values.length)))
    else (mem, exception functionCodeWriteMultipleCoils exceptionIllegalDataAddress)
  | none => (mem, exception (pdu.headD 0) exceptionIllegalDataValue)

/-! ### The codec takes a request apart alike -/

section Parse

/-- A PDU either has its five bytes or is too short for any coil request. -/
theorem five_bytes_or_short {bytes : Bytes} {functionCode : UInt8} (h : bytes.head? = some functionCode) :
    (∃ a1 a0 q1 q0 rest, bytes = functionCode :: a1 :: a0 :: q1 :: q0 :: rest) ∨
      bytes.length < 5 ∧ parseCoilRequest bytes = none := by
  match bytes with
  | [c] | [c, _] | [c, _, _] | [c, _, _, _] => exact .inr ⟨by simp, rfl⟩
  | c :: a1 :: a0 :: q1 :: q0 :: rest =>
    obtain rfl := Option.some.inj h
    exact .inl ⟨a1, a0, q1, q0, rest, rfl⟩

theorem decodeAddressAndQuantity_of_short {bytes : Bytes} (functionCode : UInt8) (h : bytes.length < 5) :
    decodeAddressAndQuantity bytes functionCode = .err .tooShort := by
  rw [decodeAddressAndQuantity, checkHeader, if_pos (by simpa [twoFieldPduLen] using h), err_bind]

theorem parse_readCoils {bytes : Bytes} (h : bytes.head? = some functionCodeReadCoils) :
    (parseCoilRequest bytes = none ∧ ∃ e, ReadCoilsRequest.decode bytes = .err e) ∨
      ∃ address quantity, parseCoilRequest bytes = some (.read address quantity) ∧
        ReadCoilsRequest.decode bytes = .ok ⟨address, quantity⟩ := by
  rcases five_bytes_or_short h with ⟨a1, a0, q1, q0, rest, rfl⟩ | ⟨hshort, hnone⟩
  · exact .inr ⟨_, _, rfl, by rw [ReadCoilsRequest.decode, decodeAddressAndQuantity_cons, map_ok]⟩
  · exact .inl ⟨hnone, _, by rw [ReadCoilsRequest.decode, decodeAddressAndQuantity_of_short _ hshort, map_err]⟩

theorem parse_writeSingleCoil {bytes : Bytes} (h : bytes.head? = some functionCodeWriteSingleCoil) :
    (parseCoilRequest bytes = none ∧ ∃ e, WriteSingleCoilRequest.decode bytes = .err e) ∨
      ∃ address value, parseCoilRequest bytes = some (.writeSingle address value) ∧
        WriteSingleCoilRequest.decode bytes = .ok ⟨address, value⟩ := by
  rcases five_bytes_or_short h with ⟨a1, a0, q1, q0, rest, rfl⟩ | ⟨hshort, hnone⟩
  · have hcode : functionCodeWriteSingleCoil ≠ functionCodeReadCoils := by decide
    rw [WriteSingleCoilRequest.decode, decodeWriteSingleCoil_cons]
    simp only [parseCoilRequest, hcode, if_false, if_true]
    by_cases hon : u16FromBeBytes q1 q0 = coilValueOn
    · exact .inr ⟨_, true, if_pos hon, by rw [if_pos hon, map_ok]⟩
    · by_cases hoff : u16FromBeBytes q1 q0 = coilValueOff
      · exact .inr ⟨_, false, (if_neg hon).trans (if_pos hoff), by rw [if_neg hon, if_pos hoff, map_ok]⟩
      · exact .inl ⟨(if_neg hon).trans (if_neg hoff), _, by rw [if_neg hon, if_neg hoff, map_err]⟩
  · refine .inl ⟨hnone, .tooShort, ?_⟩
    rw [WriteSingleCoilRequest.decode, decodeWriteSingleCoil, decodeAddressAndQuantity_of_short _ hshort, err_bind,
      map_err]

theorem parse_writeMultipleCoils {bytes : Bytes} (h : bytes.head? = some functionCodeWriteMultipleCoils) :
    (parseCoilRequest bytes = none ∧ ∃ e, WriteMultipleCoilsRequest.decode bytes = .err e) ∨
      ∃ address values, parseCoilRequest bytes = some (.writeMultiple address values) ∧
        WriteMultipleCoilsRequest.decode bytes = .ok ⟨address, values⟩ := by
  have hshorter : ∀ bytes : Bytes, bytes.length < 6 → WriteMultipleCoilsRequest.decode bytes = .err .tooShort := by
    intro bytes hlen
    rw [WriteMultipleCoilsRequest.decode, checkHeader,
      if_pos (by simpa [writeMultipleRequestHeaderLen] using hlen), err_bind]
  rcases five_bytes_or_short h with ⟨a1, a0, q1, q0, rest, rfl⟩ | ⟨hshort, hnone⟩
  · cases rest with
    | nil => exact .inl ⟨rfl, _, hshorter _ (by simp)⟩
    | cons byteCount data =>
      have hread : functionCodeWriteMultipleCoils ≠ functionCodeReadCoils := by decide
      have hsingle : functionCodeWriteMultipleCoils ≠ functionCodeWriteSingleCoil := by decide
      simp only [parseCoilRequest, hread, hsingle, if_false, if_true, WriteMultipleCoilsRequest.decode_cons]
      by_cases hcount : byteCount.toNat = divCeil (u16FromBeBytes q1 q0).toNat 8
      · by_cases hlen : byteCount.toNat ≤ data.length
        · exact .inr ⟨_, _, by rw [if_pos ⟨hcount, hlen⟩], by rw [if_neg (by simpa using hcount), if_neg (by omega)]⟩
        · exact .inl ⟨by rw [if_neg (by omega)], _, by rw [if_neg (by simpa using hcount), if_pos (by omega)]⟩
      · exact .inl ⟨by rw [if_neg (by tauto)], _, by rw [if_pos (by simpa using hcount)]⟩
  · exact .inl ⟨hnone, _, hshorter _ (by omega)⟩

/-- A written coil is echoed as the two bytes of its value. -/
theorem encode_writeSingleCoilResponse (address : UInt16) (value : Bool) :
    (WriteSingleCoilResponse.mk address value).encode =
      functionCodeWriteSingleCoil :: (u16ToBeBytes address ++ if value then [0xFF, 0x00] else [0x00, 0x00]) := by
  have hon : u16ToBeBytes coilValueOn = [0xFF, 0x00] := by decide
  have hoff : u16ToBeBytes coilValueOff = [0x00, 0x00] := by decide
  cases value <;> simp [WriteSingleCoilResponse.encode, encodeWriteSingleCoil, encodeAddressAndQuantity, hon, hoff]

end Parse

end InfusedModbus.Server
