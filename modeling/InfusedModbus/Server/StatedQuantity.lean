import InfusedModbus.Protocol.Pdu.Consistency
import InfusedModbus.Server.WordRefinement

/-! How many registers or coils a request writes. The handlers write what the decoded
request carries; the master said how many that should be in the quantity field. The two
are the same when the request encodes back to its bytes, and for the two requests that
write registers nothing else makes sure of it. -/

namespace InfusedModbus.Server

open Foundation Foundation.Outcome Protocol Datafs

variable {machine machine' : ServerMachineState}

/-- The machine stored into the writable registers that tile so many words from an address on. -/
def StoresWords (machine machine' : ServerMachineState) (address : UInt16) (quantity : ℕ) : Prop :=
  ∃ rs values, values.length = quantity ∧ WriteTiles machine.registers address quantity rs ∧
    machine' = { machine with
      store := machine.store.setAll (storeWrites (decodeWrites machine.memLayout rs values)) }

/-- The machine stored into so many coils from an address on. -/
def StoresCoils (machine machine' : ServerMachineState) (address : UInt16) (quantity : ℕ) : Prop :=
  ∃ values resolved, values.length = quantity ∧ ResolvedFrom machine.coils address values 0 resolved ∧
    machine' = { machine with coilStore := machine.coilStore.setAll (storeCoils resolved) }

/-- What a machine may store for a request with a quantity field: as many as that says. -/
def StoresStated (pdu : Bytes) (machine machine' : ServerMachineState) : Kind → Prop
  | .writeMultipleRegistersRequest =>
    StoresWords machine machine' (wordAt pdu addressFieldByte) (wordAt pdu quantityOrValueFieldByte).toNat
  | .readWriteMultipleRegistersRequest =>
    StoresWords machine machine' (wordAt pdu readWriteWriteStartingAddressByte)
      (wordAt pdu writtenQuantityFieldByte).toNat
  | .writeMultipleCoilsRequest =>
    StoresCoils machine machine' (wordAt pdu addressFieldByte) (wordAt pdu quantityOrValueFieldByte).toNat
  | _ => True

/-- A request changes nothing, or one machine as its quantity field states. -/
def WritesStated (pdu : Bytes) (k : Kind) : Prop :=
  ∀ (unitId : UInt8) (serverOptions : ServerOptions) (machines machines' : Machines) (tomlSource : String)
    (fc43BulkTransfer : Fc43BulkTransfer) (response : Option Bytes),
    handleRequest unitId pdu serverOptions machines tomlSource fc43BulkTransfer = .ok (response, machines') →
      machines' = machines ∨ ∃ machine machine', machines.get unitId = some machine ∧
        machines' = machines.set unitId machine' ∧ (machine' = machine ∨ StoresStated pdu machine machine' k)

/-- The server changes only the machine that served the request. -/
theorem handleRequest_changes {unitId : UInt8} {pdu : Bytes} {serverOptions : ServerOptions}
    {machines machines' : Machines} {tomlSource : String} {fc43BulkTransfer : Fc43BulkTransfer}
    {response : Option Bytes}
    (h : handleRequest unitId pdu serverOptions machines tomlSource fc43BulkTransfer = .ok (response, machines')) :
    machines' = machines ∨ ∃ functionCode machine answer machine', pdu.head? = some functionCode ∧
      machines.get unitId = some machine ∧ machines' = machines.set unitId machine' ∧
      Served pdu machine functionCode answer machine' := by
  obtain ⟨response', machines'', heq, hanswered⟩ :=
    handleRequest_answered unitId pdu serverOptions machines tomlSource fc43BulkTransfer
  obtain ⟨rfl, rfl⟩ := Prod.mk.inj (ok.inj (h.symm.trans heq))
  cases hanswered with
  | silent _ => exact .inl rfl
  | rejected _ _ => exact .inl rfl
  | identification _ _ _ _ => exact .inl rfl
  | bulkTransfer _ _ => exact .inl rfl
  | served functionCode machine answer machine' hhead _ hget hserved =>
    exact .inr ⟨functionCode, machine, answer, machine', hhead, hget, rfl, hserved⟩

section Served

variable {pdu response : Bytes} {functionCode : UInt8}

theorem Served.stores_writeMultipleRegisters {request : WriteMultipleRegistersRequest}
    (h : Served pdu machine functionCode response machine') (hcode : functionCode = functionCodeWriteMultipleRegisters)
    (hdec : WriteMultipleRegistersRequest.decode pdu = .ok request) :
    machine' = machine ∨ StoresWords machine machine' request.startingAddress request.registerValues.length := by
  cases h
  case rejected => exact .inl rfl
  case writeMultiple request' rs hdec' hrs =>
    obtain rfl := ok.inj (hdec.symm.trans hdec')
    exact .inr ⟨rs, _, rfl, hrs, rfl⟩
  all_goals exact absurd hcode (by decide)

theorem Served.stores_readWriteMultipleRegisters {request : ReadWriteMultipleRegistersRequest}
    (h : Served pdu machine functionCode response machine')
    (hcode : functionCode = functionCodeReadWriteMultipleRegisters)
    (hdec : ReadWriteMultipleRegistersRequest.decode pdu = .ok request) :
    machine' = machine ∨ StoresWords machine machine' request.writeStartingAddress request.writeValues.length := by
  cases h
  case rejected => exact .inl rfl
  case readWrite request' ws rs store hdec' hws hrs hstore =>
    obtain rfl := ok.inj (hdec.symm.trans hdec')
    exact .inr ⟨ws, _, rfl, hws, by rw [hstore]⟩
  all_goals exact absurd hcode (by decide)

theorem Served.stores_writeMultipleCoils {request : WriteMultipleCoilsRequest}
    (h : Served pdu machine functionCode response machine') (hcode : functionCode = functionCodeWriteMultipleCoils)
    (hdec : WriteMultipleCoilsRequest.decode pdu = .ok request) :
    machine' = machine ∨ StoresCoils machine machine' request.startingAddress request.coilValues.length := by
  cases h
  case rejected => exact .inl rfl
  case writeMultipleCoils request' resolved hdec' hres =>
    obtain rfl := ok.inj (hdec.symm.trans hdec')
    exact .inr ⟨_, resolved, rfl, hres, rfl⟩
  all_goals exact absurd hcode (by decide)

end Served

/-- It is enough that what is served is served as stated. -/
theorem writesStated_of_served {pdu : Bytes} {k : Kind}
    (h : ∀ functionCode machine answer machine', pdu.head? = some functionCode →
      Served pdu machine functionCode answer machine' → machine' = machine ∨ StoresStated pdu machine machine' k) :
    WritesStated pdu k := by
  intro unitId serverOptions machines machines' tomlSource fc43BulkTransfer response hhandle
  refine (handleRequest_changes hhandle).imp_right ?_
  rintro ⟨functionCode, machine, answer, machine', hhead, hget, rfl, hserved⟩
  exact ⟨machine, machine', hget, rfl, h functionCode machine answer machine' hhead hserved⟩

/-- A request that agrees with its quantity field is carried out as that says. -/
theorem writesStated_of_quantityAgrees {pdu : Bytes} {k : Kind} {m : k.Payload} (h : decode k pdu = .ok m)
    (hagrees : QuantityAgrees pdu k) : WritesStated pdu k := by
  apply writesStated_of_served
  intro functionCode machine answer machine' hhead hserved
  cases k with
  | writeMultipleRegistersRequest =>
    obtain ⟨a1, a0, q1, q0, byteCount, data, rfl, heven, hle, rfl⟩ := WriteMultipleRegistersRequest.decode_eq_ok h
    refine (hserved.stores_writeMultipleRegisters (Option.some.inj hhead).symm h).imp_right fun hstores => ?_
    have hquantity : (u16FromBeBytes q1 q0).toNat * 2 = byteCount.toNat := hagrees.1
    have hlen := (bytesOfWords_wordsOfBytes_take heven hle).1
    rw [hlen, show byteCount.toNat / 2 = (u16FromBeBytes q1 q0).toNat by omega] at hstores
    exact hstores
  | readWriteMultipleRegistersRequest =>
    obtain ⟨r1, r0, n1, n0, w1, w0, q1, q0, byteCount, data, rfl, heven, hle, rfl⟩ :=
      ReadWriteMultipleRegistersRequest.decode_eq_ok h
    refine (hserved.stores_readWriteMultipleRegisters (Option.some.inj hhead).symm h).imp_right fun hstores => ?_
    have hquantity : (u16FromBeBytes q1 q0).toNat * 2 = byteCount.toNat := hagrees.1
    have hlen := (bytesOfWords_wordsOfBytes_take heven hle).1
    rw [hlen, show byteCount.toNat / 2 = (u16FromBeBytes q1 q0).toNat by omega] at hstores
    exact hstores
  | writeMultipleCoilsRequest =>
    obtain ⟨a1, a0, q1, q0, byteCount, data, rfl, hcount, hle, rfl⟩ := WriteMultipleCoilsRequest.decode_eq_ok h
    refine (hserved.stores_writeMultipleCoils (Option.some.inj hhead).symm h).imp_right fun hstores => ?_
    rw [length_unpackBits] at hstores
    exact hstores
  | readCoilsRequest | readDiscreteInputsRequest | readHoldingRegistersRequest | readInputRegistersRequest
  | writeSingleRegisterRequest | writeSingleCoilRequest | maskWriteRegisterRequest | reportServerIdRequest
  | readDeviceIdentificationRequest | readFileRecordRequest | readCoilsResponse | readDiscreteInputsResponse
  | readHoldingRegistersResponse | readInputRegistersResponse | writeSingleCoilResponse
  | writeSingleRegisterResponse | maskWriteRegisterResponse | reportServerIdResponse
  | readWriteMultipleRegistersResponse | writeMultipleCoilsResponse | writeMultipleRegistersResponse
  | readFileRecordResponse | writeFileRecordRequest | writeFileRecordResponse | readDeviceIdentificationResponse
  | exceptionResponse => exact .inr trivial

/-- An accepted request encodes back to its bytes, and writes as many registers or coils as
it states, exactly when its quantity field agrees with its byte count and keeps to the limit. -/
theorem accepted_request_consistent_iff (k : Kind) (hk : k.isServed) {pdu : Bytes} {m : k.Payload}
    (h : decode k pdu = .ok m) : EncodesBack pdu k m ∧ WritesStated pdu k ↔ QuantityAgrees pdu k := by
  rw [encodesBack_iff hk h]
  exact and_iff_left_of_imp (writesStated_of_quantityAgrees h)

theorem accepted_request_consistent_iff_two_registers :
    EncodesBack [0x10, 0, 1, 0, 2, 4, 0, 10, 1, 2] .writeMultipleRegistersRequest ⟨1, [10, 258]⟩ ∧
      WritesStated [0x10, 0, 1, 0, 2, 4, 0, 10, 1, 2] .writeMultipleRegistersRequest :=
  (accepted_request_consistent_iff .writeMultipleRegistersRequest rfl (by decide)).mpr (by decide)

/-- Of two registers one behind the other, a write of one word stores the first. -/
theorem StoresWords.get_second (h : StoresWords (wordRegisters [("a", 1), ("b", 2)]) machine' 1 1) :
    machine'.store.get "b" = none := by
  obtain ⟨rs, values, -, htiles, rfl⟩ := h
  have hnot : "b" ∉ (storeWrites (decodeWrites (wordRegisters [("a", 1), ("b", 2)]).memLayout rs values)).map
      Prod.fst := by
    rw [storeWrites, List.map_map]
    intro hb
    obtain ⟨p, hp, hname⟩ := List.mem_map.mp hb
    have hmem : p.1 ∈ rs := by
      rw [← map_fst_decodeWrites (wordRegisters [("a", 1), ("b", 2)]).memLayout rs values]
      exact List.mem_map_of_mem hp
    obtain ⟨hregister, -, i, hi, haddress⟩ := htiles.mem hmem
    obtain rfl : i = 0 := by omega
    simp only [wordRegisters, ServerMachineState.fresh, List.map_cons, List.map_nil, List.mem_cons,
      List.not_mem_nil, or_false] at hregister
    rcases hregister with hfirst | hsecond
    · rw [Function.comp_apply, hfirst] at hname
      exact absurd (show "a" = "b" from hname) (by decide)
    · rw [hsecond] at haddress
      exact absurd haddress (by decide)
  exact Store.get_setAll_of_notMem _ hnot

/-- The quantity field says one register, the byte count two: both are accepted, and written. -/
theorem disagreeing_request_accepted :
    decode .writeMultipleRegistersRequest [0x10, 0, 1, 0, 1, 4, 0, 10, 1, 2] = .ok ⟨1, [10, 258]⟩ ∧
      ¬EncodesBack [0x10, 0, 1, 0, 1, 4, 0, 10, 1, 2] .writeMultipleRegistersRequest ⟨1, [10, 258]⟩ ∧
      ¬WritesStated [0x10, 0, 1, 0, 1, 4, 0, 10, 1, 2] .writeMultipleRegistersRequest := by
  have hdec : WriteMultipleRegistersRequest.decode [0x10, 0, 1, 0, 1, 4, 0, 10, 1, 2] = .ok ⟨1, [10, 258]⟩ := by
    decide
  refine ⟨hdec, ?_, ?_⟩
  · rintro ⟨encoded, hencoded, hprefix⟩
    obtain rfl : [0x10, 0, 1, 0, 2, 4, 0, 10, 1, 2] = encoded := ok.inj (Eq.trans (by decide) hencoded)
    revert hprefix
    decide
  · intro hwrites
    have htiles : WriteTiles (wordRegisters [("a", 1), ("b", 2)]).registers 1 2
        [⟨"a", 1, .u16, .readWrite, none⟩, ⟨"b", 2, .u16, .readWrite, none⟩] := by
      exact ⟨rfl, by decide, rfl, by decide, rfl⟩
    have hhandle := @handleRequest_of_machine 1 [0x10, 0, 1, 0, 1, 4, 0, 10, 1, 2] .allowAll
      (Store.empty.set 1 (wordRegisters [("a", 1), ("b", 2)])) "" ⟨[], ""⟩ functionCodeWriteMultipleRegisters _ rfl rfl
      (Store.get_set_self _ _ _) (by decide) (by decide)
    rw [handleMachineRequest_writeMultipleRegisters, handleWriteMultipleRegisters_of_tiles hdec htiles, map_ok,
      map_ok] at hhandle
    rcases hwrites _ _ _ _ _ _ _ hhandle with heq | ⟨machine, machine', hget, hset, hstores⟩
    · have hb := congrArg (fun machines : Machines => (machines.get 1).map fun m => m.store.get "b") heq
      simp only [Store.get_set_self] at hb
      exact absurd hb (by decide)
    · obtain rfl := Option.some.inj ((Store.get_set_self _ _ _).symm.trans hget)
      have hnone : machine'.store.get "b" = none := by
        rcases hstores with rfl | hstores
        · rfl
        · exact StoresWords.get_second hstores
      have hb := congrArg (fun machines : Machines => (machines.get 1).map fun m => m.store.get "b") hset
      simp only [Store.get_set_self, Option.map_some, hnone] at hb
      exact absurd hb (by decide)

end InfusedModbus.Server
