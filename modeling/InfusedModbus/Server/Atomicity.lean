import InfusedModbus.Server.Handler

/-! Requests are all or nothing. A request that is not answered, or answered with an
exception, leaves every store as it was. A request that succeeds changes only the
machine it was sent to, and there only writable registers, coils and file records
that it addresses; inputs are never written. -/

namespace InfusedModbus.Server

open Foundation Foundation.Outcome Protocol Datafs

/-! ### What a request addresses -/

/-- A register address that a request writes to. -/
def WritesRegister (pdu : Bytes) (address : UInt16) : Prop :=
  (∃ request, WriteSingleRegisterRequest.decode pdu = .ok request ∧ address = request.registerAddress) ∨
  (∃ request, MaskWriteRegisterRequest.decode pdu = .ok request ∧ address = request.referenceAddress) ∨
  (∃ request, WriteMultipleRegistersRequest.decode pdu = .ok request ∧
    ∃ i < request.registerValues.length, address = advance request.startingAddress i) ∨
  ∃ request, ReadWriteMultipleRegistersRequest.decode pdu = .ok request ∧
    ∃ i < request.writeValues.length, address = advance request.writeStartingAddress i

/-- A coil address that a request writes to. -/
def WritesCoil (pdu : Bytes) (address : UInt16) : Prop :=
  (∃ request, WriteSingleCoilRequest.decode pdu = .ok request ∧ address = request.coilAddress) ∨
  ∃ request, WriteMultipleCoilsRequest.decode pdu = .ok request ∧
    ∃ i < request.coilValues.length, address = advance request.startingAddress i

/-- A file record that a request writes to. -/
def WritesFileRecord (pdu : Bytes) (fileNumber recordNumber : UInt16) : Prop :=
  ∃ request, WriteFileRecordRequest.decode pdu = .ok request ∧
    ∃ s ∈ request.subRequests, s.fileNumber = fileNumber ∧ s.recordNumber = recordNumber

/-- The only differences between two states of a machine are what a request addresses
and the description lets it write. -/
structure ChangedOnlyAddressed (pdu : Bytes) (machine machine' : ServerMachineState) : Prop where
  rest : machine' =
    { machine with
      store := machine'.store, coilStore := machine'.coilStore, fileRecordStore := machine'.fileRecordStore }
  registers : ∀ name, machine'.store.get name ≠ machine.store.get name →
    ∃ register ∈ machine.registers, register.name = name ∧ register.access = .readWrite ∧
      WritesRegister pdu register.address
  coils : ∀ name, machine'.coilStore.get name ≠ machine.coilStore.get name →
    ∃ coil ∈ machine.coils, coil.name = name ∧ WritesCoil pdu coil.address
  fileRecords : ∀ key, machine'.fileRecordStore.get key ≠ machine.fileRecordStore.get key →
    ∃ record ∈ machine.fileRecords, (record.fileNumber, record.recordNumber) = key ∧
      WritesFileRecord pdu record.fileNumber record.recordNumber

/-- Not answered, or answered with an exception. -/
def Unsuccessful (response : Option Bytes) : Prop := ∀ bytes, response = some bytes → IsException bytes

/-! ### One machine -/

section Machine

variable {pdu : Bytes} {machine machine' : ServerMachineState} {functionCode : UInt8} {response : Bytes}

/-- A batch changes only the names it stores. -/
theorem mem_of_get_setAll_ne {κ ν : Type} [DecidableEq κ] {store : Store κ ν} {kvs : List (κ × ν)} {k : κ}
    (h : (store.setAll kvs).get k ≠ store.get k) : k ∈ kvs.map Prod.fst := by
  by_contra hk
  exact h (Store.get_setAll_of_notMem store hk)

theorem eq_of_get_set_ne {κ ν : Type} [DecidableEq κ] {store : Store κ ν} {k k' : κ} {v : ν}
    (h : (store.set k v).get k' ≠ store.get k') : k = k' := by
  by_contra hk
  exact h (Store.get_set_of_ne store v (Ne.symm hk))

theorem changedOnlyAddressed_refl (pdu : Bytes) (machine : ServerMachineState) :
    ChangedOnlyAddressed pdu machine machine :=
  ⟨rfl, fun _ h => absurd rfl h, fun _ h => absurd rfl h, fun _ h => absurd rfl h⟩

/-- A change of the register store alone. -/
theorem changedOnlyAddressed_store {store : RegisterStore}
    (h : ∀ name, store.get name ≠ machine.store.get name → ∃ register ∈ machine.registers,
      register.name = name ∧ register.access = .readWrite ∧ WritesRegister pdu register.address) :
    ChangedOnlyAddressed pdu machine { machine with store := store } :=
  ⟨rfl, h, fun _ h => absurd rfl h, fun _ h => absurd rfl h⟩

theorem changedOnlyAddressed_coilStore {coilStore : CoilStore}
    (h : ∀ name, coilStore.get name ≠ machine.coilStore.get name → ∃ coil ∈ machine.coils,
      coil.name = name ∧ WritesCoil pdu coil.address) :
    ChangedOnlyAddressed pdu machine { machine with coilStore := coilStore } :=
  ⟨rfl, fun _ h => absurd rfl h, h, fun _ h => absurd rfl h⟩

/-- A batch of register writes changes only registers of its tiling. -/
theorem changed_of_storeWrites {store : RegisterStore} {registers ws : List RegisterDescription}
    {memLayout : MemLayout} {address : UInt16} {values : List UInt16}
    (hws : WriteTiles registers address values.length ws) {name : String}
    (h : (store.setAll (storeWrites (decodeWrites memLayout ws values))).get name ≠ store.get name) :
    ∃ register ∈ registers, register.name = name ∧ register.access = .readWrite ∧
      ∃ i < values.length, register.address = advance address i := by
  have hmem := mem_of_get_setAll_ne h
  simp only [storeWrites, List.map_map, List.mem_map, Function.comp] at hmem
  obtain ⟨p, hp, rfl⟩ := hmem
  have hp' : p.1 ∈ ws := by
    rw [← map_fst_decodeWrites memLayout ws values]
    exact List.mem_map_of_mem hp
  obtain ⟨hregister, haccess, hrange⟩ := hws.mem hp'
  exact ⟨p.1, hregister, rfl, haccess, hrange⟩

theorem Served.changedOnlyAddressed (h : Served pdu machine functionCode response machine') :
    ChangedOnlyAddressed pdu machine machine' := by
  cases h with
  | rejected | readRegisters | reportServerId | readCoils | readDiscreteInputs | readInputRegisters
  | readFileRecord => exact changedOnlyAddressed_refl _ _
  | writeSingle request register value hdec hfind =>
    refine changedOnlyAddressed_store fun name hne => ?_
    obtain ⟨hmem, haccess, haddress⟩ := findSingleWordReadWriteRegister_eq_some hfind
    exact ⟨register, hmem, eq_of_get_set_ne hne, haccess, .inl ⟨request, hdec, haddress⟩⟩
  | maskWrite request register word value hdec hfind =>
    refine changedOnlyAddressed_store fun name hne => ?_
    obtain ⟨hmem, haccess, haddress⟩ := findSingleWordReadWriteRegister_eq_some hfind
    exact ⟨register, hmem, eq_of_get_set_ne hne, haccess, .inr (.inl ⟨request, hdec, haddress⟩)⟩
  | writeMultiple request rs hdec hrs =>
    refine changedOnlyAddressed_store fun name hne => ?_
    obtain ⟨register, hmem, hname, haccess, hrange⟩ := changed_of_storeWrites hrs hne
    exact ⟨register, hmem, hname, haccess, .inr (.inr (.inl ⟨request, hdec, hrange⟩))⟩
  | readWrite request ws rs store hdec hws hrs hstore =>
    subst hstore
    refine changedOnlyAddressed_store fun name hne => ?_
    obtain ⟨register, hmem, hname, haccess, hrange⟩ := changed_of_storeWrites hws hne
    exact ⟨register, hmem, hname, haccess, .inr (.inr (.inr ⟨request, hdec, hrange⟩))⟩
  | writeSingleCoil request coil hdec hfind =>
    refine changedOnlyAddressed_coilStore fun name hne => ?_
    obtain ⟨hmem, haddress⟩ := findCoil_eq_some hfind
    exact ⟨coil, hmem, eq_of_get_set_ne hne, .inl ⟨request, hdec, haddress⟩⟩
  | writeMultipleCoils request resolved hdec hres =>
    refine changedOnlyAddressed_coilStore fun name hne => ?_
    have hmem := mem_of_get_setAll_ne hne
    simp only [storeCoils, List.map_map, List.mem_map, Function.comp] at hmem
    obtain ⟨p, hp, rfl⟩ := hmem
    obtain ⟨i, hi, hfind⟩ := hres.mem hp
    obtain ⟨hcoil, haddress⟩ := findCoil_eq_some hfind
    rw [Nat.zero_add] at haddress
    exact ⟨p.1, hcoil, rfl, .inr ⟨request, hdec, i, hi, haddress⟩⟩
  | writeFileRecord request response hdec hall henc =>
    refine ⟨rfl, fun _ h => absurd rfl h, fun _ h => absurd rfl h, fun key hne => ?_⟩
    have hmem := mem_of_get_setAll_ne hne
    simp only [storeRecords, List.map_map, List.mem_map, Function.comp] at hmem
    obtain ⟨s, hs, rfl⟩ := hmem
    obtain ⟨description, hfind, _⟩ := hall s hs
    obtain ⟨hdescription, hfile, hrecord⟩ := findFileRecord_eq_some hfind
    exact ⟨description, hdescription, by rw [hfile, hrecord], request, hdec, s, hs, hfile.symm, hrecord.symm⟩

/-- A machine that answers with an exception stays as it is. -/
theorem Served.unchanged_of_isException (h : Served pdu machine functionCode response machine')
    (hexception : IsException response) : machine' = machine := by
  cases h with
  | rejected | readRegisters | reportServerId | readCoils | readDiscreteInputs | readInputRegisters
  | readFileRecord => rfl
  | writeFileRecord request response hdec hall henc =>
    obtain ⟨_, rfl⟩ := encodeWriteFileRecord_eq_ok.mp henc
    exact absurd hexception (not_isException_of_head rfl (by decide))
  | _ => exact absurd hexception (not_isException_of_head rfl (by decide))

end Machine

/-! ### The whole server -/

/-- A request is answered or not, never panics, changes nothing without success, and
with it changes only what it addresses in its machine. -/
theorem request_all_or_nothing (unitId : UInt8) (pdu : Bytes) (serverOptions : ServerOptions)
    (machines : Machines) (tomlSource : String) (fc43BulkTransfer : Fc43BulkTransfer) :
    ∃ response machines',
      handleRequest unitId pdu serverOptions machines tomlSource fc43BulkTransfer = .ok (response, machines') ∧
      (Unsuccessful response → machines' = machines) ∧
      (∀ otherId, otherId ≠ unitId → machines'.get otherId = machines.get otherId) ∧
      (machines.get unitId = none → machines' = machines) ∧
      ∀ machine, machines.get unitId = some machine →
        ∃ machine', machines'.get unitId = some machine' ∧ ChangedOnlyAddressed pdu machine machine' := by
  obtain ⟨response, machines', heq, hanswered⟩ :=
    handleRequest_answered unitId pdu serverOptions machines tomlSource fc43BulkTransfer
  refine ⟨response, machines', heq, ?_⟩
  cases hanswered with
  | silent | rejected | identification | bulkTransfer =>
    exact ⟨fun _ => rfl, fun _ _ => rfl, fun _ => rfl,
      fun machine hget => ⟨machine, hget, changedOnlyAddressed_refl _ _⟩⟩
  | served functionCode machine response machine' hhead henabled hget hserved =>
    refine ⟨fun hfail => ?_, fun otherId hne => Store.get_set_of_ne _ _ hne, ?_, ?_⟩
    · rw [hserved.unchanged_of_isException (hfail response rfl), Store.set_eq_self hget]
    · intro hnone
      rw [hget] at hnone
      cases hnone
    · intro machine₀ hget₀
      obtain rfl := Option.some.inj (hget.symm.trans hget₀)
      exact ⟨machine', Store.get_set_self _ _ _, hserved.changedOnlyAddressed⟩

end InfusedModbus.Server
