import InfusedModbus.Foundation.Transducer
import InfusedModbus.Server.BitMemory

/-! The coil store under names refines the bit memory, up to the end of the address
space. As with the registers, a range that runs past the end is refused by the
memory, and served by the server when the coils it meets from address zero on are
configured; on every run without such a range the two give the same answers. -/

namespace InfusedModbus.Server

open Foundation Foundation.Outcome Protocol Datafs

section Refinement

variable {coils : List CoilDescription} {coilStore : CoilStore} {mem : BitMemory}

theorem findCoil_isSome {a : UInt16} : (findCoil coils a).isSome ↔ ∃ coil ∈ coils, coil.address.toNat = a.toNat := by
  simp only [findCoil, List.find?_isSome, beq_iff_eq, UInt16.toNat_inj]

/-- What is addressable is what the server finds configured before the end of the
address space. -/
theorem addressable_iff {a : UInt16} {n : ℕ} :
    Addressable coils a.toNat n ↔ a.toNat + n ≤ 65536 ∧ Configured (findCoil coils) a n := by
  constructor
  · intro h
    refine ⟨?_, fun i hi => ?_⟩
    · rcases Nat.eq_zero_or_pos n with rfl | hn
      · exact a.toNat_lt.le
      · have := (h (n - 1) (by omega)).1
        omega
    · obtain ⟨hle, hcoil⟩ := h i hi
      rwa [findCoil_isSome, advance_toNat, Nat.mod_eq_of_lt (by omega)]
  · rintro ⟨hle, hconf⟩ i hi
    have hcoil := findCoil_isSome.mp (hconf i hi)
    rw [advance_toNat, Nat.mod_eq_of_lt (by omega)] at hcoil
    exact ⟨by omega, hcoil⟩

/-! ### The store represents the memory -/

/-- Every coil reads as its bit of the memory. -/
def RepresentsBits (coils : List CoilDescription) (coilStore : CoilStore) (mem : BitMemory) : Prop :=
  ∀ coil ∈ coils, storedBit CoilDescription.name coilStore coil = mem coil.address.toNat

theorem representsBits_empty : RepresentsBits coils .empty fun _ => false := by
  intro coil _
  rfl

/-- A configured range reads as its cells. -/
theorem RepresentsBits.range_eq (h : RepresentsBits coils coilStore mem) {a : UInt16} {n : ℕ}
    (hle : a.toNat + n ≤ 65536) (hconf : Configured (findCoil coils) a n) :
    ((List.range n).map fun i => bitAtAddress (findCoil coils) CoilDescription.name coilStore (advance a i)) =
      cells mem a.toNat n := by
  apply List.map_congr_left
  intro i hi
  have hlt := List.mem_range.mp hi
  obtain ⟨coil, hcoil⟩ := Option.isSome_iff_exists.mp (hconf i hlt)
  obtain ⟨hmem, haddress⟩ := findCoil_eq_some hcoil
  rw [bitAtAddress, hcoil, Option.any_some, h coil hmem, haddress, advance_toNat, Nat.mod_eq_of_lt (by omega)]

/-- Storing a coil writes its bit. -/
theorem RepresentsBits.set (hflat : FlatCoils coils) (h : RepresentsBits coils coilStore mem)
    {coil : CoilDescription} (hmem : coil ∈ coils) (value : Bool) :
    RepresentsBits coils (coilStore.set coil.name ⟨value⟩) (overwrite mem coil.address.toNat [value]) := by
  intro other hother
  by_cases hname : other.name = coil.name
  · obtain rfl := List.inj_on_of_nodup_map hflat.names hother hmem hname
    rw [overwrite_of_mem mem _ le_rfl (by simp)]
    simp [storedBit]
  · have haddress : other.address.toNat ≠ coil.address.toNat := fun heq =>
      hname (congrArg _ (List.inj_on_of_nodup_map hflat.addresses hother hmem (UInt16.toNat_inj.mp heq)))
    have hkept : overwrite mem coil.address.toNat [value] other.address.toNat = mem other.address.toNat := by
      rcases Nat.lt_or_gt_of_ne haddress with hlt | hgt
      · exact overwrite_of_lt _ _ hlt
      · exact overwrite_of_ge _ _ hgt
    rw [hkept, ← h other hother, storedBit, Store.get_set_of_ne _ _ hname, storedBit]

/-- Storing a resolved batch writes its range. -/
theorem RepresentsBits.setAll (hflat : FlatCoils coils) (h : RepresentsBits coils coilStore mem) {a : UInt16}
    {values : List Bool} {offset : ℕ} {resolved : List (CoilDescription × Bool)}
    (hle : a.toNat + offset + values.length ≤ 65536) (hres : ResolvedFrom coils a values offset resolved) :
    RepresentsBits coils (coilStore.setAll (storeCoils resolved)) (overwrite mem (a.toNat + offset) values) := by
  induction values generalizing coilStore mem offset resolved with
  | nil =>
    obtain rfl := hres
    rw [overwrite_nil]
    exact h
  | cons value values ih =>
    obtain ⟨coil, rest, hfind, rfl, hrest⟩ := hres
    obtain ⟨hmem, haddress⟩ := findCoil_eq_some hfind
    simp only [List.length_cons] at hle
    have hplace : coil.address.toNat = a.toNat + offset := by
      rw [haddress, advance_toNat, Nat.mod_eq_of_lt (by omega)]
    have hset := h.set hflat hmem value
    rw [hplace] at hset
    have hsplit := overwrite_append mem (a.toNat + offset) [value] values
    rw [List.singleton_append, List.length_singleton, Nat.add_assoc] at hsplit
    rw [hsplit, storeCoils, List.map_cons, Store.setAll_cons]
    exact ih hset (by omega) hrest

end Refinement

/-! ### One request -/

/-- The server goes on past the end of the address space and finds coils there. -/
def WrapsPastEnd (coils : List CoilDescription) (pdu : Bytes) : Prop :=
  match parseCoilRequest pdu with
  | some (.read address quantity) =>
    65536 < address.toNat + quantity.toNat ∧ Configured (findCoil coils) address quantity.toNat
  | some (.writeMultiple address values) =>
    65536 < address.toNat + values.length ∧ Configured (findCoil coils) address values.length
  | some (.writeSingle ..) | none => False

/-- The machine answers a PDU as the memory does, and represents it again. -/
def AnswersBitsAlike (functionCode : UInt8) (machine : ServerMachineState) (mem : BitMemory) (pdu : Bytes) : Prop :=
  ∃ coilStore, handleMachineRequest functionCode pdu machine =
      .ok ((bitMemoryStep machine.coils mem pdu).2, { machine with coilStore := coilStore }) ∧
    RepresentsBits machine.coils coilStore (bitMemoryStep machine.coils mem pdu).1

section Step

variable {machine : ServerMachineState} {mem : BitMemory} {pdu : Bytes}

theorem readCoils_alike (h : RepresentsBits machine.coils machine.coilStore mem)
    (hhead : pdu.head? = some functionCodeReadCoils) (hwrap : ¬WrapsPastEnd machine.coils pdu) :
    AnswersBitsAlike functionCodeReadCoils machine mem pdu := by
  have heq := handleMachineRequest_readCoils pdu machine
  have hcode : pdu.headD 0 = functionCodeReadCoils := by rw [List.headD_eq_head?_getD, hhead, Option.getD_some]
  rcases parse_readCoils hhead with ⟨hparse, e, hdec⟩ | ⟨address, quantity, hparse, hdec⟩
  · rw [handleReadCoils_of_err hdec, map_ok] at heq
    simp only [AnswersBitsAlike, bitMemoryStep, hparse, hcode]
    exact ⟨machine.coilStore, heq, h⟩
  · simp only [WrapsPastEnd, hparse, not_and] at hwrap
    simp only [AnswersBitsAlike, bitMemoryStep, hparse]
    by_cases hconf : Configured (findCoil machine.coils) address quantity.toNat
    · have hle : address.toNat + quantity.toNat ≤ 65536 := not_lt.mp fun hlt => hwrap hlt hconf
      rw [handleReadCoils_of_configured hdec hconf, map_ok, h.range_eq hle hconf, ReadCoilsResponse.encode,
        encodeBitfieldResponse_eq, length_cells] at heq
      rw [if_pos (addressable_iff.mpr ⟨hle, hconf⟩)]
      exact ⟨machine.coilStore, heq, h⟩
    · rw [handleReadCoils_of_not_configured hdec hconf, map_ok] at heq
      rw [if_neg fun haddressable => hconf (addressable_iff.mp haddressable).2]
      exact ⟨machine.coilStore, heq, h⟩

theorem writeSingleCoil_alike (hflat : FlatCoils machine.coils)
    (h : RepresentsBits machine.coils machine.coilStore mem)
    (hhead : pdu.head? = some functionCodeWriteSingleCoil) :
    AnswersBitsAlike functionCodeWriteSingleCoil machine mem pdu := by
  have heq := handleMachineRequest_writeSingleCoil pdu machine
  have hcode : pdu.headD 0 = functionCodeWriteSingleCoil := by rw [List.headD_eq_head?_getD, hhead, Option.getD_some]
  rcases parse_writeSingleCoil hhead with ⟨hparse, e, hdec⟩ | ⟨address, value, hparse, hdec⟩
  · rw [handleWriteSingleCoil_of_err hdec, map_ok] at heq
    simp only [AnswersBitsAlike, bitMemoryStep, hparse, hcode]
    exact ⟨machine.coilStore, heq, h⟩
  · simp only [AnswersBitsAlike, bitMemoryStep, hparse]
    have hone : Addressable machine.coils address.toNat 1 ↔ (findCoil machine.coils address).isSome := by
      have := address.toNat_lt
      simp only [addressable_iff, Configured, Nat.lt_one_iff, forall_eq, advance_zero]
      exact and_iff_right (by omega)
    cases hfind : findCoil machine.coils address with
    | none =>
      rw [handleWriteSingleCoil_of_none hdec hfind, map_ok] at heq
      rw [if_neg (by rw [hone, hfind]; simp)]
      exact ⟨machine.coilStore, heq, h⟩
    | some coil =>
      obtain ⟨hmem, haddress⟩ := findCoil_eq_some hfind
      have hset := h.set hflat hmem value
      rw [haddress] at hset
      rw [handleWriteSingleCoil_of_some hdec hfind, map_ok, encode_writeSingleCoilResponse] at heq
      rw [if_pos (by rw [hone, hfind]; rfl)]
      exact ⟨_, heq, hset⟩

theorem writeMultipleCoils_alike (hflat : FlatCoils machine.coils)
    (h : RepresentsBits machine.coils machine.coilStore mem)
    (hhead : pdu.head? = some functionCodeWriteMultipleCoils) (hwrap : ¬WrapsPastEnd machine.coils pdu) :
    AnswersBitsAlike functionCodeWriteMultipleCoils machine mem pdu := by
  have heq := handleMachineRequest_writeMultipleCoils pdu machine
  have hcode : pdu.headD 0 = functionCodeWriteMultipleCoils := by rw [List.headD_eq_head?_getD, hhead, Option.getD_some]
  rcases parse_writeMultipleCoils hhead with ⟨hparse, e, hdec⟩ | ⟨address, values, hparse, hdec⟩
  · rw [handleWriteMultipleCoils_of_err hdec, map_ok] at heq
    simp only [AnswersBitsAlike, bitMemoryStep, hparse, hcode]
    exact ⟨machine.coilStore, heq, h⟩
  · simp only [WrapsPastEnd, hparse, not_and] at hwrap
    simp only [AnswersBitsAlike, bitMemoryStep, hparse]
    by_cases hconf : Configured (findCoil machine.coils) address values.length
    · have hle : address.toNat + values.length ≤ 65536 := not_lt.mp fun hlt => hwrap hlt hconf
      obtain ⟨resolved, hres, hwrite⟩ :=
        @handleWriteMultipleCoils_of_configured _ _ machine.coilStore _ hdec hconf
      rw [hwrite, map_ok] at heq
      rw [if_pos (addressable_iff.mpr ⟨hle, hconf⟩)]
      exact ⟨_, heq, h.setAll hflat (by omega) hres⟩
    · rw [handleWriteMultipleCoils_of_not_configured hdec hconf, map_ok] at heq
      rw [if_neg fun haddressable => hconf (addressable_iff.mp haddressable).2]
      exact ⟨machine.coilStore, heq, h⟩

theorem coilPdu_alike (hflat : FlatCoils machine.coils) (h : RepresentsBits machine.coils machine.coilStore mem)
    {functionCode : UInt8} (request : CoilPdu) (hhead : request.bytes.head? = some functionCode)
    (hwrap : ¬WrapsPastEnd machine.coils request.bytes) :
    AnswersBitsAlike functionCode machine mem request.bytes := by
  rcases request.isCoil with hcoil | hcoil | hcoil <;> obtain rfl := Option.some.inj (hhead.symm.trans hcoil)
  · exact readCoils_alike h hhead hwrap
  · exact writeSingleCoil_alike hflat h hhead
  · exact writeMultipleCoils_alike hflat h hhead hwrap

/-- A range that wraps around is served by the machine and refused by the memory. -/
theorem coilPdu_differs {functionCode : UInt8} (request : CoilPdu)
    (hhead : request.bytes.head? = some functionCode) (hwrap : WrapsPastEnd machine.coils request.bytes) :
    ∃ response machine', handleMachineRequest functionCode request.bytes machine = .ok (response, machine') ∧
      response ≠ (bitMemoryStep machine.coils mem request.bytes).2 := by
  rcases request.isCoil with hcoil | hcoil | hcoil <;> obtain rfl := Option.some.inj (hhead.symm.trans hcoil)
  · rcases parse_readCoils hhead with ⟨hparse, e, hdec⟩ | ⟨address, quantity, hparse, hdec⟩
    · simp only [WrapsPastEnd, hparse] at hwrap
    simp only [WrapsPastEnd, hparse] at hwrap
    obtain ⟨hover, hconf⟩ := hwrap
    have heq := handleMachineRequest_readCoils request.bytes machine
    rw [handleReadCoils_of_configured hdec hconf, map_ok] at heq
    refine ⟨_, _, heq, ?_⟩
    simp only [bitMemoryStep, hparse]
    rw [if_neg fun haddressable => absurd (addressable_iff.mp haddressable).1 (not_le.mpr hover)]
    exact ne_exception_of_head rfl (by decide)
  · rcases parse_writeSingleCoil hhead with ⟨hparse, e, hdec⟩ | ⟨address, value, hparse, hdec⟩ <;>
      simp only [WrapsPastEnd, hparse] at hwrap
  · rcases parse_writeMultipleCoils hhead with ⟨hparse, e, hdec⟩ | ⟨address, values, hparse, hdec⟩
    · simp only [WrapsPastEnd, hparse] at hwrap
    simp only [WrapsPastEnd, hparse] at hwrap
    obtain ⟨hover, hconf⟩ := hwrap
    have heq := handleMachineRequest_writeMultipleCoils request.bytes machine
    obtain ⟨resolved, _, hwrite⟩ :=
      @handleWriteMultipleCoils_of_configured _ _ machine.coilStore _ hdec hconf
    rw [hwrite, map_ok] at heq
    refine ⟨_, _, heq, ?_⟩
    simp only [bitMemoryStep, hparse]
    rw [if_neg fun haddressable => absurd (addressable_iff.mp haddressable).1 (not_le.mpr hover)]
    exact ne_exception_of_head rfl (by decide)

end Step

/-! ### Runs -/

section Run

variable {unitId : UInt8} {serverOptions : ServerOptions} {tomlSource : String}
  {fc43BulkTransfer : Fc43BulkTransfer}

/-- The server as a system over coil PDUs. -/
def coilServer (unitId : UInt8) (serverOptions : ServerOptions) (tomlSource : String)
    (fc43BulkTransfer : Fc43BulkTransfer) (machines : Machines) (request : CoilPdu) :
    Machines × Handled (Option Bytes) :=
  serverStep unitId serverOptions tomlSource fc43BulkTransfer machines request.bytes

/-- The memory as a system that answers every PDU. -/
noncomputable def bitMemoryServer (coils : List CoilDescription) (mem : BitMemory) (request : CoilPdu) :
    BitMemory × Handled (Option Bytes) :=
  ((bitMemoryStep coils mem request.bytes).1, .ok (some (bitMemoryStep coils mem request.bytes).2))

/-- The machine under the unit id has these coils, and they represent the memory. -/
def RefinesBits (unitId : UInt8) (coils : List CoilDescription) (machines : Machines) (mem : BitMemory) : Prop :=
  ∃ machine, machines.get unitId = some machine ∧ machine.coils = coils ∧
    RepresentsBits coils machine.coilStore mem

/-- The options open the three coil function codes. -/
structure CoilsEnabled (serverOptions : ServerOptions) : Prop where
  read : serverOptions.isEnabled functionCodeReadCoils = true
  writeSingle : serverOptions.isEnabled functionCodeWriteSingleCoil = true
  writeMultiple : serverOptions.isEnabled functionCodeWriteMultipleCoils = true

/-- A coil PDU is answered by its machine. -/
theorem coilServer_of_machine (henabled : CoilsEnabled serverOptions) {machines : Machines}
    {machine : ServerMachineState} {request : CoilPdu} (hget : machines.get unitId = some machine)
    {P : Bytes → ServerMachineState → Prop}
    (h : ∀ functionCode, request.bytes.head? = some functionCode → ∃ response machine',
      handleMachineRequest functionCode request.bytes machine = .ok (response, machine') ∧
        P response machine') : ∃ response machine',
      coilServer unitId serverOptions tomlSource fc43BulkTransfer machines request =
        (machines.set unitId machine', .ok (some response)) ∧ P response machine' := by
  obtain ⟨functionCode, hhead, henabled, hidentification, hfile⟩ : ∃ functionCode,
      request.bytes.head? = some functionCode ∧ serverOptions.isEnabled functionCode = true ∧
      functionCode ≠ functionCodeEncapsulatedInterfaceTransport ∧ functionCode ≠ functionCodeReadFileRecord := by
    rcases request.isCoil with hcoil | hcoil | hcoil
    · exact ⟨_, hcoil, henabled.read, by decide, by decide⟩
    · exact ⟨_, hcoil, henabled.writeSingle, by decide, by decide⟩
    · exact ⟨_, hcoil, henabled.writeMultiple, by decide, by decide⟩
  obtain ⟨response, machine', hanswer, hP⟩ := h functionCode hhead
  exact ⟨response, machine',
    serverStep_of_machine hhead henabled hget hidentification hfile hanswer, hP⟩

/-- On a machine whose coils a bit memory can stand for, a run of coil PDUs is
answered as by the memory exactly when none of them wraps around. -/
theorem coils_refine_memory_iff {machines : Machines} {machine : ServerMachineState}
    (hget : machines.get unitId = some machine) (hflat : FlatCoils machine.coils)
    (hempty : machine.coilStore = .empty) (henabled : CoilsEnabled serverOptions) (requests : List CoilPdu) :
    (run (coilServer unitId serverOptions tomlSource fc43BulkTransfer) machines requests).2 =
        (run (bitMemoryServer machine.coils) (fun _ => false) requests).2 ↔
      ∀ request ∈ requests, ¬WrapsPastEnd machine.coils request.bytes := by
  have hinit : RefinesBits unitId machine.coils machines fun _ => false :=
    ⟨machine, hget, rfl, hempty ▸ representsBits_empty⟩
  refine @run_outputs_eq_iff _ _ _ _ _ _ (RefinesBits unitId machine.coils) _ ?_ ?_ _ _ hinit requests
  · rintro machines mem request ⟨m, hm, hcoils, hrep⟩ hwrap
    rw [← hcoils] at hflat hwrap hrep ⊢
    obtain ⟨response, machine', heq, rfl, hcoils', hstore⟩ := @coilServer_of_machine _ _ tomlSource
      fc43BulkTransfer henabled _ _ _ hm
      (fun response machine' => response = (bitMemoryStep m.coils mem request.bytes).2 ∧
        machine'.coils = m.coils ∧ RepresentsBits m.coils machine'.coilStore
          (bitMemoryStep m.coils mem request.bytes).1)
      fun functionCode hhead => by
        obtain ⟨coilStore, hanswer, hstore⟩ := coilPdu_alike hflat hrep request hhead hwrap
        exact ⟨_, _, hanswer, rfl, rfl, hstore⟩
    rw [heq]
    exact ⟨rfl, machine', Store.get_set_self _ _ _, hcoils', hstore⟩
  · rintro machines mem request ⟨m, hm, hcoils, _⟩ hwrap
    rw [← hcoils] at hwrap ⊢
    obtain ⟨response, machine', heq, hne⟩ := @coilServer_of_machine _ _ tomlSource fc43BulkTransfer henabled
      _ _ _ hm (fun response _ => response ≠ (bitMemoryStep m.coils mem request.bytes).2)
      fun functionCode hhead => coilPdu_differs request hhead (not_not.mp hwrap)
    rw [heq]
    exact fun hanswer => hne (Option.some.inj (Outcome.ok.inj hanswer))

end Run

theorem coilsEnabled_allowAll : CoilsEnabled .allowAll := ⟨rfl, rfl, rfl⟩

/-- A machine of coils at some addresses and nothing else. -/
def coilsOnly (entries : List (String × UInt16)) : ServerMachineState :=
  .fresh ⟨"m", 1, [], entries.map fun e => ⟨e.1, e.2⟩, [], [], [], .abcd, .abcd, none⟩

/-- A pump and a valve next to it are switched on, the pump is switched off, and both are read
in one go. -/
def pumpAndValveRequests : List CoilPdu :=
  [⟨[0x0F, 0, 3, 0, 2, 1, 3], by decide⟩, ⟨[0x05, 0, 3, 0, 0], by decide⟩, ⟨[0x01, 0, 3, 0, 2], by decide⟩]

theorem coils_refine_memory_iff_pump :
    (run (coilServer 1 .allowAll "" ⟨[], ""⟩) (Store.empty.set 1 (coilsOnly [("pump", 3), ("valve", 4)]))
        pumpAndValveRequests).2 =
      (run (bitMemoryServer (coilsOnly [("pump", 3), ("valve", 4)]).coils) (fun _ => false)
        pumpAndValveRequests).2 := by
  refine (coils_refine_memory_iff (Store.get_set_self _ _ _) ⟨by decide, by decide⟩ rfl coilsEnabled_allowAll _).mpr ?_
  intro request hrequest hwrap
  simp only [pumpAndValveRequests, List.mem_cons, List.not_mem_nil, or_false] at hrequest
  -- all of them end far below the last address
  obtain rfl | rfl | rfl := hrequest
  · exact absurd hwrap.1 (by decide)
  · exact hwrap
  · exact absurd hwrap.1 (by decide)

/-- With coils at both ends of the address space, a read of two bits from the last
address is served. -/
theorem coils_wrap_around :
    FlatCoils (coilsOnly [("last", 65535), ("first", 0)]).coils ∧
      (run (coilServer 1 .allowAll "" ⟨[], ""⟩) (Store.empty.set 1 (coilsOnly [("last", 65535), ("first", 0)]))
        [⟨[0x01, 0xFF, 0xFF, 0, 2], by decide⟩]).2 ≠
      (run (bitMemoryServer (coilsOnly [("last", 65535), ("first", 0)]).coils) (fun _ => false)
        [⟨[0x01, 0xFF, 0xFF, 0, 2], by decide⟩]).2 := by
  refine ⟨⟨by decide, by decide⟩, ?_⟩
  have hwrap : WrapsPastEnd (coilsOnly [("last", 65535), ("first", 0)]).coils [0x01, 0xFF, 0xFF, 0, 2] :=
    ⟨by decide, by decide⟩
  obtain ⟨response, machine', heq, hne⟩ := @coilServer_of_machine 1 _ "" ⟨[], ""⟩ coilsEnabled_allowAll _ _
    ⟨[0x01, 0xFF, 0xFF, 0, 2], by decide⟩ (Store.get_set_self _ _ _) _
    fun _ hhead => @coilPdu_differs _ (fun _ => false) _ _ hhead hwrap
  rw [run_cons, run_cons, heq]
  exact fun hanswer => hne (Option.some.inj (Outcome.ok.inj (List.cons.inj hanswer).1))

end InfusedModbus.Server
