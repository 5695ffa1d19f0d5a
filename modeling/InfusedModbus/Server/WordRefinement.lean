import InfusedModbus.Foundation.Transducer
import InfusedModbus.Server.WordMemory

/-! The typed register store under names refines the flat word memory, up to the end
of the address space. The server counts addresses modulo 65536, the memory does not,
so a range that runs past the end and goes on at address zero is refused by the
memory and may be accepted by the server; on every run without such a range the two
give the same answers. -/

namespace InfusedModbus.Server

open Foundation Foundation.Outcome Protocol Datafs

/-! ### The walk modulo the address space -/

section Ring

variable {ρ : Type} {find : UInt16 → Option ρ} {find' : ℕ → Option ρ} {size : ρ → ℕ}

/-- Up to the end of the address space, walking modulo its size is walking. -/
theorem tiles_advance_iff (hfind : ∀ a : UInt16, find a = find' a.toNat) (hpos : ∀ r, 0 < size r) {a : UInt16}
    {n : ℕ} (h : a.toNat + n ≤ 65536) {rs : List ρ} :
    Tiles find size advance a n rs ↔ Tiles find' size (· + ·) a.toNat n rs := by
  induction rs generalizing a n with
  | nil => rfl
  | cons r rs ih =>
    rw [tiles_cons, tiles_cons, hfind]
    refine and_congr_right fun _ => and_congr_right fun hle => ?_
    have hr := hpos r
    rcases Nat.lt_or_ge (a.toNat + size r) 65536 with hlt | hge
    · have hnext : (advance a (size r)).toNat = a.toNat + size r := by
        rw [advance_toNat, Nat.mod_eq_of_lt hlt]
      rw [ih (by omega), hnext]
    · rw [show n - size r = 0 by omega, tiles_zero fun _ r _ => hpos r, tiles_zero fun _ r _ => hpos r]

end Ring

section Refinement

variable {registers : List RegisterDescription} {memLayout : MemLayout} {store : RegisterStore} {mem : WordMemory}

theorem findRegister_eq_blockAt (a : UInt16) : findRegister registers a = blockAt wordAddress registers a.toNat := by
  unfold findRegister blockAt wordAddress
  congr 1
  funext r
  rw [Bool.eq_iff_iff, beq_iff_eq, beq_iff_eq, UInt16.toNat_inj]

theorem findReadWriteRegister_eq_blockAt (a : UInt16) :
    findReadWriteRegister registers a = blockAt wordAddress (writableRegisters registers) a.toNat := by
  unfold findReadWriteRegister blockAt wordAddress writableRegisters
  rw [List.find?_filter]
  congr 1
  funext r
  rw [Bool.eq_iff_iff]
  simp only [Bool.and_eq_true, beq_iff_eq, decide_eq_true_eq, UInt16.toNat_inj]
  exact and_comm

theorem readTiles_iff {a : UInt16} {n : ℕ} (h : a.toNat + n ≤ 65536) {rs : List RegisterDescription} :
    ReadTiles registers a n rs ↔ Tiles (blockAt wordAddress registers) wordCount (· + ·) a.toNat n rs :=
  tiles_advance_iff findRegister_eq_blockAt width_pos h

theorem writeTiles_iff {a : UInt16} {n : ℕ} (h : a.toNat + n ≤ 65536) {rs : List RegisterDescription} :
    WriteTiles registers a n rs ↔
      Tiles (blockAt wordAddress (writableRegisters registers)) wordCount (· + ·) a.toNat n rs :=
  tiles_advance_iff findReadWriteRegister_eq_blockAt width_pos h

/-- Nothing past the end of the address space is readable. -/
theorem Readable.le (hflat : FlatLayout registers) {a : UInt16} {n : ℕ} (h : Readable registers a.toNat n) :
    a.toNat + n ≤ 65536 := by
  rcases Nat.eq_zero_or_pos n with rfl | hn
  · exact a.toNat_lt.le
  · exact h.le_of_bounded hflat.fits hn

theorem Writable.le (hflat : FlatLayout registers) {a : UInt16} {n : ℕ} (h : Writable registers a.toNat n) :
    a.toNat + n ≤ 65536 := by
  rcases Nat.eq_zero_or_pos n with rfl | hn
  · exact a.toNat_lt.le
  · exact h.le_of_bounded (fun r hr => hflat.fits r (List.mem_filter.mp hr).1) hn

/-- Up to the end of the address space, what tiles is what is readable. -/
theorem readable_iff (hflat : FlatLayout registers) {a : UInt16} {n : ℕ} :
    Readable registers a.toNat n ↔ a.toNat + n ≤ 65536 ∧ ∃ rs, ReadTiles registers a n rs := by
  constructor
  · intro h
    refine ⟨h.le hflat, ?_⟩
    obtain ⟨rs, hrs⟩ := (isUnion_iff_tiles hflat.disjoint fun r _ => width_pos r).mp h
    exact ⟨rs, (readTiles_iff (h.le hflat)).mpr hrs⟩
  · rintro ⟨hle, rs, hrs⟩
    exact isUnion_of_tiles ((readTiles_iff hle).mp hrs)

theorem writable_iff (hflat : FlatLayout registers) {a : UInt16} {n : ℕ} :
    Writable registers a.toNat n ↔ a.toNat + n ≤ 65536 ∧ ∃ ws, WriteTiles registers a n ws := by
  constructor
  · intro h
    refine ⟨h.le hflat, ?_⟩
    obtain ⟨ws, hws⟩ := (isUnion_iff_tiles (disjoint_writable hflat) fun r _ => width_pos r).mp h
    exact ⟨ws, (writeTiles_iff (h.le hflat)).mpr hws⟩
  · rintro ⟨hle, ws, hws⟩
    exact isUnion_of_tiles ((writeTiles_iff hle).mp hws)

theorem writableWord_iff {a : UInt16} :
    WritableWord registers a.toNat ↔ ∃ register, findSingleWordReadWriteRegister registers a = some register := by
  rw [← Option.isSome_iff_exists, findSingleWordReadWriteRegister, List.find?_isSome]
  refine exists_congr fun register => and_congr_right fun _ => ?_
  simp only [Bool.and_eq_true, beq_iff_eq, wordAddress, wordCount, width, UInt16.toNat_inj, and_assoc]

/-! ### The store represents the memory -/

/-- Every register reads as its words of the memory. -/
def Represents (registers : List RegisterDescription) (memLayout : MemLayout) (store : RegisterStore)
    (mem : WordMemory) : Prop :=
  ∀ register ∈ registers, holdingWords store memLayout register = cells mem (wordAddress register) (wordCount register)

theorem represents_empty : Represents registers memLayout .empty fun _ => 0 := by
  intro register _
  have hzero := registerValueToWords_default register.dataType memLayout
  simp only [holdingWords, registerWords, storedValue, Store.get_empty, hzero]
  exact (cells_const 0 _ _).symm

/-- The words of the registers that tile a range are its cells. -/
theorem Represents.flatMap_eq (h : Represents registers memLayout store mem) {a : UInt16} {n : ℕ}
    (hle : a.toNat + n ≤ 65536) {rs : List RegisterDescription} (hrs : ReadTiles registers a n rs) :
    rs.flatMap (holdingWords store memLayout) = cells mem a.toNat n :=
  flatMap_eq_cells h ((readTiles_iff hle).mp hrs)

/-- Storing the value that some words spell writes the words. -/
theorem Represents.set (hflat : FlatLayout registers) (h : Represents registers memLayout store mem)
    {register : RegisterDescription} (hmem : register ∈ registers) {words : List UInt16} {value : RegisterValue}
    (hvalue : registerValueFromWords register.dataType words memLayout = some value) :
    Represents registers memLayout (store.set register.name value)
      (writeWords registers mem (wordAddress register) words) := by
  have hlen : words.length = wordCount register := length_of_registerValueFromWords hvalue
  intro other hother
  by_cases hname : other.name = register.name
  · obtain rfl := List.inj_on_of_nodup_map hflat.names hother hmem hname
    have hstored : storedValue (store.set other.name value) other.name other.dataType = value := by
      simp [storedValue, dataType_of_registerValueFromWords hvalue]
    rw [holdingWords, registerWords, hstored, registerValueToWords_fromWords hvalue, writeWords,
      mapIdx_keptWord hflat hmem hlen]
    have hcells := cells_overwrite mem (wordAddress other) (words.map (normalizeWord other.dataType))
    rw [List.length_map, hlen] at hcells
    exact hcells.symm
  · have hwords : holdingWords (store.set register.name value) memLayout other =
        holdingWords store memLayout other := by
      simp only [holdingWords, registerWords, storedValue, Store.get_set_of_ne _ _ hname]
    rw [hwords, h other hother]
    refine cells_congr fun x hlo hhi => ?_
    -- the two registers are disjoint, so `x` is outside what was written
    have hout : x ∉ extent wordAddress wordCount register := fun hin =>
      hname (congrArg _ (eq_of_mem_extent hflat.disjoint hother hmem ⟨hlo, hhi⟩ hin))
    simp only [extent, Set.mem_Ico, not_and_or, not_le, not_lt] at hout
    rcases hout with hlt | hge
    · exact (overwrite_of_lt _ _ hlt).symm
    · exact (overwrite_of_ge _ _ (by simpa [hlen] using hge)).symm

/-- A batch along writable registers that tile a range writes the range. -/
theorem Represents.setAll (hflat : FlatLayout registers) (h : Represents registers memLayout store mem) {a : ℕ}
    {values : List UInt16} {ws : List RegisterDescription}
    (hws : Tiles (blockAt wordAddress (writableRegisters registers)) wordCount (· + ·) a values.length ws) :
    Represents registers memLayout (store.setAll (storeWrites (decodeWrites memLayout ws values)))
      (writeWords registers mem a values) := by
  induction ws generalizing store mem a values with
  | nil =>
    obtain rfl := List.length_eq_zero_iff.mp (tiles_nil.mp hws)
    rw [show writeWords registers mem a [] = mem from overwrite_nil mem a]
    exact h
  | cons register ws ih =>
    obtain ⟨hfind, hle, hrest⟩ := hws
    obtain ⟨hmem, rfl⟩ := blockAt_eq_some hfind
    have hlen : (values.take register.dataType.registerCount).length = register.dataType.registerCount := by
      rw [List.length_take]
      exact Nat.min_eq_left hle
    obtain ⟨value, hvalue⟩ := isSome_registerValueFromWords hlen memLayout
    have hset := h.set hflat (List.mem_filter.mp hmem).1 hvalue
    have hlength : (values.drop register.dataType.registerCount).length = values.length - wordCount register :=
      List.length_drop
    have hall := ih hset (a := wordAddress register + wordCount register) (hlength ▸ hrest)
    have hsplit : writeWords registers mem (wordAddress register) values =
        writeWords registers (writeWords registers mem (wordAddress register)
          (values.take register.dataType.registerCount)) (wordAddress register + wordCount register)
          (values.drop register.dataType.registerCount) := by
      conv_lhs => rw [← List.take_append_drop register.dataType.registerCount values]
      rw [writeWords_append, hlen]
      rfl
    rw [decodeWrites, hvalue, Option.getD_some, storeWrites, List.map_cons, Store.setAll_cons, hsplit]
    exact hall

end Refinement

/-! ### One request -/

/-- The server goes on past the end of the address space and finds registers there. -/
def WrapsAround (registers : List RegisterDescription) : WordRequest → Prop
  | .read address quantity _ =>
    65536 < address.toNat + quantity.toNat ∧ ∃ rs, ReadTiles registers address quantity.toNat rs
  | .writeMultiple address values _ =>
    65536 < address.toNat + values.length ∧ ∃ ws, WriteTiles registers address values.length ws
  | .readWrite readAddress readQuantity writeAddress writeValues _ _ =>
    (65536 < readAddress.toNat + readQuantity.toNat ∨ 65536 < writeAddress.toNat + writeValues.length) ∧
      (∃ rs, ReadTiles registers readAddress readQuantity.toNat rs) ∧
      ∃ ws, WriteTiles registers writeAddress writeValues.length ws
  | .writeSingle .. | .maskWrite .. => False

/-- The machine answers a request as the memory does, and represents it again. -/
def AnswersAlike (machine : ServerMachineState) (mem : WordMemory) (request : WordRequest) : Prop :=
  ∃ store, handleMachineRequest request.functionCode request.pdu machine =
      .ok ((memoryStep machine.registers mem request).2, { machine with store := store }) ∧
    Represents machine.registers machine.memLayout store (memoryStep machine.registers mem request).1

section Step

variable {machine : ServerMachineState} {mem : WordMemory}

theorem answersAlike_read (hflat : FlatLayout machine.registers)
    (h : Represents machine.registers machine.memLayout machine.store mem) {address quantity : UInt16}
    {hquantity : quantity.toNat ≤ 125} (hwrap : ¬WrapsAround machine.registers (.read address quantity hquantity)) :
    AnswersAlike machine mem (.read address quantity hquantity) := by
  have hdec := WordRequest.decode_read address quantity hquantity
  have heq := handleMachineRequest_readHoldingRegisters (WordRequest.read address quantity hquantity).pdu machine
  refine ⟨machine.store, ?_, ?_⟩
  · by_cases htiles : ∃ rs, ReadTiles machine.registers address quantity.toNat rs
    · have hle : address.toNat + quantity.toNat ≤ 65536 := not_lt.mp fun hlt => hwrap ⟨hlt, htiles⟩
      have hread := (readable_iff hflat).mpr ⟨hle, htiles⟩
      obtain ⟨rs, hrs⟩ := htiles
      rw [handleRead_of_tiles hdec hrs, map_ok, h.flatMap_eq hle hrs] at heq
      rw [memoryStep, if_pos hread]
      exact heq
    · have hread : ¬Readable machine.registers address.toNat quantity.toNat := fun hread =>
        htiles ((readable_iff hflat).mp hread).2
      rw [handleRead_of_not_tiles hdec htiles, map_ok] at heq
      rw [memoryStep, if_neg hread]
      exact heq
  · rw [memoryStep]
    split <;> exact h

theorem answersAlike_writeSingle (hflat : FlatLayout machine.registers)
    (h : Represents machine.registers machine.memLayout machine.store mem) (address value : UInt16) :
    AnswersAlike machine mem (.writeSingle address value) := by
  have hdec := WordRequest.decode_writeSingle address value
  have heq := handleMachineRequest_writeSingleRegister (WordRequest.writeSingle address value).pdu machine
  cases hfind : findSingleWordReadWriteRegister machine.registers address with
  | none =>
    have hword : ¬WritableWord machine.registers address.toNat := by simp [writableWord_iff, hfind]
    rw [handleWriteSingle_of_none hdec hfind, map_ok] at heq
    refine ⟨machine.store, ?_, ?_⟩
    · rw [memoryStep, if_neg hword]
      exact heq
    · rw [memoryStep, if_neg hword]
      exact h
  | some register =>
    have hword : WritableWord machine.registers address.toNat := writableWord_iff.mpr ⟨register, hfind⟩
    obtain ⟨hmem, _, rfl⟩ := findSingleWordReadWriteRegister_eq_some hfind
    obtain ⟨stored, hstored, hwrite⟩ :=
      @handleWriteSingle_of_some _ _ machine.store machine.memLayout _ hdec _ hfind
    rw [hwrite, map_ok] at heq
    refine ⟨machine.store.set register.name stored, ?_, ?_⟩
    · rw [memoryStep, if_pos hword]
      exact heq
    · rw [memoryStep, if_pos hword]
      exact h.set hflat hmem hstored

theorem answersAlike_maskWrite (hflat : FlatLayout machine.registers)
    (h : Represents machine.registers machine.memLayout machine.store mem) (address andMask orMask : UInt16) :
    AnswersAlike machine mem (.maskWrite address andMask orMask) := by
  have hdec := WordRequest.decode_maskWrite address andMask orMask
  have heq := handleMachineRequest_maskWriteRegister (WordRequest.maskWrite address andMask orMask).pdu machine
  cases hfind : findSingleWordReadWriteRegister machine.registers address with
  | none =>
    have hword : ¬WritableWord machine.registers address.toNat := by simp [writableWord_iff, hfind]
    rw [handleMaskWriteRegister_of_none hdec hfind, map_ok] at heq
    refine ⟨machine.store, ?_, ?_⟩
    · rw [memoryStep, if_neg hword]
      exact heq
    · rw [memoryStep, if_neg hword]
      exact h
  | some register =>
    have hword : WritableWord machine.registers address.toNat := writableWord_iff.mpr ⟨register, hfind⟩
    have hcount : wordCount register = 1 := registerCount_of_findSingleWord hfind
    obtain ⟨hmem, _, rfl⟩ := findSingleWordReadWriteRegister_eq_some hfind
    obtain ⟨word, stored, hcurrent, hstored, hwrite⟩ :=
      @handleMaskWriteRegister_of_some _ _ machine.store machine.memLayout _ hdec _ hfind
    -- the word read back is the memory's word at the address
    have hcells := h register hmem
    rw [hcurrent, hcount] at hcells
    obtain rfl : word = mem register.address.toNat := (List.cons.inj hcells).1
    rw [hwrite, map_ok] at heq
    refine ⟨machine.store.set register.name stored, ?_, ?_⟩
    · rw [memoryStep, if_pos hword]
      exact heq
    · rw [memoryStep, if_pos hword]
      exact h.set hflat hmem hstored

theorem answersAlike_writeMultiple (hflat : FlatLayout machine.registers)
    (h : Represents machine.registers machine.memLayout machine.store mem) {address : UInt16} {values : List UInt16}
    {hvalues : values.length ≤ 123}
    (hwrap : ¬WrapsAround machine.registers (.writeMultiple address values hvalues)) :
    AnswersAlike machine mem (.writeMultiple address values hvalues) := by
  have hdec := WordRequest.decode_writeMultiple address values hvalues
  have heq := handleMachineRequest_writeMultipleRegisters
    (WordRequest.writeMultiple address values hvalues).pdu machine
  by_cases htiles : ∃ ws, WriteTiles machine.registers address values.length ws
  · have hle : address.toNat + values.length ≤ 65536 := not_lt.mp fun hlt => hwrap ⟨hlt, htiles⟩
    have hwrite := (writable_iff hflat).mpr ⟨hle, htiles⟩
    obtain ⟨ws, hws⟩ := htiles
    rw [handleWriteMultipleRegisters_of_tiles hdec hws, map_ok] at heq
    refine ⟨machine.store.setAll (storeWrites (decodeWrites machine.memLayout ws values)), ?_, ?_⟩
    · rw [memoryStep, if_pos hwrite]
      exact heq
    · rw [memoryStep, if_pos hwrite]
      exact h.setAll hflat ((writeTiles_iff hle).mp hws)
  · have hwrite : ¬Writable machine.registers address.toNat values.length := fun hwrite =>
      htiles ((writable_iff hflat).mp hwrite).2
    rw [handleWriteMultipleRegisters_of_not_tiles hdec htiles, map_ok] at heq
    refine ⟨machine.store, ?_, ?_⟩
    · rw [memoryStep, if_neg hwrite]
      exact heq
    · rw [memoryStep, if_neg hwrite]
      exact h

theorem answersAlike_readWrite (hflat : FlatLayout machine.registers)
    (h : Represents machine.registers machine.memLayout machine.store mem)
    {readAddress readQuantity writeAddress : UInt16} {writeValues : List UInt16}
    {hquantity : readQuantity.toNat ≤ 125} {hvalues : writeValues.length ≤ 123}
    (hwrap : ¬WrapsAround machine.registers
      (.readWrite readAddress readQuantity writeAddress writeValues hquantity hvalues)) :
    AnswersAlike machine mem (.readWrite readAddress readQuantity writeAddress writeValues hquantity hvalues) := by
  have hdec := WordRequest.decode_readWrite readAddress readQuantity writeAddress writeValues hquantity hvalues
  have heq := handleMachineRequest_readWriteMultipleRegisters
    (WordRequest.readWrite readAddress readQuantity writeAddress writeValues hquantity hvalues).pdu machine
  by_cases htiles : (∃ ws, WriteTiles machine.registers writeAddress writeValues.length ws) ∧
      ∃ rs, ReadTiles machine.registers readAddress readQuantity.toNat rs
  · obtain ⟨hws, hrs⟩ := htiles
    have hler : readAddress.toNat + readQuantity.toNat ≤ 65536 :=
      not_lt.mp fun hlt => hwrap ⟨.inl hlt, hrs, hws⟩
    have hlew : writeAddress.toNat + writeValues.length ≤ 65536 :=
      not_lt.mp fun hlt => hwrap ⟨.inr hlt, hrs, hws⟩
    have haccepted := And.intro ((readable_iff hflat).mpr ⟨hler, hrs⟩) ((writable_iff hflat).mpr ⟨hlew, hws⟩)
    obtain ⟨ws, hws⟩ := hws
    obtain ⟨rs, hrs⟩ := hrs
    have hwritten := h.setAll hflat ((writeTiles_iff hlew).mp hws)
    rw [handleReadWriteMultipleRegisters_of_tiles hdec hws hrs, map_ok, hwritten.flatMap_eq hler hrs] at heq
    refine ⟨machine.store.setAll (storeWrites (decodeWrites machine.memLayout ws writeValues)), ?_, ?_⟩
    · rw [memoryStep, if_pos haccepted]
      exact heq
    · rw [memoryStep, if_pos haccepted]
      exact hwritten
  · have hrefused : ¬(Readable machine.registers readAddress.toNat readQuantity.toNat ∧
        Writable machine.registers writeAddress.toNat writeValues.length) := fun haccepted =>
      htiles ⟨((writable_iff hflat).mp haccepted.2).2, ((readable_iff hflat).mp haccepted.1).2⟩
    rw [handleReadWriteMultipleRegisters_of_not_tiles hdec htiles, map_ok] at heq
    refine ⟨machine.store, ?_, ?_⟩
    · rw [memoryStep, if_neg hrefused]
      exact heq
    · rw [memoryStep, if_neg hrefused]
      exact h

theorem answersAlike (hflat : FlatLayout machine.registers)
    (h : Represents machine.registers machine.memLayout machine.store mem) {request : WordRequest}
    (hwrap : ¬WrapsAround machine.registers request) : AnswersAlike machine mem request := by
  cases request with
  | read => exact answersAlike_read hflat h hwrap
  | writeSingle => exact answersAlike_writeSingle hflat h _ _
  | writeMultiple => exact answersAlike_writeMultiple hflat h hwrap
  | maskWrite => exact answersAlike_maskWrite hflat h _ _ _
  | readWrite => exact answersAlike_readWrite hflat h hwrap

/-- A range that wraps around is served by the machine and refused by the memory. -/
theorem differs_of_wrapsAround (hflat : FlatLayout machine.registers) {request : WordRequest}
    (hwrap : WrapsAround machine.registers request) : ∃ response machine',
      handleMachineRequest request.functionCode request.pdu machine = .ok (response, machine') ∧
        response ≠ (memoryStep machine.registers mem request).2 := by
  cases request with
  | read address quantity hquantity =>
    obtain ⟨hover, rs, hrs⟩ := hwrap
    have hread : ¬Readable machine.registers address.toNat quantity.toNat := fun hread =>
      absurd (hread.le hflat) (not_le.mpr hover)
    have heq := handleMachineRequest_readHoldingRegisters (WordRequest.read address quantity hquantity).pdu machine
    rw [handleRead_of_tiles (WordRequest.decode_read address quantity hquantity) hrs, map_ok] at heq
    refine ⟨_, _, heq, ?_⟩
    rw [memoryStep, if_neg hread]
    exact ne_exception_of_head rfl (by decide)
  | writeMultiple address values hvalues =>
    obtain ⟨hover, ws, hws⟩ := hwrap
    have hwrite : ¬Writable machine.registers address.toNat values.length := fun hwrite =>
      absurd (hwrite.le hflat) (not_le.mpr hover)
    have heq := handleMachineRequest_writeMultipleRegisters
      (WordRequest.writeMultiple address values hvalues).pdu machine
    rw [handleWriteMultipleRegisters_of_tiles (WordRequest.decode_writeMultiple address values hvalues) hws,
      map_ok] at heq
    refine ⟨_, _, heq, ?_⟩
    rw [memoryStep, if_neg hwrite]
    exact ne_exception_of_head rfl (by decide)
  | readWrite readAddress readQuantity writeAddress writeValues hquantity hvalues =>
    obtain ⟨hover, ⟨rs, hrs⟩, ws, hws⟩ := hwrap
    have hrefused : ¬(Readable machine.registers readAddress.toNat readQuantity.toNat ∧
        Writable machine.registers writeAddress.toNat writeValues.length) := by
      rintro ⟨hread, hwrite⟩
      have := hread.le hflat
      have := hwrite.le hflat
      omega
    have heq := handleMachineRequest_readWriteMultipleRegisters
      (WordRequest.readWrite readAddress readQuantity writeAddress writeValues hquantity hvalues).pdu machine
    rw [handleReadWriteMultipleRegisters_of_tiles
      (WordRequest.decode_readWrite readAddress readQuantity writeAddress writeValues hquantity hvalues) hws hrs,
      map_ok] at heq
    refine ⟨_, _, heq, ?_⟩
    rw [memoryStep, if_neg hrefused]
    exact ne_exception_of_head rfl (by decide)
  | writeSingle | maskWrite => exact hwrap.elim

end Step

/-! ### Runs -/

section Run

variable {unitId : UInt8} {serverOptions : ServerOptions} {tomlSource : String}
  {fc43BulkTransfer : Fc43BulkTransfer}

/-- The server as a system over register requests. -/
def registerServer (unitId : UInt8) (serverOptions : ServerOptions) (tomlSource : String)
    (fc43BulkTransfer : Fc43BulkTransfer) (machines : Machines) (request : WordRequest) :
    Machines × Handled (Option Bytes) :=
  serverStep unitId serverOptions tomlSource fc43BulkTransfer machines request.pdu

/-- The memory as a system that answers every request. -/
noncomputable def memoryServer (registers : List RegisterDescription) (mem : WordMemory) (request : WordRequest) :
    WordMemory × Handled (Option Bytes) :=
  ((memoryStep registers mem request).1, .ok (some (memoryStep registers mem request).2))

/-- The machine under the unit id has these registers, and they represent the memory. -/
def Refines (unitId : UInt8) (registers : List RegisterDescription) (machines : Machines) (mem : WordMemory) : Prop :=
  ∃ machine, machines.get unitId = some machine ∧ machine.registers = registers ∧
    Represents registers machine.memLayout machine.store mem

theorem registerServer_of_machine (henabled : ∀ request : WordRequest, serverOptions.isEnabled request.functionCode)
    {machines : Machines} {machine machine' : ServerMachineState} {request : WordRequest} {response : Bytes}
    (hget : machines.get unitId = some machine)
    (h : handleMachineRequest request.functionCode request.pdu machine = .ok (response, machine')) :
    registerServer unitId serverOptions tomlSource fc43BulkTransfer machines request =
      (machines.set unitId machine', .ok (some response)) :=
  serverStep_of_machine request.head_pdu (henabled request) hget request.functionCode_ne_special.1
    request.functionCode_ne_special.2 h

/-- On a machine whose registers a flat memory can stand for, a run of register
requests is answered as by the memory exactly when none of them wraps around. -/
theorem registers_refine_memory_iff {machines : Machines} {machine : ServerMachineState}
    (hget : machines.get unitId = some machine) (hflat : FlatLayout machine.registers)
    (hempty : machine.store = .empty)
    (henabled : ∀ request : WordRequest, serverOptions.isEnabled request.functionCode = true)
    (requests : List WordRequest) :
    (run (registerServer unitId serverOptions tomlSource fc43BulkTransfer) machines requests).2 =
        (run (memoryServer machine.registers) (fun _ => 0) requests).2 ↔
      ∀ request ∈ requests, ¬WrapsAround machine.registers request := by
  have hinit : Refines unitId machine.registers machines fun _ => 0 :=
    ⟨machine, hget, rfl, hempty ▸ represents_empty⟩
  refine @run_outputs_eq_iff _ _ _ _ _ _ (Refines unitId machine.registers) _ ?_ ?_ _ _ hinit requests
  · rintro machines mem request ⟨m, hm, hregisters, hrep⟩ hwrap
    rw [← hregisters] at hflat hwrap hrep ⊢
    obtain ⟨store, hanswer, hstore⟩ := answersAlike hflat hrep hwrap
    rw [registerServer_of_machine henabled hm hanswer]
    exact ⟨rfl, _, Store.get_set_self _ _ _, rfl, hstore⟩
  · rintro machines mem request ⟨m, hm, hregisters, _⟩ hwrap
    rw [← hregisters] at hflat hwrap ⊢
    obtain ⟨response, machine', hanswer, hne⟩ := differs_of_wrapsAround hflat (not_not.mp hwrap)
    rw [registerServer_of_machine henabled hm hanswer]
    exact fun heq => hne (Option.some.inj (Outcome.ok.inj heq))

end Run

theorem isEnabled_allowAll (request : WordRequest) : ServerOptions.allowAll.isEnabled request.functionCode = true := by
  cases request <;> rfl

/-- A machine of 16-bit registers at some addresses and nothing else. -/
def wordRegisters (entries : List (String × UInt16)) : ServerMachineState :=
  .fresh ⟨"m", 1, entries.map fun e => ⟨e.1, e.2, .u16, .readWrite, none⟩, [], [], [], [], .abcd, .abcd, none⟩

/-- A setpoint of one word and a total of two, next to each other. -/
def setpointAndTotal : ServerMachineState :=
  .fresh ⟨"m", 1, [⟨"setpoint", 7, .u16, .readWrite, none⟩, ⟨"total", 8, .u32, .readWrite, none⟩], [], [], [], [],
    .abcd, .abcd, none⟩

/-- Both are written, one after the other, and read in one go. -/
def setpointAndTotalRequests : List WordRequest :=
  [.writeSingle 7 258, .writeMultiple 8 [3, 4] (by decide), .read 7 3 (by decide)]

theorem registers_refine_memory_iff_setpoint :
    (run (registerServer 1 .allowAll "" ⟨[], ""⟩) (Store.empty.set 1 setpointAndTotal) setpointAndTotalRequests).2 =
      (run (memoryServer setpointAndTotal.registers) (fun _ => 0) setpointAndTotalRequests).2 := by
  have hflat : FlatLayout setpointAndTotal.registers := by
    refine ⟨by decide, List.pairwise_pair.mpr ?_, by decide⟩
    exact Set.disjoint_left.mpr fun x hsetpoint htotal => absurd (htotal.1.trans_lt hsetpoint.2) (by decide)
  refine (registers_refine_memory_iff (Store.get_set_self _ _ _) hflat rfl isEnabled_allowAll _).mpr ?_
  intro request hrequest hwrap
  simp only [setpointAndTotalRequests, List.mem_cons, List.not_mem_nil, or_false] at hrequest
  -- all of them end far below the last address
  obtain rfl | rfl | rfl := hrequest
  · exact hwrap
  · exact absurd hwrap.1 (by decide)
  · exact absurd hwrap.1 (by decide)

/-- With registers at both ends of the address space, a read of two words from the
last address is served. -/
theorem registers_wrap_around :
    FlatLayout (wordRegisters [("last", 65535), ("first", 0)]).registers ∧
      (run (registerServer 1 .allowAll "" ⟨[], ""⟩) (Store.empty.set 1 (wordRegisters [("last", 65535), ("first", 0)]))
        [.read 65535 2 (by decide)]).2 ≠
      (run (memoryServer (wordRegisters [("last", 65535), ("first", 0)]).registers) (fun _ => 0)
        [.read 65535 2 (by decide)]).2 := by
  have hflat : FlatLayout (wordRegisters [("last", 65535), ("first", 0)]).registers := by
    refine ⟨by decide, List.pairwise_pair.mpr ?_, by decide⟩
    exact Set.disjoint_left.mpr fun x hlast hfirst => absurd (hlast.1.trans_lt hfirst.2) (by decide)
  refine ⟨hflat, ?_⟩
  obtain ⟨response, machine', hanswer, hne⟩ := @differs_of_wrapsAround _ (fun _ => 0) hflat
    (.read 65535 2 (by decide))
    ⟨by decide, [⟨"last", 65535, .u16, .readWrite, none⟩, ⟨"first", 0, .u16, .readWrite, none⟩], rfl, by decide, rfl, by decide, rfl⟩
  rw [run_cons, run_cons, registerServer_of_machine isEnabled_allowAll (Store.get_set_self _ _ _) hanswer]
  exact fun heq => hne (Option.some.inj (Outcome.ok.inj (List.cons.inj heq).1))

end InfusedModbus.Server
