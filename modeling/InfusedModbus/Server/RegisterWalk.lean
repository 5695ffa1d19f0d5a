import InfusedModbus.Foundation.Tiling
import InfusedModbus.Server.MachineState

/-! The loops that walk a range of wire addresses register by register. A register
exists only at its own starting address, and addresses wrap at 65536, so each loop
succeeds exactly when the registers found from the starting address on tile the
requested number of words along the ring of addresses. -/

namespace InfusedModbus.Server

open Foundation Foundation.Outcome Protocol Datafs

/-- The address `n` words further on, modulo the address space. -/
def advance (address : UInt16) (n : ℕ) : UInt16 := address + UInt16.ofNat n

theorem advance_toNat (address : UInt16) (n : ℕ) : (advance address n).toNat = (address.toNat + n) % 65536 := by
  simp [advance, UInt16.toNat_add]

@[simp] theorem advance_zero (address : UInt16) : advance address 0 = address := by
  simp [advance]

theorem advance_add (address : UInt16) (m n : ℕ) : advance address (m + n) = advance (advance address m) n := by
  apply UInt16.toNat_inj.mp
  simp only [advance_toNat]
  omega

/-- Within one lap, only an empty range ends where it starts. -/
theorem eq_advance_iff {address : UInt16} {n : ℕ} (h : n < 65536) : address = advance address n ↔ n = 0 := by
  rw [← UInt16.toNat_inj, advance_toNat]
  have := address.toNat_lt
  omega

/-- The stored value if it has the declared type, otherwise the type's default. -/
def storedValue (store : Store String RegisterValue) (name : String) (dataType : DataType) : RegisterValue :=
  match store.get name with
  | some value => if value.dataType = dataType then value else defaultRegisterValue dataType
  | none => defaultRegisterValue dataType

@[simp] theorem dataType_storedValue (store : Store String RegisterValue) (name : String) (dataType : DataType) :
    (storedValue store name dataType).dataType = dataType := by
  unfold storedValue
  split
  · split
    · assumption
    · simp
  · simp

/-! ### Reading -/

section Read

variable {ρ : Type} (find : UInt16 → Option ρ) (name : ρ → String) (dataType : ρ → DataType)

/-- How many words a register spans. -/
def width (register : ρ) : ℕ := (dataType register).registerCount

/-- The words a register reads as. -/
def registerWords (store : Store String RegisterValue) (memLayout : MemLayout) (register : ρ) : List UInt16 :=
  registerValueToWords (storedValue store (name register) (dataType register)) memLayout

@[simp] theorem length_registerWords (store : Store String RegisterValue) (memLayout : MemLayout)
    (register : ρ) : (registerWords name dataType store memLayout register).length = width dataType register := by
  simp [registerWords, width]

/-- The read loop: collect the words of the registers met from `address` to
`endAddress`, of which `taken` came before. -/
def readRegisters (store : Store String RegisterValue) (memLayout : MemLayout) (quantity : ℕ)
    (endAddress address : UInt16) (taken : ℕ) : Option (List UInt16) :=
  if address = endAddress then some []
  else
    match find address with
    | none => none
    | some register =>
      if taken + (registerWords name dataType store memLayout register).length > quantity then none
      else (readRegisters store memLayout quantity endAddress
        (advance address (dataType register).registerCount)
        (taken + (registerWords name dataType store memLayout register).length)).map
          (registerWords name dataType store memLayout register ++ ·)
termination_by quantity - taken
decreasing_by
  have := (dataType register).registerCount_pos
  simp only [length_registerWords, width] at *
  omega

/-- The read half of Read/Write Multiple Registers finds its registers first. -/
def resolveReads (quantity : ℕ) (endAddress address : UInt16) (wordCount : ℕ) : Option (List ρ) :=
  if address = endAddress then some []
  else
    match find address with
    | none => none
    | some register =>
      if wordCount + (dataType register).registerCount > quantity then none
      else (resolveReads quantity endAddress (advance address (dataType register).registerCount)
        (wordCount + (dataType register).registerCount)).map (register :: ·)
termination_by quantity - wordCount
decreasing_by
  have := (dataType register).registerCount_pos
  omega

variable {find name dataType}

theorem width_pos (register : ρ) : 0 < width dataType register := (dataType register).registerCount_pos

/-- The registers of a range are found exactly when they tile it. -/
theorem resolveReads_eq_some {quantity wordCount : ℕ} {address : UInt16} (hq : quantity < 65536)
    (hle : wordCount ≤ quantity) {rs : List ρ} :
    resolveReads find dataType quantity (advance address (quantity - wordCount)) address wordCount = some rs ↔
      Tiles find (width dataType) advance address (quantity - wordCount) rs := by
  induction hn : quantity - wordCount using Nat.strong_induction_on generalizing wordCount address rs with
  | h n ih =>
    rw [resolveReads]
    rcases Nat.eq_zero_or_pos n with rfl | hpos
    · simp only [advance_zero, if_true, Option.some.injEq]
      rw [tiles_zero fun _ register _ => width_pos register]
      exact eq_comm
    rw [if_neg ((eq_advance_iff (by omega)).not.mpr (by omega))]
    cases hfind : find address with
    | none => cases rs <;> simp [hfind]; omega
    | some register =>
      have hwidth := @width_pos _ dataType register
      simp only [width] at hwidth
      by_cases hover : wordCount + (dataType register).registerCount > quantity
      · cases rs with
        | nil => simp [hover]; omega
        | cons r rs =>
          simp only [hover, if_true, reduceCtorEq, tiles_cons, hfind, Option.some.injEq, false_iff, width]
          rintro ⟨rfl, hfit, _⟩
          omega
      · have hend : advance address n =
            advance (advance address (dataType register).registerCount)
              (quantity - (wordCount + (dataType register).registerCount)) := by
          rw [← advance_add]
          congr 1
          omega
        rw [hend]
        simp only [hover, if_false, Option.map_eq_some_iff]
        cases rs with
        | nil => simp; omega
        | cons r rs =>
          simp only [List.cons.injEq, tiles_cons, hfind, Option.some.injEq, width]
          constructor
          · rintro ⟨rs', hrs', rfl, rfl⟩
            refine ⟨rfl, by omega, ?_⟩
            have htiles := (ih _ (by omega) (by omega) rfl).mp hrs'
            rwa [show quantity - (wordCount + (dataType register).registerCount) =
              n - (dataType register).registerCount by omega] at htiles
          · rintro ⟨rfl, hfit, hrest⟩
            refine ⟨rs, (ih _ (by omega) (by omega) rfl).mpr ?_, rfl, rfl⟩
            rwa [show quantity - (wordCount + (dataType register).registerCount) =
              n - (dataType register).registerCount by omega]

/-- The read loop reads the registers that the second loop finds. -/
theorem readRegisters_eq_map (store : Store String RegisterValue) (memLayout : MemLayout) (quantity : ℕ)
    (endAddress address : UInt16) (taken : ℕ) :
    readRegisters find name dataType store memLayout quantity endAddress address taken =
      (resolveReads find dataType quantity endAddress address taken).map
        (List.flatMap (registerWords name dataType store memLayout)) := by
  induction address, taken using resolveReads.induct find dataType quantity endAddress with
  | case1 => simp [readRegisters, resolveReads]
  | case2 address taken hne hfind => simp [readRegisters, resolveReads, hne, hfind]
  | case3 address taken hne register hfind hover =>
    simp [readRegisters, resolveReads, hne, hfind, width, hover]
  | case4 address taken hne register hfind hfit ih =>
    rw [readRegisters, resolveReads]
    simp only [hne, if_false, hfind, length_registerWords, width, hfit, ih, Option.map_map]
    rfl

/-- The registers that tile a range read as many words as it has. -/
theorem length_flatMap_registerWords {address : UInt16} {n : ℕ} {rs : List ρ}
    (h : Tiles find (width dataType) advance address n rs) (store : Store String RegisterValue)
    (memLayout : MemLayout) : (rs.flatMap (registerWords name dataType store memLayout)).length = n := by
  simp only [List.length_flatMap, length_registerWords]
  exact h.sum_eq

end Read

/-! ### Resolving writes -/

/-- The register that starts at an address. -/
def findRegister (registers : List RegisterDescription) (address : UInt16) : Option RegisterDescription :=
  registers.find? fun register => register.address == address

/-- The writable register that starts at an address. -/
def findReadWriteRegister (registers : List RegisterDescription) (address : UInt16) :
    Option RegisterDescription :=
  registers.find? fun register => register.address == address && register.access == .readWrite

/-- The loop that pairs the registers met from `address` to `endAddress` with the
values their words spell, of which `offset` came before; an error when there is no
writable register or too few words. -/
def resolveRegisterWritesFrom (registers : List RegisterDescription) (values : List UInt16) (memLayout : MemLayout)
    (endAddress address : UInt16) (offset : ℕ) : Outcome Unit (List (RegisterDescription × RegisterValue)) :=
  if address = endAddress then .ok []
  else
    match findReadWriteRegister registers address with
    | none => .err ()
    | some register =>
      if offset + register.dataType.registerCount > values.length then .err ()
      else do
        let words ← slice values offset (offset + register.dataType.registerCount)
        let value ← expect (registerValueFromWords register.dataType words memLayout)
        let resolved ← resolveRegisterWritesFrom registers values memLayout endAddress
          (advance address register.dataType.registerCount) (offset + register.dataType.registerCount)
        pure ((register, value) :: resolved)
termination_by values.length - offset
decreasing_by
  have := register.dataType.registerCount_pos
  omega

/-- Resolve a batch of register writes against the description. -/
def resolveRegisterWrites (registers : List RegisterDescription) (startingAddress : UInt16)
    (values : List UInt16) (memLayout : MemLayout) : Outcome Unit (List (RegisterDescription × RegisterValue)) :=
  resolveRegisterWritesFrom registers values memLayout (advance startingAddress values.length) startingAddress 0

/-- Cut a word list along a list of registers and decode each piece. -/
def decodeWrites (memLayout : MemLayout) :
    List RegisterDescription → List UInt16 → List (RegisterDescription × RegisterValue)
  | [], _ => []
  | register :: registers, words =>
    (register, (registerValueFromWords register.dataType (words.take register.dataType.registerCount)
      memLayout).getD (defaultRegisterValue register.dataType)) ::
        decodeWrites memLayout registers (words.drop register.dataType.registerCount)

/-- The write loop decodes along the writable registers that tile the range. -/
theorem resolveRegisterWritesFrom_eq (registers : List RegisterDescription) (values : List UInt16)
    (memLayout : MemLayout) (endAddress address : UInt16) (offset : ℕ) :
    resolveRegisterWritesFrom registers values memLayout endAddress address offset =
      match resolveReads (findReadWriteRegister registers) RegisterDescription.dataType values.length
        endAddress address offset with
      | none => .err ()
      | some rs => .ok (decodeWrites memLayout rs (values.drop offset)) := by
  induction address, offset using resolveReads.induct (findReadWriteRegister registers)
    RegisterDescription.dataType values.length endAddress with
  | case1 => simp [resolveRegisterWritesFrom, resolveReads, decodeWrites]
  | case2 address offset hne hfind => simp [resolveRegisterWritesFrom, resolveReads, hne, hfind]
  | case3 address offset hne register hfind hover =>
    simp [resolveRegisterWritesFrom, resolveReads, hne, hfind, hover]
  | case4 address offset hne register hfind hfit ih =>
    have hlen : ((values.drop offset).take register.dataType.registerCount).length =
        register.dataType.registerCount := by
      simp
      omega
    obtain ⟨value, hvalue⟩ := isSome_registerValueFromWords hlen memLayout
    rw [resolveRegisterWritesFrom, resolveReads]
    simp only [hne, if_false, hfind, hfit]
    rw [slice_of_le (by omega) (by omega), ok_bind, Nat.add_sub_cancel_left, hvalue, expect_some, ok_bind, ih]
    cases resolveReads (findReadWriteRegister registers) RegisterDescription.dataType values.length endAddress
      (advance address register.dataType.registerCount) (offset + register.dataType.registerCount) with
    | none => rfl
    | some rs => simp [decodeWrites, hvalue, List.drop_drop]

@[simp] theorem map_fst_decodeWrites (memLayout : MemLayout) (rs : List RegisterDescription) (words : List UInt16) :
    (decodeWrites memLayout rs words).map Prod.fst = rs := by
  induction rs generalizing words with
  | nil => rfl
  | cons register rs ih => rw [decodeWrites, List.map_cons, ih]

/-! ### Whole ranges -/

section Ranges

variable (registers : List RegisterDescription) (inputRegisters : List InputRegisterDescription)

/-- The registers `rs` tile the `n` words from an address on. -/
abbrev ReadTiles (address : UInt16) (n : ℕ) (rs : List RegisterDescription) : Prop :=
  Tiles (findRegister registers) (width RegisterDescription.dataType) advance address n rs

/-- The writable registers `rs` tile the `n` words from an address on. -/
abbrev WriteTiles (address : UInt16) (n : ℕ) (rs : List RegisterDescription) : Prop :=
  Tiles (findReadWriteRegister registers) (width RegisterDescription.dataType) advance address n rs

/-- The input register that starts at an address. -/
def findInputRegister (address : UInt16) : Option InputRegisterDescription :=
  inputRegisters.find? fun inputRegister => inputRegister.address == address

/-- The input registers `rs` tile the `n` words from an address on. -/
abbrev InputTiles (address : UInt16) (n : ℕ) (rs : List InputRegisterDescription) : Prop :=
  Tiles (findInputRegister inputRegisters) (width InputRegisterDescription.dataType) advance address n rs

variable {registers inputRegisters}

/-- A range is resolved from its start exactly along its tiling. -/
theorem resolveReads_eq_some_zero {ρ : Type} {find : UInt16 → Option ρ} {dataType : ρ → DataType}
    {quantity : ℕ} (hq : quantity < 65536) {address : UInt16} {rs : List ρ} :
    resolveReads find dataType quantity (advance address quantity) address 0 = some rs ↔
      Tiles find (width dataType) advance address quantity rs :=
  resolveReads_eq_some hq (Nat.zero_le quantity)

theorem resolveReads_eq_none {ρ : Type} {find : UInt16 → Option ρ} {dataType : ρ → DataType}
    {quantity : ℕ} (hq : quantity < 65536) {address : UInt16}
    (h : ¬∃ rs, Tiles find (width dataType) advance address quantity rs) :
    resolveReads find dataType quantity (advance address quantity) address 0 = none :=
  Option.eq_none_iff_forall_ne_some.mpr fun rs hrs => h ⟨rs, (resolveReads_eq_some_zero hq).mp hrs⟩

/-- Every register of a tiled write is a writable one that starts within the range. -/
theorem WriteTiles.mem {address : UInt16} {n : ℕ} {ws : List RegisterDescription}
    (h : WriteTiles registers address n ws) {register : RegisterDescription} (hmem : register ∈ ws) :
    register ∈ registers ∧ register.access = .readWrite ∧ ∃ i < n, register.address = advance address i := by
  obtain ⟨i, hi, hfind⟩ := h.found_within advance_zero advance_add (fun _ r _ => width_pos r) register hmem
  have hfound := List.find?_some hfind
  simp only [Bool.and_eq_true, beq_iff_eq] at hfound
  exact ⟨List.mem_of_find?_eq_some hfind, hfound.2, i, hi, hfound.1⟩

theorem resolveRegisterWrites_of_tiles {values : List UInt16} (hq : values.length < 65536) {address : UInt16}
    {rs : List RegisterDescription} (h : WriteTiles registers address values.length rs) (memLayout : MemLayout) :
    resolveRegisterWrites registers address values memLayout = .ok (decodeWrites memLayout rs values) := by
  rw [resolveRegisterWrites, resolveRegisterWritesFrom_eq, (resolveReads_eq_some_zero hq).mpr h, List.drop_zero]

theorem resolveRegisterWrites_of_not_tiles {values : List UInt16} (hq : values.length < 65536)
    {address : UInt16} (h : ¬∃ rs, WriteTiles registers address values.length rs) (memLayout : MemLayout) :
    resolveRegisterWrites registers address values memLayout = .err () := by
  rw [resolveRegisterWrites, resolveRegisterWritesFrom_eq, resolveReads_eq_none hq h]

end Ranges

end InfusedModbus.Server
