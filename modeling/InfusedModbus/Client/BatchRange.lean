import InfusedModbus.Client.Polling
import InfusedModbus.Server.FlatDescription

/-! A batch of a flat section is a range of the server's. The items of a batch follow one
another without a gap, and each is found at its own address, so the server's walk over
the range meets exactly these items, in their order. -/

namespace InfusedModbus.Client

open Foundation Foundation.Outcome Protocol Datafs Server

variable {τ : Type} {addressOf sizeOfItem : τ → UInt16} {maxBatchSize : UInt16} {find : UInt16 → Option τ} {size : τ → ℕ}

theorem tiles_of_contiguous {address : UInt16} {items : List τ}
    (hfind : ∀ item ∈ items, find (addressOf item) = some item)
    (hsize : ∀ item ∈ items, (sizeOfItem item).toNat = size item)
    (h : Contiguous addressOf sizeOfItem address items) :
    Tiles find size advance address (slots sizeOfItem items) items := by
  induction items generalizing address with
  | nil => rfl
  | cons item items ih =>
    obtain ⟨rfl, hrest⟩ := h
    have hslots : slots sizeOfItem (item :: items) = size item + slots sizeOfItem items := by
      rw [← hsize item List.mem_cons_self]
      simp [slots]
    have hnext : advance (addressOf item) (size item) = addressOf item + sizeOfItem item := by
      rw [advance, ← hsize item List.mem_cons_self, UInt16.ofNat_toNat]
    refine ⟨hfind item List.mem_cons_self, by omega, ?_⟩
    rw [hslots, Nat.add_sub_cancel_left, hnext]
    apply ih
    · exact fun other hother => hfind other (List.mem_cons_of_mem _ hother)
    · exact fun other hother => hsize other (List.mem_cons_of_mem _ hother)
    · exact hrest

theorem Batch.Sound.tiles {batch : Batch τ} (h : batch.Sound addressOf sizeOfItem maxBatchSize)
    (hfind : ∀ item ∈ batch.items, find (addressOf item) = some item)
    (hsize : ∀ item ∈ batch.items, (sizeOfItem item).toNat = size item) :
    Tiles find size advance batch.startingAddress batch.quantity.toNat batch.items := by
  rw [h.quantity_eq]
  exact tiles_of_contiguous hfind hsize h.contiguous

/-- The entries of a range of single cells are found at its addresses one by one. -/
theorem find_of_tiles_one {address : UInt16} {n : ℕ} {items : List τ} (h : Tiles find (fun _ => 1) advance address n items) :
    (List.range n).map (fun i => find (advance address i)) = items.map some := by
  induction items generalizing address n with
  | nil =>
    obtain rfl := tiles_nil.mp h
    rfl
  | cons item items ih =>
    obtain ⟨hitem, hpos, hrest⟩ := h
    obtain ⟨n, rfl⟩ := Nat.exists_eq_add_of_le' hpos
    rw [List.range_succ_eq_map, List.map_cons, List.map_map, List.map_cons, advance_zero, hitem, ← ih hrest,
      Nat.add_sub_cancel]
    congr 1
    apply List.map_congr_left
    intro i _
    rw [Function.comp, Nat.succ_eq_add_one, Nat.add_comm, advance_add]

theorem configured_of_tiles {address : UInt16} {n : ℕ} {items : List τ}
    (h : Tiles find (fun _ => 1) advance address n items) : Configured find address n := by
  intro i hi
  have hmem : find (advance address i) ∈ items.map some := by
    rw [← find_of_tiles_one h]
    exact List.mem_map_of_mem (List.mem_range.mpr hi)
  obtain ⟨item, -, hitem⟩ := List.mem_map.mp hmem
  rw [← hitem]
  rfl

/-- So their bits are the bits of the range. -/
theorem bits_of_tiles {address : UInt16} {n : ℕ} {items : List τ} (h : Tiles find (fun _ => 1) advance address n items)
    (name : τ → String) (store : Store String CoilValue) :
    ((List.range n).map fun i => bitAtAddress find name store (advance address i)) = items.map (storedBit name store) := by
  have hbits := congrArg (List.map (Option.any (storedBit name store))) (find_of_tiles_one h)
  rw [List.map_map, List.map_map] at hbits
  exact hbits

/-- What was stored for the items of all batches is found under their names. -/
theorem get_setAll_batches {ν : Type} {name : τ → String} {items : List τ} (hnames : (items.map name).Nodup)
    (value : τ → ν) (store : Store String ν) {item : τ} (hitem : item ∈ items) :
    (store.setAll ((buildBatches addressOf sizeOfItem maxBatchSize items).flatMap fun batch =>
      batch.items.map fun item => (name item, value item))).get (name item) = some (value item) := by
  have hentries : ((buildBatches addressOf sizeOfItem maxBatchSize items).flatMap fun batch =>
      batch.items.map fun item => (name item, value item)) =
        (items.insertionSort fun a b => addressOf a ≤ addressOf b).map fun item => (name item, value item) := by
    rw [← @flatMap_items_buildBatches τ addressOf sizeOfItem maxBatchSize, List.map_flatMap]
  have hperm := List.perm_insertionSort (fun a b => addressOf a ≤ addressOf b) items
  rw [hentries]
  apply Store.get_setAll_of_mem
  · rw [List.map_map]
    exact (hperm.map name).nodup_iff.mpr hnames
  · exact List.mem_map.mpr ⟨item, hperm.mem_iff.mpr hitem, rfl⟩

/-! ### Batches of writes -/

section Writes

variable {τ ρ α : Type} {addressOf sizeOfItem : ρ → UInt16} {maxBatchSize : UInt16}

/-- Items that carry a value with them are where they are without it. -/
theorem Contiguous.map {description : τ → ρ} {address : UInt16} {items : List τ}
    (h : Contiguous (fun item => addressOf (description item)) (fun item => sizeOfItem (description item)) address items) :
    Contiguous addressOf sizeOfItem address (items.map description) := by
  induction items generalizing address with
  | nil => trivial
  | cons item items ih => exact ⟨h.1, ih h.2⟩

theorem slots_map (description : τ → ρ) (items : List τ) :
    slots sizeOfItem (items.map description) = slots (fun item => sizeOfItem (description item)) items := by
  rw [slots, slots, List.map_map]
  rfl

/-- What tells all items apart tells those of a batch apart. -/
theorem nodup_of_mem_buildBatches {label : ρ → α} {items : List ρ} (h : (items.map label).Nodup) {batch : Batch ρ}
    (hbatch : batch ∈ buildBatches addressOf sizeOfItem maxBatchSize items) : (batch.items.map label).Nodup := by
  have hperm := List.perm_insertionSort (fun a b => addressOf a ≤ addressOf b) items
  have hsorted := (hperm.map label).nodup_iff.mpr h
  rw [← @flatMap_items_buildBatches ρ addressOf sizeOfItem maxBatchSize, List.map_flatMap] at hsorted
  exact (List.nodup_flatMap.mp hsorted).1 batch hbatch

end Writes

/-! ### Sizes -/

theorem toNat_wordsOf {ρ : Type} {dataType : ρ → DataType} (register : ρ) :
    (wordsOf dataType register).toNat = width dataType register := by
  have hcount := (dataType register).registerCount_le
  rw [wordsOf, UInt16.ofNat_toNat_mod, Nat.mod_eq_of_lt (by omega)]
  rfl

/-- Every register fits a batch of four words or more. -/
theorem fitsBatch_wordsOf {ρ : Type} {dataType : ρ → DataType} {maxBatchSize : UInt16} (hmin : 4 ≤ maxBatchSize.toNat)
    (hmax : maxBatchSize.toNat + 4 < 65536) (register : ρ) : FitsBatch (wordsOf dataType) maxBatchSize register := by
  have hcount : (wordsOf dataType register).toNat ≤ 4 := by
    rw [toNat_wordsOf]
    exact (dataType register).registerCount_le
  exact ⟨UInt16.le_iff_toNat_le.mpr (hcount.trans hmin), by omega⟩

theorem fitsBatch_bit {ρ : Type} {maxBatchSize : UInt16} (hmin : 1 ≤ maxBatchSize.toNat)
    (hmax : maxBatchSize.toNat + 1 < 65536) (entry : ρ) : FitsBatch (fun _ => 1) maxBatchSize entry :=
  ⟨UInt16.le_iff_toNat_le.mpr hmin, hmax⟩

end InfusedModbus.Client
