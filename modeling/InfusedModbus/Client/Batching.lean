import InfusedModbus.Foundation.BigEndian
import Mathlib.Data.List.Sort
import Mathlib.Order.Basic

/-! Grouping items into requests. The items are sorted by address; one that follows the
last batch at once, while there is room in it, extends that batch, and any other starts
a batch of its own. So the batches are the sorted items cut into contiguous runs, none
longer than the limit. -/

namespace InfusedModbus.Client

open Foundation

/-- Items at consecutive addresses and how many wire slots they take together. -/
structure Batch (τ : Type) where
  startingAddress : UInt16
  items : List τ
  quantity : UInt16
  deriving DecidableEq, Repr

section Batching

variable {τ : Type} (addressOf sizeOfItem : τ → UInt16) (maxBatchSize : UInt16)

/-- The item sits where the batch ends, and fits into it. -/
def ExtendsBatch (batch : Batch τ) (item : τ) : Prop :=
  addressOf item = batch.startingAddress + batch.quantity ∧ batch.quantity + sizeOfItem item ≤ maxBatchSize

instance (batch : Batch τ) (item : τ) : Decidable (ExtendsBatch addressOf sizeOfItem maxBatchSize batch item) :=
  inferInstanceAs (Decidable (_ ∧ _))

def singleBatch (item : τ) : Batch τ := ⟨addressOf item, [item], sizeOfItem item⟩

def extendedBatch (batch : Batch τ) (item : τ) : Batch τ :=
  { batch with items := batch.items ++ [item], quantity := batch.quantity + sizeOfItem item }

/-- A turn of the loop over the sorted items. -/
def addItem (batches : List (Batch τ)) (item : τ) : List (Batch τ) :=
  match batches.getLast? with
  | some batch =>
    if ExtendsBatch addressOf sizeOfItem maxBatchSize batch item then
      batches.dropLast ++ [extendedBatch sizeOfItem batch item]
    else batches ++ [singleBatch addressOf sizeOfItem item]
  | none => batches ++ [singleBatch addressOf sizeOfItem item]

def buildBatches (items : List τ) : List (Batch τ) :=
  (items.insertionSort fun a b => addressOf a ≤ addressOf b).foldl (addItem addressOf sizeOfItem maxBatchSize) []

/-! ### What the batches are -/

/-- Each item sits where the one before it ends. -/
def Contiguous : UInt16 → List τ → Prop
  | _, [] => True
  | address, item :: items => addressOf item = address ∧ Contiguous (address + sizeOfItem item) items

/-- The wire slots of the items. -/
def slots (items : List τ) : ℕ := (items.map fun item => (sizeOfItem item).toNat).sum

structure Batch.Sound (batch : Batch τ) : Prop where
  nonempty : batch.items ≠ []
  contiguous : Contiguous addressOf sizeOfItem batch.startingAddress batch.items
  quantity_eq : batch.quantity.toNat = slots sizeOfItem batch.items
  quantity_le : batch.quantity ≤ maxBatchSize

/-- An item fits a batch of its own, and the sum of its size and the limit is no overflow. -/
structure FitsBatch (item : τ) : Prop where
  le : sizeOfItem item ≤ maxBatchSize
  noOverflow : maxBatchSize.toNat + (sizeOfItem item).toNat < 65536

variable {addressOf sizeOfItem maxBatchSize}

theorem slots_append (items items' : List τ) :
    slots sizeOfItem (items ++ items') = slots sizeOfItem items + slots sizeOfItem items' := by
  simp [slots]

theorem Contiguous.append {address : UInt16} {items : List τ} {item : τ}
    (h : Contiguous addressOf sizeOfItem address items)
    (hitem : addressOf item = address + UInt16.ofNat (slots sizeOfItem items)) :
    Contiguous addressOf sizeOfItem address (items ++ [item]) := by
  induction items generalizing address with
  | nil => exact ⟨by simpa [slots] using hitem, trivial⟩
  | cons first items ih =>
    refine ⟨h.1, ih h.2 ?_⟩
    have hslots : slots sizeOfItem (first :: items) = (sizeOfItem first).toNat + slots sizeOfItem items := by
      simp [slots]
    rw [hitem, hslots, UInt16.ofNat_add, UInt16.ofNat_toNat, UInt16.add_assoc]

theorem sound_singleBatch {item : τ} (hfits : FitsBatch sizeOfItem maxBatchSize item) :
    (singleBatch addressOf sizeOfItem item).Sound addressOf sizeOfItem maxBatchSize :=
  ⟨List.cons_ne_nil _ _, ⟨rfl, trivial⟩, by simp [singleBatch, slots], hfits.le⟩

theorem Batch.Sound.extended {batch : Batch τ} {item : τ}
    (h : batch.Sound addressOf sizeOfItem maxBatchSize) (hfits : FitsBatch sizeOfItem maxBatchSize item)
    (hextends : ExtendsBatch addressOf sizeOfItem maxBatchSize batch item) :
    (extendedBatch sizeOfItem batch item).Sound addressOf sizeOfItem maxBatchSize := by
  refine ⟨by simp [extendedBatch], ?_, ?_, hextends.2⟩
  · apply h.contiguous.append
    rw [← h.quantity_eq, UInt16.ofNat_toNat]
    exact hextends.1
  · have hle := UInt16.le_iff_toNat_le.mp h.quantity_le
    have hroom := hfits.noOverflow
    simp only [extendedBatch, slots_append, ← h.quantity_eq, UInt16.toNat_add]
    rw [Nat.mod_eq_of_lt (by omega)]
    simp [slots]

/-- A turn of the loop keeps the batches sound. -/
theorem sound_addItem {batches : List (Batch τ)} {item : τ} (hfits : FitsBatch sizeOfItem maxBatchSize item)
    (h : ∀ batch ∈ batches, batch.Sound addressOf sizeOfItem maxBatchSize) :
    ∀ batch ∈ addItem addressOf sizeOfItem maxBatchSize batches item,
      batch.Sound addressOf sizeOfItem maxBatchSize := by
  have hnew : ∀ batch ∈ batches ++ [singleBatch addressOf sizeOfItem item],
      batch.Sound addressOf sizeOfItem maxBatchSize := by
    intro batch hbatch
    rcases List.mem_append.mp hbatch with hold | hlast
    · exact h batch hold
    · rw [List.mem_singleton.mp hlast]
      exact sound_singleBatch hfits
  unfold addItem
  split
  · next last hlast =>
    split
    · next hextends =>
      intro batch hbatch
      rcases List.mem_append.mp hbatch with hold | hnow
      · exact h batch (List.mem_of_mem_dropLast hold)
      · rw [List.mem_singleton.mp hnow]
        exact (h last (List.mem_of_getLast? hlast)).extended hfits hextends
    · exact hnew
  · exact hnew

theorem flatMap_items_addItem (batches : List (Batch τ)) (item : τ) :
    (addItem addressOf sizeOfItem maxBatchSize batches item).flatMap Batch.items =
      batches.flatMap Batch.items ++ [item] := by
  unfold addItem
  split
  · next last hlast =>
    split
    · have hbatches := List.dropLast_append_getLast? last hlast
      conv_rhs => rw [← hbatches]
      simp [extendedBatch]
    · simp [singleBatch]
  · simp [singleBatch]

/-- The batches hold the items in the order of their addresses. -/
theorem flatMap_items_buildBatches (items : List τ) :
    (buildBatches addressOf sizeOfItem maxBatchSize items).flatMap Batch.items =
      items.insertionSort fun a b => addressOf a ≤ addressOf b := by
  have hloop : ∀ (sorted : List τ) (batches : List (Batch τ)),
      (sorted.foldl (addItem addressOf sizeOfItem maxBatchSize) batches).flatMap Batch.items =
        batches.flatMap Batch.items ++ sorted := by
    intro sorted
    induction sorted with
    | nil => simp
    | cons item sorted ih =>
      intro batches
      rw [List.foldl_cons, ih, flatMap_items_addItem, List.append_assoc]
      rfl
  rw [buildBatches, hloop]
  rfl

/-- No item is lost, and none comes from elsewhere. -/
theorem exists_batch_iff {items : List τ} {item : τ} :
    (∃ batch ∈ buildBatches addressOf sizeOfItem maxBatchSize items, item ∈ batch.items) ↔ item ∈ items := by
  rw [← List.mem_flatMap, flatMap_items_buildBatches, List.mem_insertionSort]

/-- Every batch is a contiguous run within the limit. -/
theorem sound_of_mem_buildBatches {items : List τ} (hfits : ∀ item ∈ items, FitsBatch sizeOfItem maxBatchSize item) :
    ∀ batch ∈ buildBatches addressOf sizeOfItem maxBatchSize items,
      batch.Sound addressOf sizeOfItem maxBatchSize := by
  have hloop : ∀ (sorted : List τ) (batches : List (Batch τ)),
      (∀ item ∈ sorted, FitsBatch sizeOfItem maxBatchSize item) →
      (∀ batch ∈ batches, batch.Sound addressOf sizeOfItem maxBatchSize) →
      ∀ batch ∈ sorted.foldl (addItem addressOf sizeOfItem maxBatchSize) batches,
        batch.Sound addressOf sizeOfItem maxBatchSize := by
    intro sorted
    induction sorted with
    | nil => exact fun _ _ h => h
    | cons item sorted ih =>
      intro batches hsorted h
      apply ih
      · exact fun other hother => hsorted other (List.mem_cons_of_mem _ hother)
      · exact sound_addItem (hsorted item List.mem_cons_self) h
  apply hloop
  · exact fun item hitem => hfits item ((List.mem_insertionSort _).mp hitem)
  · exact fun _ h => (List.not_mem_nil h).elim

end Batching

end InfusedModbus.Client
