import InfusedModbus.Client.Batching
import InfusedModbus.Foundation.Outcome
import InfusedModbus.Foundation.Runs
import InfusedModbus.Protocol.DeviceDescriptionParse

/-! The batches are the fewest there can be. Items that do not overlap are cut into runs
of back-to-back items, each closed by a gap or by the limit, so no other partition into
gap-free batches within the limit has fewer. The sum that is compared with the limit fits
16 bits except where a single batch comes to hold the whole address space. -/

namespace InfusedModbus.Client

open Foundation Foundation.Outcome Protocol

section FewestBatches

variable {ε τ : Type} (addressOf sizeOfItem : τ → UInt16) (maxBatchSize : UInt16)

/-- A turn of the loop with overflow checks. The sum is formed only for an item that sits
where the batch ends. -/
def addItemChecked (batches : List (Batch τ)) (item : τ) : Outcome ε (List (Batch τ)) :=
  match batches.getLast? with
  | some batch =>
    if addressOf item = batch.startingAddress + batch.quantity then do
      let quantity ← expect (checkedAdd batch.quantity (sizeOfItem item))
      if quantity ≤ maxBatchSize then
        pure (batches.dropLast ++ [{ batch with items := batch.items ++ [item], quantity := quantity }])
      else pure (batches ++ [singleBatch addressOf sizeOfItem item])
    else pure (batches ++ [singleBatch addressOf sizeOfItem item])
  | none => pure (batches ++ [singleBatch addressOf sizeOfItem item])

def buildBatchesChecked (items : List τ) : Outcome ε (List (Batch τ)) :=
  (items.insertionSort fun a b => addressOf a ≤ addressOf b).foldlM
    (addItemChecked addressOf sizeOfItem maxBatchSize) []

/-- The address of an item, and how many addresses it takes. -/
def wireAddress (item : τ) : ℕ := (addressOf item).toNat

def wireSlots (item : τ) : ℕ := (sizeOfItem item).toNat

/-- The items sit side by side in the address space, and each fits a batch of its own. -/
structure Batchable (items : List τ) : Prop where
  wireSlots_pos : ∀ item ∈ items, 1 ≤ wireSlots sizeOfItem item
  wireSlots_le : ∀ item ∈ items, wireSlots sizeOfItem item ≤ 4
  disjoint : items.Pairwise fun a b =>
    Disjoint (extent (wireAddress addressOf) (wireSlots sizeOfItem) a) (extent (wireAddress addressOf) (wireSlots sizeOfItem) b)
  inRange : ∀ item ∈ items, wireAddress addressOf item + wireSlots sizeOfItem item ≤ 65536
  limit : 4 ≤ maxBatchSize.toNat

/-- A batch begins at the address of its first item, its items are back to back, and it
is as long as they are together. -/
structure Batch.Exact (batch : Batch τ) : Prop where
  startingAddress_eq : batch.items.head?.map addressOf = some batch.startingAddress
  backToBack : Run (wireAddress addressOf) (wireSlots sizeOfItem) batch.startingAddress.toNat batch.items
  quantity_eq : batch.quantity.toNat = cellCount (wireSlots sizeOfItem) batch.items
  quantity_le : batch.quantity ≤ maxBatchSize

/-- The batches are the items in the order of their addresses, and as few as possible. -/
structure FewestBatches (items : List τ) (batches : List (Batch τ)) : Prop where
  perm : (batches.flatMap Batch.items).Perm items
  sorted : (batches.flatMap Batch.items).Pairwise fun a b => addressOf a < addressOf b
  exact : ∀ batch ∈ batches, batch.Exact addressOf sizeOfItem maxBatchSize
  fewest : ∀ groups : List (List τ), groups.flatten.Perm items →
    (∀ group ∈ groups, Gapless (wireAddress addressOf) (wireSlots sizeOfItem) group ∧
      cellCount (wireSlots sizeOfItem) group ≤ maxBatchSize.toNat) → batches.length ≤ groups.length

/-- The items take every address there is, and all but the last fit one batch. -/
def FillsAddressSpace (items : List τ) : Prop :=
  cellCount (wireSlots sizeOfItem) items = 65536 ∧
    ∃ last ∈ items, wireAddress addressOf last + wireSlots sizeOfItem last = 65536 ∧
      65536 ≤ maxBatchSize.toNat + wireSlots sizeOfItem last

/-- The batches after some turns of the loop: those before the last one are closed. -/
structure CutSoFar (done : List τ) (batches : List (Batch τ)) : Prop where
  items_eq : batches.flatMap Batch.items = done
  exact : ∀ batch ∈ batches, batch.Exact addressOf sizeOfItem maxBatchSize
  closed : (batches.map Batch.items).IsChain
    (ClosedBy (wireAddress addressOf) (wireSlots sizeOfItem) maxBatchSize.toNat)

variable {addressOf sizeOfItem maxBatchSize}

theorem Batch.Exact.ne_nil {batch : Batch τ} (h : batch.Exact addressOf sizeOfItem maxBatchSize) :
    batch.items ≠ [] := by
  intro hnil
  have hhead := h.startingAddress_eq
  rw [hnil] at hhead
  cases hhead

theorem exact_singleBatch {item : τ} (hslots : wireSlots sizeOfItem item ≤ 4) (hlimit : 4 ≤ maxBatchSize.toNat) :
    (singleBatch addressOf sizeOfItem item).Exact addressOf sizeOfItem maxBatchSize :=
  ⟨rfl, ⟨rfl, trivial⟩, rfl, UInt16.le_iff_toNat_le.mpr (hslots.trans hlimit)⟩

/-- An item that sits where the batch ends, while the sum fits, leaves the batch exact. -/
theorem Batch.Exact.extended {batch : Batch τ} {item : τ} (h : batch.Exact addressOf sizeOfItem maxBatchSize)
    (hnext : wireAddress addressOf item = batch.startingAddress.toNat + batch.quantity.toNat)
    (hfits : batch.quantity.toNat + wireSlots sizeOfItem item < 65536)
    (hroom : batch.quantity + sizeOfItem item ≤ maxBatchSize) :
    (extendedBatch sizeOfItem batch item).Exact addressOf sizeOfItem maxBatchSize := by
  refine ⟨?_, ?_, ?_, hroom⟩
  · obtain ⟨first, rest, hitems⟩ := List.exists_cons_of_ne_nil h.ne_nil
    have hhead := h.startingAddress_eq
    rw [hitems] at hhead
    rw [extendedBatch, hitems]
    exact hhead
  · refine run_append.mpr ⟨h.backToBack, ?_, trivial⟩
    rw [hnext, h.quantity_eq]
    rfl
  · have hsum : (batch.quantity + sizeOfItem item).toNat = batch.quantity.toNat + wireSlots sizeOfItem item := by
      rw [UInt16.toNat_add]
      exact Nat.mod_eq_of_lt hfits
    rw [extendedBatch, hsum, h.quantity_eq, cellCount_append]
    rfl

theorem addItem_concat (batches : List (Batch τ)) (batch : Batch τ) (item : τ) :
    addItem addressOf sizeOfItem maxBatchSize (batches ++ [batch]) item =
      if ExtendsBatch addressOf sizeOfItem maxBatchSize batch item then
        batches ++ [extendedBatch sizeOfItem batch item]
      else batches ++ [batch] ++ [singleBatch addressOf sizeOfItem item] := by
  simp only [addItem, List.getLast?_concat, List.dropLast_concat]

/-- Where the sum fits, both turns do the same. -/
theorem addItemChecked_concat (batches : List (Batch τ)) {batch : Batch τ} {item : τ}
    (hfits : addressOf item = batch.startingAddress + batch.quantity →
      batch.quantity.toNat + wireSlots sizeOfItem item < 65536) :
    (addItemChecked addressOf sizeOfItem maxBatchSize (batches ++ [batch]) item : Outcome ε _) =
      .ok (addItem addressOf sizeOfItem maxBatchSize (batches ++ [batch]) item) := by
  rw [addItem_concat, addItemChecked, List.getLast?_concat]
  simp only [List.dropLast_concat]
  by_cases hnext : addressOf item = batch.startingAddress + batch.quantity
  · have hsum : checkedAdd batch.quantity (sizeOfItem item) = some (batch.quantity + sizeOfItem item) :=
      if_pos (hfits hnext)
    rw [if_pos hnext, hsum, expect_some, ok_bind]
    by_cases hroom : batch.quantity + sizeOfItem item ≤ maxBatchSize
    · rw [if_pos hroom, if_pos ⟨hnext, hroom⟩]
      rfl
    · rw [if_neg hroom, if_neg fun h => hroom h.2]
      rfl
  · rw [if_neg hnext, if_neg fun h => hnext h.1]
    rfl

theorem addItemChecked_nil (item : τ) :
    (addItemChecked addressOf sizeOfItem maxBatchSize [] item : Outcome ε _) =
      .ok (addItem addressOf sizeOfItem maxBatchSize [] item) := rfl

/-- The items of the last batch are the last ones done, so the next item is behind them. -/
theorem CutSoFar.before_next {done : List τ} {batches : List (Batch τ)} {batch : Batch τ} {item : τ}
    (h : CutSoFar addressOf sizeOfItem maxBatchSize done (batches ++ [batch]))
    (hbefore : (done ++ [item]).Pairwise (Before (wireAddress addressOf) (wireSlots sizeOfItem))) :
    batch.startingAddress.toNat + batch.quantity.toNat ≤ wireAddress addressOf item := by
  have hexact := h.exact batch (List.mem_append_right _ List.mem_cons_self)
  have hlast := List.getLast?_eq_some_getLast hexact.ne_nil
  have hmem : batch.items.getLast hexact.ne_nil ∈ done := by
    rw [← h.items_eq]
    exact List.mem_flatMap.mpr ⟨batch, List.mem_append_right _ List.mem_cons_self, List.getLast_mem _⟩
  have hend := hexact.backToBack.end_eq hlast
  have hlt : Before (wireAddress addressOf) (wireSlots sizeOfItem) (batch.items.getLast hexact.ne_nil) item :=
    (List.pairwise_append.mp hbefore).2.2 _ hmem _ List.mem_cons_self
  unfold Before at hlt
  rw [hexact.quantity_eq]
  omega

/-- Where the last batch ends is no address past the next item's, so the sum of its start
and its quantity did not wrap. -/
theorem CutSoFar.next_iff {done : List τ} {batches : List (Batch τ)} {batch : Batch τ} {item : τ}
    (h : CutSoFar addressOf sizeOfItem maxBatchSize done (batches ++ [batch]))
    (hbefore : (done ++ [item]).Pairwise (Before (wireAddress addressOf) (wireSlots sizeOfItem))) :
    addressOf item = batch.startingAddress + batch.quantity ↔
      wireAddress addressOf item = batch.startingAddress.toNat + batch.quantity.toNat := by
  have hle := h.before_next hbefore
  have hlt : wireAddress addressOf item < 65536 := (addressOf item).toNat_lt
  have hsum : (batch.startingAddress + batch.quantity).toNat = batch.startingAddress.toNat + batch.quantity.toNat := by
    rw [UInt16.toNat_add]
    exact Nat.mod_eq_of_lt (hle.trans_lt hlt)
  rw [← UInt16.toNat_inj, hsum]
  rfl

/-- The sum overflows only when the batch comes to hold the whole address space. -/
theorem CutSoFar.fits {done : List τ} {batches : List (Batch τ)} {batch : Batch τ} {item : τ}
    (h : CutSoFar addressOf sizeOfItem maxBatchSize done (batches ++ [batch]))
    (hbefore : (done ++ [item]).Pairwise (Before (wireAddress addressOf) (wireSlots sizeOfItem)))
    (hend : wireAddress addressOf item + wireSlots sizeOfItem item ≤ 65536)
    (hroom : 65536 ≤ cellCount (wireSlots sizeOfItem) (done ++ [item]) →
      wireAddress addressOf item + wireSlots sizeOfItem item = 65536 →
      maxBatchSize.toNat + wireSlots sizeOfItem item < 65536)
    (hnext : addressOf item = batch.startingAddress + batch.quantity) :
    batch.quantity.toNat + wireSlots sizeOfItem item < 65536 := by
  have hexact := h.exact batch (List.mem_append_right _ List.mem_cons_self)
  rw [h.next_iff hbefore] at hnext
  by_contra hover
  have hcount : batch.quantity.toNat ≤ cellCount (wireSlots sizeOfItem) done := by
    rw [← h.items_eq, List.flatMap_append, cellCount_append, hexact.quantity_eq]
    simp
  have hle := UInt16.le_iff_toNat_le.mp hexact.quantity_le
  rw [cellCount_append, cellCount_cons, cellCount_nil] at hroom
  have := hroom (by omega) (by omega)
  omega

/-- An item that does not extend the last batch closes it. -/
theorem CutSoFar.closedBy {done : List τ} {batches : List (Batch τ)} {batch : Batch τ} {item : τ}
    (h : CutSoFar addressOf sizeOfItem maxBatchSize done (batches ++ [batch]))
    (hbefore : (done ++ [item]).Pairwise (Before (wireAddress addressOf) (wireSlots sizeOfItem)))
    (hfits : addressOf item = batch.startingAddress + batch.quantity →
      batch.quantity.toNat + wireSlots sizeOfItem item < 65536)
    (hextends : ¬ExtendsBatch addressOf sizeOfItem maxBatchSize batch item) :
    ClosedBy (wireAddress addressOf) (wireSlots sizeOfItem) maxBatchSize.toNat batch.items [item] := by
  have hexact := h.exact batch (List.mem_append_right _ List.mem_cons_self)
  have hlast := List.getLast?_eq_some_getLast hexact.ne_nil
  have hend := hexact.backToBack.end_eq hlast
  have hquantity := hexact.quantity_eq
  refine ⟨item, _, rfl, hlast, ?_⟩
  by_cases hnext : addressOf item = batch.startingAddress + batch.quantity
  · right
    have hsum : (batch.quantity + sizeOfItem item).toNat = batch.quantity.toNat + wireSlots sizeOfItem item := by
      rw [UInt16.toNat_add]
      exact Nat.mod_eq_of_lt (hfits hnext)
    have hover : ¬batch.quantity + sizeOfItem item ≤ maxBatchSize := fun hle => hextends ⟨hnext, hle⟩
    rw [UInt16.le_iff_toNat_le, hsum] at hover
    omega
  · left
    have hle := h.before_next hbefore
    rw [h.next_iff hbefore] at hnext
    omega

/-- What a turn adds to the batches: one more item, the closed batches as they were. -/
theorem CutSoFar.step {done : List τ} {batches : List (Batch τ)} {item : τ}
    (h : CutSoFar addressOf sizeOfItem maxBatchSize done batches)
    (hbefore : (done ++ [item]).Pairwise (Before (wireAddress addressOf) (wireSlots sizeOfItem)))
    (hslots : wireSlots sizeOfItem item ≤ 4) (hlimit : 4 ≤ maxBatchSize.toNat)
    (hend : wireAddress addressOf item + wireSlots sizeOfItem item ≤ 65536)
    (hroom : 65536 ≤ cellCount (wireSlots sizeOfItem) (done ++ [item]) →
      wireAddress addressOf item + wireSlots sizeOfItem item = 65536 →
      maxBatchSize.toNat + wireSlots sizeOfItem item < 65536) :
    (addItemChecked addressOf sizeOfItem maxBatchSize batches item : Outcome ε _) =
        .ok (addItem addressOf sizeOfItem maxBatchSize batches item) ∧
      CutSoFar addressOf sizeOfItem maxBatchSize (done ++ [item])
        (addItem addressOf sizeOfItem maxBatchSize batches item) := by
  have hitems : (addItem addressOf sizeOfItem maxBatchSize batches item).flatMap Batch.items = done ++ [item] := by
    rw [flatMap_items_addItem, h.items_eq]
  have hsingle : (singleBatch addressOf sizeOfItem item).Exact addressOf sizeOfItem maxBatchSize :=
    exact_singleBatch hslots hlimit
  rcases List.eq_nil_or_concat batches with rfl | ⟨closed, batch, rfl⟩
  · refine ⟨addItemChecked_nil item, hitems, ?_, List.isChain_singleton _⟩
    intro other hother
    rw [List.mem_singleton.mp hother]
    exact hsingle
  rw [List.concat_eq_append] at h hitems ⊢
  have hexact := h.exact batch (List.mem_append_right _ List.mem_cons_self)
  have hfits := h.fits hbefore hend hroom
  refine ⟨addItemChecked_concat closed hfits, hitems, ?_, ?_⟩
  · intro other hother
    rw [addItem_concat] at hother
    split at hother
    · next hextends =>
      rcases List.mem_append.mp hother with hold | hnow
      · exact h.exact other (List.mem_append_left _ hold)
      · rw [List.mem_singleton.mp hnow]
        exact hexact.extended ((h.next_iff hbefore).mp hextends.1) (hfits hextends.1) hextends.2
    · rcases List.mem_append.mp hother with hold | hnow
      · exact h.exact other hold
      · rw [List.mem_singleton.mp hnow]
        exact hsingle
  · have hclosed := h.closed
    rw [List.map_append, List.map_singleton] at hclosed
    rw [addItem_concat]
    split
    · rw [List.map_append, List.map_singleton]
      exact isChain_extended hclosed [item]
    · next hextends =>
      rw [List.map_append, List.map_append, List.map_singleton, List.map_singleton]
      exact isChain_concat hclosed (h.closedBy hbefore hfits hextends)

theorem cutSoFar_nil : CutSoFar addressOf sizeOfItem maxBatchSize [] [] := by
  refine ⟨rfl, ?_, List.isChain_nil⟩
  intro batch hbatch
  exact (List.not_mem_nil hbatch).elim

/-- The loop with overflow checks goes through, and the batches are a cut of the items. -/
theorem CutSoFar.loop {done rest : List τ} {batches : List (Batch τ)}
    (h : CutSoFar addressOf sizeOfItem maxBatchSize done batches)
    (hbefore : (done ++ rest).Pairwise (Before (wireAddress addressOf) (wireSlots sizeOfItem)))
    (hslots : ∀ item ∈ rest, wireSlots sizeOfItem item ≤ 4) (hlimit : 4 ≤ maxBatchSize.toNat)
    (hend : ∀ item ∈ rest, wireAddress addressOf item + wireSlots sizeOfItem item ≤ 65536)
    (hroom : 65536 ≤ cellCount (wireSlots sizeOfItem) (done ++ rest) →
      ∀ item ∈ rest, wireAddress addressOf item + wireSlots sizeOfItem item = 65536 →
        maxBatchSize.toNat + wireSlots sizeOfItem item < 65536) :
    (rest.foldlM (addItemChecked addressOf sizeOfItem maxBatchSize) batches : Outcome ε _) =
        .ok (rest.foldl (addItem addressOf sizeOfItem maxBatchSize) batches) ∧
      CutSoFar addressOf sizeOfItem maxBatchSize (done ++ rest)
        (rest.foldl (addItem addressOf sizeOfItem maxBatchSize) batches) := by
  induction rest generalizing done batches with
  | nil =>
    rw [List.append_nil]
    exact ⟨rfl, h⟩
  | cons item rest ih =>
    have hsplit : done ++ item :: rest = done ++ [item] ++ rest := by simp
    rw [hsplit] at hbefore hroom ⊢
    have hmem : item ∈ item :: rest := List.mem_cons_self
    have hgrow : cellCount (wireSlots sizeOfItem) (done ++ [item]) ≤
        cellCount (wireSlots sizeOfItem) (done ++ [item] ++ rest) := by
      rw [cellCount_append _ rest]
      exact Nat.le_add_right _ _
    obtain ⟨hturn, hstep⟩ := h.step (ε := ε) (List.pairwise_append.mp hbefore).1 (hslots item hmem) hlimit
      (hend item hmem) fun hcount => hroom (hcount.trans hgrow) item hmem
    obtain ⟨hrest, hcut⟩ := ih hstep hbefore (fun other hother => hslots other (List.mem_cons_of_mem _ hother))
      (fun other hother => hend other (List.mem_cons_of_mem _ hother))
      fun hcount other hother => hroom hcount other (List.mem_cons_of_mem _ hother)
    rw [List.foldlM_cons, hturn, ok_bind]
    exact ⟨hrest, hcut⟩

/-! ### The sorted items -/

/-- Sorted by address, items that do not overlap come one behind the other. -/
theorem Batchable.before {items : List τ} (h : Batchable addressOf sizeOfItem maxBatchSize items) :
    (items.insertionSort fun a b => addressOf a ≤ addressOf b).Pairwise
      (Before (wireAddress addressOf) (wireSlots sizeOfItem)) := by
  have : Std.Total fun a b : τ => addressOf a ≤ addressOf b := ⟨fun _ _ => UInt16.le_total _ _⟩
  have : IsTrans τ fun a b => addressOf a ≤ addressOf b := ⟨fun _ _ _ => UInt16.le_trans⟩
  have hperm := List.perm_insertionSort (fun a b => addressOf a ≤ addressOf b) items
  have hsorted := List.pairwise_insertionSort (fun a b => addressOf a ≤ addressOf b) items
  have hdisjoint := hperm.symm.pairwise h.disjoint fun hab => hab.symm
  refine (hsorted.and hdisjoint).imp_of_mem ?_
  rintro a b - hb ⟨hle, hapart⟩
  have hpos := h.wireSlots_pos b (hperm.mem_iff.mp hb)
  by_contra hover
  unfold Before at hover
  have hle' : wireAddress addressOf a ≤ wireAddress addressOf b := UInt16.le_iff_toNat_le.mp hle
  have hin : wireAddress addressOf b ∈ extent (wireAddress addressOf) (wireSlots sizeOfItem) a := ⟨hle', by omega⟩
  exact Set.disjoint_left.mp hapart hin ⟨le_rfl, by omega⟩

theorem Batchable.run {items : List τ} (h : Batchable addressOf sizeOfItem maxBatchSize items)
    (hroom : ¬FillsAddressSpace addressOf sizeOfItem maxBatchSize items) :
    (buildBatchesChecked addressOf sizeOfItem maxBatchSize items : Outcome ε _) =
        .ok (buildBatches addressOf sizeOfItem maxBatchSize items) ∧
      CutSoFar addressOf sizeOfItem maxBatchSize (items.insertionSort fun a b => addressOf a ≤ addressOf b)
        (buildBatches addressOf sizeOfItem maxBatchSize items) := by
  have hperm := List.perm_insertionSort (fun a b => addressOf a ≤ addressOf b) items
  have hend : ∀ item ∈ items.insertionSort fun a b => addressOf a ≤ addressOf b,
      wireAddress addressOf item + wireSlots sizeOfItem item ≤ 65536 :=
    fun item hitem => h.inRange item (hperm.mem_iff.mp hitem)
  apply cutSoFar_nil.loop h.before
  · exact fun item hitem => h.wireSlots_le item (hperm.mem_iff.mp hitem)
  · exact h.limit
  · exact hend
  · intro hcount item hitem hlast
    have hle := cellCount_le h.before (fun _ _ => Nat.zero_le _) hend (Nat.zero_le 65536)
    rw [List.nil_append] at hcount
    have hfull : cellCount (wireSlots sizeOfItem) items = 65536 := by
      rw [← cellCount_perm hperm]
      exact le_antisymm (by rwa [Nat.zero_add] at hle) hcount
    by_contra hover
    exact hroom ⟨hfull, item, hperm.mem_iff.mp hitem, hlast, by omega⟩

/-- A cut of the items is a shortest one. -/
theorem Batchable.fewestBatches {items : List τ} {batches : List (Batch τ)}
    (h : Batchable addressOf sizeOfItem maxBatchSize items)
    (hcut : CutSoFar addressOf sizeOfItem maxBatchSize (items.insertionSort fun a b => addressOf a ≤ addressOf b)
      batches) : FewestBatches addressOf sizeOfItem maxBatchSize items batches := by
  have hperm := List.perm_insertionSort (fun a b => addressOf a ≤ addressOf b) items
  have hflatten : (batches.map Batch.items).flatten = items.insertionSort fun a b => addressOf a ≤ addressOf b := by
    rw [← List.flatMap_def, hcut.items_eq]
  refine ⟨?_, ?_, hcut.exact, ?_⟩
  · rw [hcut.items_eq]
    exact hperm
  · rw [hcut.items_eq]
    refine h.before.imp_of_mem ?_
    intro a b ha _ hab
    have hpos := h.wireSlots_pos a (hperm.mem_iff.mp ha)
    unfold Before wireAddress at hab
    exact UInt16.lt_iff_toNat_lt.mpr (by omega)
  · intro groups hgroups hgapless
    rw [← List.length_map Batch.items]
    refine length_le_of_closedBy ?_ (hflatten ▸ h.before) hcut.closed ?_ hgapless
    · intro run hrun
      obtain ⟨batch, hbatch, rfl⟩ := List.mem_map.mp hrun
      exact ⟨(hcut.exact batch hbatch).ne_nil, _, (hcut.exact batch hbatch).backToBack⟩
    · rw [hflatten]
      exact hgroups.trans hperm.symm

/-! ### The whole address space -/

/-- Items without a gap that fit one batch are in one batch. -/
theorem CutSoFar.eq_singleton {done : List τ} {batches : List (Batch τ)} {a : ℕ}
    (h : CutSoFar addressOf sizeOfItem maxBatchSize done batches) (hne : done ≠ [])
    (hrun : Run (wireAddress addressOf) (wireSlots sizeOfItem) a done)
    (hroom : cellCount (wireSlots sizeOfItem) done ≤ maxBatchSize.toNat) :
    ∃ batch, batches = [batch] ∧ batch.items = done := by
  have hitems := h.items_eq
  cases batches with
  | nil => exact absurd hitems.symm hne
  | cons batch batches =>
    cases batches with
    | nil => exact ⟨batch, rfl, by simpa using hitems⟩
    | cons next batches =>
      -- the second batch follows without a gap and within the limit, so nothing closed the first
      obtain ⟨first, last, hfirst, hlast, hclosed⟩ := (List.isChain_cons_cons.mp h.closed).1
      obtain ⟨rest, hnext⟩ := List.head?_eq_some_iff.mp hfirst
      rw [List.flatMap_cons, List.flatMap_cons, hnext] at hitems
      rw [← hitems] at hrun hroom
      obtain ⟨hbatch, hstart, -⟩ := run_append.mp hrun
      rw [cellCount_append, List.cons_append, cellCount_cons] at hroom
      have hend := hbatch.end_eq hlast
      omega

/-- A batch that holds all addresses but the last item's overflows with it. -/
theorem addItemChecked_eq_panic {batch : Batch τ} {last : τ}
    (hnext : wireAddress addressOf last = batch.startingAddress.toNat + batch.quantity.toNat)
    (hover : 65536 ≤ batch.quantity.toNat + wireSlots sizeOfItem last) :
    (addItemChecked addressOf sizeOfItem maxBatchSize [batch] last : Outcome ε _) = .panic := by
  have hlt : wireAddress addressOf last < 65536 := (addressOf last).toNat_lt
  have haddress : addressOf last = batch.startingAddress + batch.quantity := by
    rw [← UInt16.toNat_inj, UInt16.toNat_add]
    exact hnext.trans (Nat.mod_eq_of_lt (hnext ▸ hlt)).symm
  have hsum : checkedAdd batch.quantity (sizeOfItem last) = none := if_neg (not_lt.mpr hover)
  simp only [addItemChecked, List.getLast?_singleton]
  rw [if_pos haddress, hsum]
  rfl

/-- The turn of the last item is the one that overflows. -/
theorem foldlM_eq_panic {done : List τ} {last : τ}
    (hbefore : (done ++ [last]).Pairwise (Before (wireAddress addressOf) (wireSlots sizeOfItem)))
    (hslots : ∀ item ∈ done ++ [last], wireSlots sizeOfItem item ≤ 4) (hlimit : 4 ≤ maxBatchSize.toNat)
    (hend : ∀ item ∈ done ++ [last], wireAddress addressOf item + wireSlots sizeOfItem item ≤ 65536)
    (hfull : cellCount (wireSlots sizeOfItem) (done ++ [last]) = 65536)
    (hroom : 65536 ≤ maxBatchSize.toNat + wireSlots sizeOfItem last) (hpos : 1 ≤ wireSlots sizeOfItem last) :
    ((done ++ [last]).foldlM (addItemChecked addressOf sizeOfItem maxBatchSize) [] : Outcome ε _) = .panic := by
  have hlast := hslots last (List.mem_append_right _ List.mem_cons_self)
  have hrun := run_of_cellCount_eq hbefore (fun _ _ => Nat.zero_le _) hend (by rw [hfull])
  obtain ⟨hdone, hstart, -⟩ := run_append.mp hrun
  rw [cellCount_append, cellCount_cons, cellCount_nil] at hfull
  have hne : done ≠ [] := by
    rintro rfl
    rw [cellCount_nil] at hfull
    omega
  obtain ⟨hloop, hcut⟩ := cutSoFar_nil.loop (ε := ε) (List.pairwise_append.mp hbefore).1
    (fun item hitem => hslots item (List.mem_append_left _ hitem)) hlimit
    (fun item hitem => hend item (List.mem_append_left _ hitem))
    fun hcount => by rw [List.nil_append] at hcount; omega
  obtain ⟨batch, hbatch, hitems⟩ := hcut.eq_singleton hne hdone (by rw [List.nil_append]; omega)
  rw [List.nil_append] at hitems
  rw [hbatch] at hloop hcut
  have hexact := hcut.exact batch List.mem_cons_self
  obtain ⟨first, rest, rfl⟩ := List.exists_cons_of_ne_nil hne
  have hzero : batch.startingAddress.toNat = 0 := by
    have hhead := hexact.backToBack.start_eq (congrArg List.head? hitems)
    rw [← hhead, hdone.1]
  have hquantity := hexact.quantity_eq
  rw [hitems] at hquantity
  have hpanic : (addItemChecked addressOf sizeOfItem maxBatchSize [batch] last : Outcome ε _) = .panic :=
    addItemChecked_eq_panic (by rw [hstart, hzero, hquantity]) (by omega)
  rw [Outcome.foldlM_append, hloop, ok_bind, List.foldlM_cons, hpanic]
  rfl

/-- The sum that the last item would bring the batch to is 65536. -/
theorem Batchable.buildBatchesChecked_eq_panic {items : List τ}
    (h : Batchable addressOf sizeOfItem maxBatchSize items)
    (hfills : FillsAddressSpace addressOf sizeOfItem maxBatchSize items) :
    (buildBatchesChecked addressOf sizeOfItem maxBatchSize items : Outcome ε _) = .panic := by
  obtain ⟨hfull, last, hlast, hlastend, hroom⟩ := hfills
  have hperm := List.perm_insertionSort (fun a b => addressOf a ≤ addressOf b) items
  have hsplit : ∃ done, (items.insertionSort fun a b => addressOf a ≤ addressOf b) = done ++ [last] := by
    rcases List.eq_nil_or_concat (items.insertionSort fun a b => addressOf a ≤ addressOf b) with hnil | ⟨done, final, heq⟩
    · rw [← hperm.mem_iff, hnil] at hlast
      exact (List.not_mem_nil hlast).elim
    · -- no item is behind the one that ends at the last address
      rw [List.concat_eq_append] at heq
      have hbefore := h.before
      rw [← hperm.mem_iff, heq] at hlast
      rw [heq] at hbefore
      rcases List.mem_append.mp hlast with hmem | hmem
      · have hlt : Before (wireAddress addressOf) (wireSlots sizeOfItem) last final :=
          (List.pairwise_append.mp hbefore).2.2 last hmem final List.mem_cons_self
        have hfinal : wireAddress addressOf final < 65536 := (addressOf final).toNat_lt
        unfold Before at hlt
        omega
      · rw [List.mem_singleton.mp hmem]
        exact ⟨done, heq⟩
  obtain ⟨done, hsorted⟩ := hsplit
  have hbefore := h.before
  have hcount := @cellCount_perm _ (wireSlots sizeOfItem) _ _ hperm
  unfold buildBatchesChecked
  rw [hsorted] at hperm hbefore hcount ⊢
  apply foldlM_eq_panic hbefore
  · exact fun item hitem => h.wireSlots_le item (hperm.mem_iff.mp hitem)
  · exact h.limit
  · exact fun item hitem => h.inRange item (hperm.mem_iff.mp hitem)
  · exact hcount.trans hfull
  · exact hroom
  · exact h.wireSlots_pos last hlast

/-- With items that do not overlap, the batches are the fewest there can be and no sum
overflows, unless the items take every address there is and all but the last fit one
batch. -/
theorem build_batches_fewest_iff {items : List τ} (h : Batchable addressOf sizeOfItem maxBatchSize items) :
    ((buildBatchesChecked addressOf sizeOfItem maxBatchSize items : Outcome Empty _) =
        .ok (buildBatches addressOf sizeOfItem maxBatchSize items) ∧
      FewestBatches addressOf sizeOfItem maxBatchSize items
        (buildBatches addressOf sizeOfItem maxBatchSize items)) ↔
      ¬FillsAddressSpace addressOf sizeOfItem maxBatchSize items := by
  constructor
  · rintro ⟨hok, -⟩ hfills
    rw [h.buildBatchesChecked_eq_panic hfills] at hok
    cases hok
  · intro hroom
    obtain ⟨hok, hcut⟩ := h.run hroom
    exact ⟨hok, h.fewestBatches hcut⟩

end FewestBatches

/-- A gap, a wide item and an input out of order. -/
theorem build_batches_fewest_iff_gap :
    FewestBatches Prod.fst Prod.snd 125 [((20, 1) : UInt16 × UInt16), (12, 1), (10, 2)]
      [⟨10, [(10, 2), (12, 1)], 3⟩, ⟨20, [(20, 1)], 1⟩] := by
  have hbatchable : Batchable Prod.fst Prod.snd 125 [((20, 1) : UInt16 × UInt16), (12, 1), (10, 2)] := by
    have happart : [((20, 1) : UInt16 × UInt16), (12, 1), (10, 2)].Pairwise fun a b =>
        wireAddress Prod.fst b + wireSlots Prod.snd b ≤ wireAddress Prod.fst a := by decide
    exact ⟨by simp [wireSlots], by simp [wireSlots], happart.imp fun hbehind => disjoint_extent (Or.inr hbehind),
      by simp [wireAddress, wireSlots], by decide⟩
  have hroom : ¬FillsAddressSpace Prod.fst Prod.snd 125 [((20, 1) : UInt16 × UInt16), (12, 1), (10, 2)] := by
    rintro ⟨hcount, -⟩
    exact absurd hcount (by decide)
  exact ((build_batches_fewest_iff hbatchable).mpr hroom).2

/-- One batch of all 65536 addresses. -/
theorem build_batches_overflow :
    Batchable UInt16.ofNat (fun _ => 1) 65535 (List.range 65536) ∧
      ¬((buildBatchesChecked UInt16.ofNat (fun _ => 1) 65535 (List.range 65536) : Outcome Empty _) =
          .ok (buildBatches UInt16.ofNat (fun _ => 1) 65535 (List.range 65536)) ∧
        FewestBatches UInt16.ofNat (fun _ => 1) 65535 (List.range 65536)
          (buildBatches UInt16.ofNat (fun _ => 1) 65535 (List.range 65536))) := by
  have haddress : ∀ n < 65536, wireAddress UInt16.ofNat n = n := fun n hn => UInt16.toNat_ofNat_of_lt' hn
  have hslots : ∀ n : ℕ, wireSlots (fun _ => 1) n = 1 := fun _ => rfl
  have hbatchable : Batchable UInt16.ofNat (fun _ => 1) 65535 (List.range 65536) := by
    refine ⟨fun n _ => (hslots n).ge, fun n _ => ?_, ?_, fun n hn => ?_, by decide⟩
    · rw [hslots]
      omega
    · refine List.pairwise_lt_range.imp_of_mem ?_
      intro a b ha hb hlt
      rw [List.mem_range] at ha hb
      refine disjoint_extent (Or.inl ?_)
      rw [Before, haddress a ha, haddress b hb, hslots]
      omega
    · rw [List.mem_range] at hn
      rw [haddress n hn, hslots]
      omega
  have hfills : FillsAddressSpace UInt16.ofNat (fun _ => 1) 65535 (List.range 65536) := by
    refine ⟨?_, 65535, List.mem_range.mpr (by omega), ?_, by decide⟩
    · have hcount : ∀ items : List ℕ, cellCount (wireSlots fun _ => 1) items = items.length := by
        intro items
        induction items with
        | nil => rfl
        | cons n items ih => rw [cellCount_cons, hslots, ih, List.length_cons, Nat.add_comm]
      rw [hcount, List.length_range]
    · rw [haddress 65535 (by omega), hslots]
  refine ⟨hbatchable, ?_⟩
  rintro ⟨hok, -⟩
  rw [hbatchable.buildBatchesChecked_eq_panic hfills] at hok
  cases hok

end InfusedModbus.Client
