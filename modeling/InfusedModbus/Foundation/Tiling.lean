import Mathlib.Data.List.Pairwise
import Mathlib.Data.Set.Lattice
import Mathlib.Order.CompletePartialOrder
import Mathlib.Order.Interval.Set.Basic
import Mathlib.Tactic.Linarith

/-! Walking a range block by block. A range is tiled when a block starts at its
first cell, the next block starts where that one ends, and so on until the range
is used up exactly. The tiling of a range is unique. For disjoint nonempty blocks
on the natural numbers a range is tiled exactly when it is a union of blocks. -/

namespace InfusedModbus.Foundation

variable {α ρ β : Type}

section Walk

variable (find : α → Option ρ) (size : ρ → ℕ) (advance : α → ℕ → α)

/-- The blocks found from `a` on, each at the end of the one before, cover `n` cells. -/
def Tiles : α → ℕ → List ρ → Prop
  | _, n, [] => n = 0
  | a, n, r :: rs => find a = some r ∧ size r ≤ n ∧ Tiles (advance a (size r)) (n - size r) rs

variable {find size advance}

@[simp] theorem tiles_nil {a : α} {n : ℕ} : Tiles find size advance a n [] ↔ n = 0 := Iff.rfl

@[simp] theorem tiles_cons {a : α} {n : ℕ} {r : ρ} {rs : List ρ} :
    Tiles find size advance a n (r :: rs) ↔
      find a = some r ∧ size r ≤ n ∧ Tiles find size advance (advance a (size r)) (n - size r) rs := Iff.rfl

theorem Tiles.sum_eq {a : α} {n : ℕ} {rs : List ρ} (h : Tiles find size advance a n rs) :
    (rs.map size).sum = n := by
  induction rs generalizing a n with
  | nil => exact (tiles_nil.mp h).symm
  | cons r rs ih =>
    obtain ⟨_, hle, hrest⟩ := h
    simp only [List.map_cons, List.sum_cons, ih hrest]
    omega

/-- A search that finds less tiles no more. -/
theorem Tiles.imp {find' : α → Option ρ} (himp : ∀ b r, find b = some r → find' b = some r) {a : α} {n : ℕ}
    {rs : List ρ} (h : Tiles find size advance a n rs) : Tiles find' size advance a n rs := by
  induction rs generalizing a n with
  | nil => exact h
  | cons r rs ih =>
    obtain ⟨hfind, hle, hrest⟩ := h
    exact ⟨himp a r hfind, hle, ih hrest⟩

/-- Every block of a tiling was found at one of the cells of the range. -/
theorem Tiles.found_within (hzero : ∀ a, advance a 0 = a)
    (hadd : ∀ a m n, advance a (m + n) = advance (advance a m) n)
    (hpos : ∀ b r, find b = some r → 0 < size r) {a : α} {n : ℕ} {rs : List ρ}
    (h : Tiles find size advance a n rs) : ∀ r ∈ rs, ∃ i < n, find (advance a i) = some r := by
  induction rs generalizing a n with
  | nil => simp
  | cons r rs ih =>
    obtain ⟨hfind, hle, hrest⟩ := h
    have hr := hpos a r hfind
    intro s hs
    rcases List.mem_cons.mp hs with rfl | hs
    · exact ⟨0, by omega, by rwa [hzero]⟩
    · obtain ⟨i, hi, hfound⟩ := ih hrest s hs
      exact ⟨size r + i, by omega, by rwa [hadd]⟩

/-- An empty range is tiled by no blocks only. -/
theorem tiles_zero (hpos : ∀ b r, find b = some r → 0 < size r) {a : α} {rs : List ρ} :
    Tiles find size advance a 0 rs ↔ rs = [] := by
  cases rs with
  | nil => simp
  | cons r rs =>
    simp only [reduceCtorEq, iff_false]
    rintro ⟨hfind, hle, _⟩
    have := hpos a r hfind
    omega

theorem Tiles.unique (hpos : ∀ b r, find b = some r → 0 < size r) {a : α} {n : ℕ} {rs rs' : List ρ}
    (h : Tiles find size advance a n rs) (h' : Tiles find size advance a n rs') : rs = rs' := by
  induction rs generalizing a n rs' with
  | nil =>
    obtain rfl := tiles_nil.mp h
    exact ((tiles_zero hpos).mp h').symm
  | cons r rs ih =>
    cases rs' with
    | nil =>
      obtain rfl := tiles_nil.mp h'
      exact absurd ((tiles_zero hpos).mp h) (by simp)
    | cons r' rs' =>
      obtain ⟨hfind, _, hrest⟩ := h
      obtain ⟨hfind', _, hrest'⟩ := h'
      obtain rfl : r = r' := Option.some.inj (hfind.symm.trans hfind')
      rw [ih hrest hrest']

end Walk

/-! ### Cells of a linear memory -/

/-- The `n` cells from `a` on. -/
def cells (mem : ℕ → β) (a n : ℕ) : List β := (List.range n).map fun i => mem (a + i)

@[simp] theorem length_cells (mem : ℕ → β) (a n : ℕ) : (cells mem a n).length = n := by
  simp [cells]

theorem cells_const (v : β) (a n : ℕ) : cells (fun _ => v) a n = List.replicate n v := by
  simp [cells, List.map_const']

theorem cells_add (mem : ℕ → β) (a m n : ℕ) : cells mem a (m + n) = cells mem a m ++ cells mem (a + m) n := by
  simp [cells, List.range_add, Nat.add_assoc]

theorem cells_congr {mem mem' : ℕ → β} {a n : ℕ} (h : ∀ x, a ≤ x → x < a + n → mem x = mem' x) :
    cells mem a n = cells mem' a n := by
  apply List.map_congr_left
  intro i hi
  exact h (a + i) (by omega) (by have := List.mem_range.mp hi; omega)

/-- Write a list of cells from `a` on. -/
def overwrite (mem : ℕ → β) (a : ℕ) (ws : List β) : ℕ → β := fun x =>
  if a ≤ x then ws.getD (x - a) (mem x) else mem x

@[simp] theorem overwrite_nil (mem : ℕ → β) (a : ℕ) : overwrite mem a [] = mem := by
  funext x
  simp [overwrite]

theorem overwrite_of_lt (mem : ℕ → β) {a x : ℕ} (ws : List β) (h : x < a) : overwrite mem a ws x = mem x := by
  simp [overwrite, show ¬a ≤ x by omega]

theorem overwrite_of_ge (mem : ℕ → β) {a x : ℕ} (ws : List β) (h : a + ws.length ≤ x) :
    overwrite mem a ws x = mem x := by
  have hnone : ws[x - a]? = none := List.getElem?_eq_none (by omega)
  simp [overwrite, hnone]

theorem overwrite_of_mem (mem : ℕ → β) {a x : ℕ} (ws : List β) (h : a ≤ x) (h' : x < a + ws.length) :
    overwrite mem a ws x = ws.get ⟨x - a, by omega⟩ := by
  simp [overwrite, h, show x - a < ws.length by omega]

theorem cells_overwrite (mem : ℕ → β) (a : ℕ) (ws : List β) : cells (overwrite mem a ws) a ws.length = ws := by
  apply List.ext_getElem (by simp)
  intro i h1 h2
  simp only [cells, List.getElem_map, List.getElem_range]
  rw [overwrite_of_mem mem ws (by omega) (by omega)]
  simp

theorem overwrite_append (mem : ℕ → β) (a : ℕ) (ws vs : List β) :
    overwrite mem a (ws ++ vs) = overwrite (overwrite mem a ws) (a + ws.length) vs := by
  funext x
  rcases Nat.lt_or_ge x (a + ws.length) with h1 | h1
  · rw [overwrite_of_lt _ vs h1]
    by_cases h0 : a ≤ x
    · rw [overwrite_of_mem mem _ h0 (by simp; omega), overwrite_of_mem mem _ h0 h1]
      simp [List.getElem_append_left (show x - a < ws.length by omega)]
    · rw [overwrite_of_lt mem _ (by omega), overwrite_of_lt mem _ (by omega)]
  · rcases Nat.lt_or_ge x (a + ws.length + vs.length) with h2 | h2
    · rw [overwrite_of_mem mem _ (by omega) (by simp; omega), overwrite_of_mem _ vs h1 h2,
        List.get_eq_getElem, List.get_eq_getElem, List.getElem_append_right (by simp only; omega)]
      congr 1
      simp only
      omega
    · rw [overwrite_of_ge mem _ (by simp; omega), overwrite_of_ge _ vs h2, overwrite_of_ge mem ws h1]

/-! ### Unions of disjoint blocks -/

section Blocks

variable (start size : ρ → ℕ) (blocks : List ρ)

/-- The cells of a block. -/
def extent (r : ρ) : Set ℕ := Set.Ico (start r) (start r + size r)

/-- The `n` cells from `a` on are exactly the cells of some of the blocks. -/
def IsUnionOfBlocks (a n : ℕ) : Prop :=
  ∃ S : Set ρ, (∀ r ∈ S, r ∈ blocks) ∧ ⋃ r ∈ S, extent start size r = Set.Ico a (a + n)

/-- The first block that starts at `a`. -/
def blockAt (a : ℕ) : Option ρ := blocks.find? fun r => start r == a

variable {start size blocks}

theorem blockAt_eq_some {a : ℕ} {r : ρ} (h : blockAt start blocks a = some r) : r ∈ blocks ∧ start r = a :=
  ⟨List.mem_of_find?_eq_some h, by simpa using List.find?_some h⟩

/-- Blocks whose extents meet are the same block. -/
theorem eq_of_mem_extent (hdisj : blocks.Pairwise fun r s => Disjoint (extent start size r) (extent start size s))
    {r s : ρ} (hr : r ∈ blocks) (hs : s ∈ blocks) {x : ℕ} (hxr : x ∈ extent start size r)
    (hxs : x ∈ extent start size s) : r = s := by
  by_contra hne
  have : Std.Symm fun r s => Disjoint (extent start size r) (extent start size s) :=
    ⟨fun _ _ h => h.symm⟩
  exact Set.disjoint_left.mp (hdisj.forall hr hs hne) hxr hxs

theorem blockAt_start (hdisj : blocks.Pairwise fun r s => Disjoint (extent start size r) (extent start size s))
    (hpos : ∀ r ∈ blocks, 0 < size r) {r : ρ} (hr : r ∈ blocks) : blockAt start blocks (start r) = some r := by
  have hsome : (blockAt start blocks (start r)).isSome := by
    simp only [blockAt, List.find?_isSome]
    exact ⟨r, hr, by simp⟩
  obtain ⟨s, hs⟩ := Option.isSome_iff_exists.mp hsome
  obtain ⟨hmem, hstart⟩ := blockAt_eq_some hs
  have hposr := hpos r hr
  have hposs := hpos s hmem
  have heq : r = s := eq_of_mem_extent hdisj hr hmem (x := start r)
    (by simp only [extent, Set.mem_Ico]; omega) (by simp only [extent, Set.mem_Ico]; omega)
  rw [hs, heq]

theorem tiles_of_isUnion (hdisj : blocks.Pairwise fun r s => Disjoint (extent start size r) (extent start size s))
    (hpos : ∀ r ∈ blocks, 0 < size r) {a n : ℕ} (h : IsUnionOfBlocks start size blocks a n) :
    ∃ rs, Tiles (blockAt start blocks) size (· + ·) a n rs := by
  induction n using Nat.strong_induction_on generalizing a with
  | h n ih =>
    obtain ⟨S, hS, hunion⟩ := h
    rcases Nat.eq_zero_or_pos n with rfl | hn
    · exact ⟨[], rfl⟩
    -- the block over the first cell starts there, and the others cover the rest
    have hcover : ∀ x, (∃ r ∈ S, x ∈ extent start size r) ↔ a ≤ x ∧ x < a + n := by
      intro x
      rw [← Set.mem_Ico, ← hunion]
      simp
    obtain ⟨r, hrS, hra⟩ := (hcover a).mpr ⟨le_rfl, by omega⟩
    have hpr := hpos r (hS r hrS)
    simp only [extent, Set.mem_Ico] at hra
    have hfirst := (hcover (start r)).mp ⟨r, hrS, by simp only [extent, Set.mem_Ico]; omega⟩
    have hlast := (hcover (start r + size r - 1)).mp ⟨r, hrS, by simp only [extent, Set.mem_Ico]; omega⟩
    have hstart : start r = a := by omega
    have hrest : IsUnionOfBlocks start size blocks (a + size r) (n - size r) := by
      refine ⟨S \ {r}, fun s hs => hS s hs.1, ?_⟩
      ext x
      simp only [Set.mem_iUnion, Set.mem_sdiff, Set.mem_singleton_iff, Set.mem_Ico, exists_prop]
      constructor
      · rintro ⟨s, ⟨hsS, hne⟩, hx⟩
        have hin := (hcover x).mp ⟨s, hsS, hx⟩
        have hout : x ∉ extent start size r := fun hxr =>
          hne (eq_of_mem_extent hdisj (hS s hsS) (hS r hrS) hx hxr)
        simp only [extent, Set.mem_Ico] at hout
        omega
      · intro hx
        obtain ⟨s, hsS, hxs⟩ := (hcover x).mpr (by omega)
        refine ⟨s, ⟨hsS, ?_⟩, hxs⟩
        rintro rfl
        simp only [extent, Set.mem_Ico] at hxs
        omega
    obtain ⟨rs, hrs⟩ := ih (n - size r) (by omega) hrest
    refine ⟨r :: rs, ?_, by omega, hrs⟩
    rw [← hstart]
    exact blockAt_start hdisj hpos (hS r hrS)

theorem isUnion_of_tiles {a n : ℕ} {rs : List ρ} (h : Tiles (blockAt start blocks) size (· + ·) a n rs) :
    IsUnionOfBlocks start size blocks a n := by
  induction rs generalizing a n with
  | nil =>
    obtain rfl := tiles_nil.mp h
    exact ⟨∅, by simp, by simp⟩
  | cons r rs ih =>
    obtain ⟨hfind, hle, hrest⟩ := h
    obtain ⟨hmem, hstart⟩ := blockAt_eq_some hfind
    obtain ⟨S, hS, hunion⟩ := ih hrest
    refine ⟨insert r S, ?_, ?_⟩
    · intro s hs
      rcases Set.mem_insert_iff.mp hs with rfl | hs
      · exact hmem
      · exact hS s hs
    · rw [Set.biUnion_insert, hunion, extent, hstart]
      ext x
      simp only [Set.mem_union, Set.mem_Ico]
      omega

/-- A range of cells is a union of blocks exactly when the walk tiles it. -/
theorem isUnion_iff_tiles (hdisj : blocks.Pairwise fun r s => Disjoint (extent start size r) (extent start size s))
    (hpos : ∀ r ∈ blocks, 0 < size r) {a n : ℕ} :
    IsUnionOfBlocks start size blocks a n ↔ ∃ rs, Tiles (blockAt start blocks) size (· + ·) a n rs :=
  ⟨tiles_of_isUnion hdisj hpos, fun ⟨_, h⟩ => isUnion_of_tiles h⟩

/-- A nonempty union of blocks ends where some block ends. -/
theorem IsUnionOfBlocks.le_of_bounded {bound a n : ℕ} (hbound : ∀ r ∈ blocks, start r + size r ≤ bound)
    (hn : 0 < n) (h : IsUnionOfBlocks start size blocks a n) : a + n ≤ bound := by
  obtain ⟨S, hS, hunion⟩ := h
  have hlast : a + n - 1 ∈ ⋃ r ∈ S, extent start size r := by
    rw [hunion, Set.mem_Ico]
    omega
  simp only [Set.mem_iUnion, exists_prop, extent, Set.mem_Ico] at hlast
  obtain ⟨r, hr, hmem⟩ := hlast
  have := hbound r (hS r hr)
  omega

/-- The contents of the blocks of a tiling, one after the other, are the cells of the range. -/
theorem flatMap_eq_cells {contents : ρ → List β} {mem : ℕ → β}
    (hcontents : ∀ r ∈ blocks, contents r = cells mem (start r) (size r)) {a n : ℕ} {rs : List ρ}
    (h : Tiles (blockAt start blocks) size (· + ·) a n rs) : rs.flatMap contents = cells mem a n := by
  induction rs generalizing a n with
  | nil =>
    obtain rfl := tiles_nil.mp h
    rfl
  | cons r rs ih =>
    obtain ⟨hfind, hle, hrest⟩ := h
    obtain ⟨hmem, rfl⟩ := blockAt_eq_some hfind
    rw [List.flatMap_cons, hcontents r hmem, ih hrest, ← cells_add, Nat.add_sub_cancel' hle]

end Blocks

end InfusedModbus.Foundation
