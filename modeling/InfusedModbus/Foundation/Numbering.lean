import InfusedModbus.Foundation.Store
import Mathlib.Data.List.Enum

/-! Keys that are numbered in the order of a list, in a map from keys to numbers and its
inverse. A key that comes twice keeps its last number, and the number it had before has no
owner. The two maps are inverse to each other in any case; in a list of distinct keys the
number of each is its position. -/

namespace InfusedModbus.Foundation

variable {κ : Type} [DecidableEq κ]

/-- A key of a batch has some value of its own afterwards. -/
theorem Store.exists_get_setAll {ν : Type} (s : Store κ ν) {kvs : List (κ × ν)} {k : κ} (h : k ∈ kvs.map Prod.fst) :
    ∃ v, (k, v) ∈ kvs ∧ (s.setAll kvs).get k = some v := by
  induction kvs generalizing s with
  | nil => cases h
  | cons kv kvs ih =>
    by_cases hrest : k ∈ kvs.map Prod.fst
    · obtain ⟨v, hv, hget⟩ := ih (s.set kv.1 kv.2) hrest
      exact ⟨v, List.mem_cons_of_mem _ hv, hget⟩
    · rw [List.map_cons, List.mem_cons] at h
      obtain rfl := h.resolve_right hrest
      refine ⟨kv.2, List.mem_cons_self, ?_⟩
      rw [setAll_cons, get_setAll_of_notMem _ hrest, get_set_self]

/-- Every key under its position, a later one over an earlier. -/
def numbers (keys : List κ) : Store κ ℕ := Store.empty.setAll keys.zipIdx

/-- Every number under the key that kept it. -/
def owners (keys : List κ) : Store ℕ κ :=
  Store.empty.setAll ((keys.zipIdx.filter fun entry => (numbers keys).get entry.1 == some entry.2).map Prod.swap)

variable {keys : List κ} {k : κ} {n : ℕ}

theorem getElem?_of_numbers (h : (numbers keys).get k = some n) : keys[n]? = some k := by
  rcases Store.get_setAll_cases Store.empty keys.zipIdx k with ⟨v, hmem, hget⟩ | hget
  · obtain rfl := Option.some.inj (hget.symm.trans h)
    exact List.mem_zipIdx_iff_getElem?.mp hmem
  · rw [numbers, hget] at h
    cases h

/-- Two keys never share a number. -/
theorem numbers_injective {k' : κ} (h : (numbers keys).get k = some n) (h' : (numbers keys).get k' = some n) : k = k' :=
  Option.some.inj ((getElem?_of_numbers h).symm.trans (getElem?_of_numbers h'))

theorem exists_numbers (h : k ∈ keys) : ∃ n, (numbers keys).get k = some n := by
  have hkey : k ∈ keys.zipIdx.map Prod.fst := by rwa [List.zipIdx_map_fst]
  obtain ⟨n, -, hget⟩ := Store.empty.exists_get_setAll hkey
  exact ⟨n, hget⟩

/-- The two maps are inverse to each other. -/
theorem get_owners : (owners keys).get n = some k ↔ (numbers keys).get k = some n := by
  have hmem : ∀ k n, (n, k) ∈ ((keys.zipIdx.filter fun entry => (numbers keys).get entry.1 == some entry.2).map
      Prod.swap) ↔ keys[n]? = some k ∧ (numbers keys).get k = some n := by
    intro k n
    rw [List.mem_map]
    constructor
    · rintro ⟨⟨k', n'⟩, hfilter, hswap⟩
      obtain ⟨rfl, rfl⟩ := Prod.mk.inj hswap
      obtain ⟨hzip, hget⟩ := List.mem_filter.mp hfilter
      exact ⟨List.mem_zipIdx_iff_getElem?.mp hzip, eq_of_beq hget⟩
    · rintro ⟨hzip, hget⟩
      exact ⟨(k, n), List.mem_filter.mpr ⟨List.mem_zipIdx_iff_getElem?.mpr hzip, beq_iff_eq.mpr hget⟩, rfl⟩
  constructor
  · intro h
    rcases Store.get_setAll_cases Store.empty _ n with ⟨k', hentry, hget⟩ | hget
    · obtain rfl := Option.some.inj (hget.symm.trans h)
      exact ((hmem _ _).mp hentry).2
    · rw [owners, hget] at h
      cases h
  · intro h
    have hentry := (hmem k n).mpr ⟨getElem?_of_numbers h, h⟩
    obtain ⟨k', hentry', hget⟩ := Store.empty.exists_get_setAll (List.mem_map_of_mem hentry)
    have hsame := ((hmem _ _).mp hentry').2
    rw [owners, hget, numbers_injective h hsame]

end InfusedModbus.Foundation
