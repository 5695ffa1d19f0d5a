import Mathlib.Logic.Function.Basic

/-! A keyed store of which only lookup, insertion and removal are used: a partial function
from keys to values. Two stores with the same lookups are equal. -/

namespace InfusedModbus.Foundation

/-- The value last inserted under each key. -/
@[ext] structure Store (κ ν : Type) where
  get : κ → Option ν

namespace Store

variable {κ ν : Type}

/-- Nothing inserted yet. -/
def empty : Store κ ν := ⟨fun _ => none⟩

@[simp] theorem get_empty (k : κ) : (empty : Store κ ν).get k = none := rfl

variable [DecidableEq κ]

def set (s : Store κ ν) (k : κ) (v : ν) : Store κ ν := ⟨Function.update s.get k (some v)⟩

@[simp] theorem get_set_self (s : Store κ ν) (k : κ) (v : ν) : (s.set k v).get k = some v := by
  simp [set]

theorem get_set_of_ne (s : Store κ ν) {k k' : κ} (v : ν) (h : k' ≠ k) : (s.set k v).get k' = s.get k' := by
  simp [set, h]

theorem get_set (s : Store κ ν) (k k' : κ) (v : ν) :
    (s.set k v).get k' = if k' = k then some v else s.get k' := by
  split
  · next h => rw [h, get_set_self]
  · next h => exact get_set_of_ne s v h

/-- Writing back the stored value changes nothing. -/
theorem set_eq_self {s : Store κ ν} {k : κ} {v : ν} (h : s.get k = some v) : s.set k v = s := by
  ext1
  rw [set, ← h, Function.update_eq_self]

/-- Of two insertions under one key the later counts. -/
@[simp] theorem set_set (s : Store κ ν) (k : κ) (v v' : ν) : (s.set k v).set k v' = s.set k v' := by
  ext1
  exact Function.update_idem _ _ _

/-- Nothing under the key any more. -/
def remove (s : Store κ ν) (k : κ) : Store κ ν := ⟨Function.update s.get k none⟩

@[simp] theorem get_remove_self (s : Store κ ν) (k : κ) : (s.remove k).get k = none := by
  simp [remove]

theorem get_remove_of_ne (s : Store κ ν) {k k' : κ} (h : k' ≠ k) : (s.remove k).get k' = s.get k' := by
  simp [remove, h]

/-! ### Batches of insertions -/

/-- Insert the pairs in order, a later pair overwriting an earlier one. -/
def setAll (s : Store κ ν) (kvs : List (κ × ν)) : Store κ ν :=
  kvs.foldl (fun s kv => s.set kv.1 kv.2) s

@[simp] theorem setAll_nil (s : Store κ ν) : s.setAll [] = s := rfl

@[simp] theorem setAll_cons (s : Store κ ν) (kv : κ × ν) (kvs : List (κ × ν)) :
    s.setAll (kv :: kvs) = (s.set kv.1 kv.2).setAll kvs := rfl

theorem setAll_append (s : Store κ ν) (kvs kvs' : List (κ × ν)) :
    s.setAll (kvs ++ kvs') = (s.setAll kvs).setAll kvs' := List.foldl_append

/-- A batch touches only its own keys. -/
theorem get_setAll_of_notMem (s : Store κ ν) {kvs : List (κ × ν)} {k : κ} (h : k ∉ kvs.map Prod.fst) :
    (s.setAll kvs).get k = s.get k := by
  induction kvs generalizing s with
  | nil => rfl
  | cons kv kvs ih =>
    simp only [List.map_cons, List.mem_cons, not_or] at h
    rw [setAll_cons, ih _ h.2, get_set_of_ne _ _ h.1]

/-- In a batch of distinct keys every pair takes effect. -/
theorem get_setAll_of_mem (s : Store κ ν) {kvs : List (κ × ν)} (hnd : (kvs.map Prod.fst).Nodup)
    {k : κ} {v : ν} (h : (k, v) ∈ kvs) : (s.setAll kvs).get k = some v := by
  induction kvs generalizing s with
  | nil => simp at h
  | cons kv kvs ih =>
    simp only [List.map_cons, List.nodup_cons] at hnd
    rcases List.mem_cons.mp h with rfl | h
    · rw [setAll_cons, get_setAll_of_notMem _ hnd.1, get_set_self]
    · exact ih _ hnd.2 h

/-- After a batch, a lookup is either an inserted value or the old one. -/
theorem get_setAll_cases (s : Store κ ν) (kvs : List (κ × ν)) (k : κ) :
    (∃ v, (k, v) ∈ kvs ∧ (s.setAll kvs).get k = some v) ∨ (s.setAll kvs).get k = s.get k := by
  induction kvs generalizing s with
  | nil => exact .inr rfl
  | cons kv kvs ih =>
    rcases ih (s.set kv.1 kv.2) with ⟨v, hv, hget⟩ | hget
    · exact .inl ⟨v, by simp [hv], hget⟩
    · by_cases hk : k = kv.1
      · subst hk
        exact .inl ⟨kv.2, by simp, by rw [setAll_cons, hget, get_set_self]⟩
      · exact .inr (by rw [setAll_cons, hget, get_set_of_ne _ _ hk])

/-- A lookup finds what the batch alone stores, else the old value. -/
theorem get_setAll (s : Store κ ν) (kvs : List (κ × ν)) (k : κ) :
    (s.setAll kvs).get k = ((empty.setAll kvs).get k).or (s.get k) := by
  induction kvs generalizing s with
  | nil => rfl
  | cons kv kvs ih =>
    rw [setAll_cons, setAll_cons, ih (s.set kv.1 kv.2), ih (empty.set kv.1 kv.2), Option.or_assoc, get_set, get_set]
    split <;> rfl

end Store

end InfusedModbus.Foundation
