import InfusedModbus.Foundation.Pushes
import InfusedModbus.ProtocolCore.FlatList
import Mathlib.Data.Vector.Basic

/-! The lists of byte strings as they lie in memory: a buffer and an array of heads of
fixed lengths, each with the number of cells in use. A push writes into them one after the
other and may stop in between; reading recomputes the offset of an entry from the lengths
before it. The cells in use are at every time those of a list of entries, so nothing is
read or written out of bounds and a refused push changes nothing that can be read. -/

namespace InfusedModbus.ProtocolCore.Arrays

open Foundation Foundation.Outcome

variable {ε κ α : Type} {n : ℕ}

/-- `xs[i] = x`, panicking out of bounds. -/
def store (xs : List.Vector α n) (i : ℕ) (x : α) : Outcome ε (List.Vector α n) :=
  if h : i < n then .ok (xs.set ⟨i, h⟩ x) else .panic

/-- `xs[lo..hi].copy_from_slice(src)`, panicking out of bounds and on a different length. -/
def copyFromSlice (xs : List.Vector α n) (lo hi : ℕ) (src : List α) : Outcome ε (List.Vector α n) :=
  if h : lo ≤ hi ∧ hi ≤ n ∧ src.length = hi - lo then
    .ok ⟨xs.toList.take lo ++ src ++ xs.toList.drop hi, by
      simp only [List.length_append, List.length_take, List.length_drop, List.Vector.toList_length]
      omega⟩
  else .panic

theorem take_copyFromSlice {xs : List.Vector α n} {lo hi : ℕ} {src : List α} (h : lo ≤ hi) (h' : hi ≤ n)
    (hsrc : src.length = hi - lo) :
    ∃ ys, (copyFromSlice xs lo hi src : Outcome ε (List.Vector α n)) = .ok ys ∧
      ys.toList.take hi = xs.toList.take lo ++ src := by
  refine ⟨_, dif_pos ⟨h, h', hsrc⟩, ?_⟩
  have hlen : hi = (xs.toList.take lo ++ src).length := by
    simp only [List.length_append, List.length_take, List.Vector.toList_length]
    omega
  rw [List.Vector.toList_mk]
  conv_lhs => rw [hlen]
  exact List.take_left' rfl

theorem take_store {xs : List.Vector α n} {i : ℕ} (h : i < n) (x : α) :
    ∃ ys, (store xs i x : Outcome ε (List.Vector α n)) = .ok ys ∧
      ys.toList.take (i + 1) = xs.toList.take i ++ [x] := by
  refine ⟨_, dif_pos h, ?_⟩
  rw [List.Vector.toList_set, List.take_add_one, List.take_set_of_le le_rfl]
  simp [h]

/-! ### The buffer -/

structure PduBytes where
  data : List.Vector UInt8 maxPduLen
  len : ℕ
  deriving DecidableEq

namespace PduBytes

def new : PduBytes := ⟨List.Vector.replicate maxPduLen 0, 0⟩

def extendFromSlice (self : PduBytes) (bytes : Bytes) : Outcome ε (PduBytes × Except CapacityExceeded Unit) := do
  let newLen := self.len + bytes.length
  if maxPduLen < newLen then return (self, .error ⟨⟩)
  let data ← copyFromSlice self.data self.len newLen bytes
  return (⟨data, newLen⟩, .ok ())

def asSlice (self : PduBytes) : Outcome ε Bytes := slice self.data.toList 0 self.len

end PduBytes

/-! ### Any of the containers -/

/-- The buffer, the array of heads and how many of them are in use. The arrays that a
container keeps side by side are one array of heads here. -/
structure FlatArrays (κ : Type) (size : κ → ℕ) (capacity : ℕ) where
  data : PduBytes
  heads : List.Vector κ capacity
  count : ℕ

namespace FlatArrays

variable {size : κ → ℕ} {capacity : ℕ}

def new (zero : κ) : FlatArrays κ size capacity := ⟨.new, List.Vector.replicate capacity zero, 0⟩

/-- What a push does once it is past its guard. -/
def append (self : FlatArrays κ size capacity) (head : κ) (value : Bytes) :
    Outcome ε (FlatArrays κ size capacity × Except CapacityExceeded Unit) := do
  let extended ← self.data.extendFromSlice value
  match extended.2 with
  | .error e => return ({ self with data := extended.1 }, .error e)
  | .ok _ =>
    let heads ← store self.heads self.count head
    return (⟨extended.1, heads, self.count + 1⟩, .ok ())

def entry (self : FlatArrays κ size capacity) (i : ℕ) : Outcome ε (Option (κ × Bytes)) :=
  if self.count ≤ i then pure none
  else do
    let before ← slice self.heads.toList 0 i
    let start := (before.map size).sum
    let head ← index self.heads.toList i
    let bytes ← self.data.asSlice
    let value ← slice bytes start (start + size head)
    pure (some (head, value))

/-- The cells in use are those of the list. -/
structure Holds (arrays : FlatArrays κ size capacity) (flat : FlatList κ size capacity) : Prop where
  len_eq : arrays.data.len = flat.data.asSlice.length
  bytes_eq : arrays.data.data.toList.take arrays.data.len = flat.data.asSlice
  count_eq : arrays.count = flat.heads.length
  heads_eq : arrays.heads.toList.take arrays.count = flat.heads

variable {self : FlatArrays κ size capacity} {flat : FlatList κ size capacity}

theorem holds_new (zero : κ) : (new zero : FlatArrays κ size capacity).Holds .new := ⟨rfl, rfl, rfl, rfl⟩

theorem Holds.asSlice_eq (h : self.Holds flat) : (self.data.asSlice : Outcome ε Bytes) = .ok flat.data.asSlice := by
  have hle : self.data.len ≤ self.data.data.toList.length := by
    rw [List.Vector.toList_length, h.len_eq]
    exact flat.data.len_le
  rw [PduBytes.asSlice, slice_of_le (Nat.zero_le _) hle, List.drop_zero, Nat.sub_zero, h.bytes_eq]

/-- Reading the arrays is reading the list. -/
theorem Holds.entry_eq (h : self.Holds flat) (i : ℕ) :
    (self.entry i : Outcome ε (Option (κ × Bytes))) = flat.entry i := by
  rw [entry, FlatList.entry, h.count_eq]
  split
  · rfl
  · next hlt =>
    have hi : i < self.count := by rw [h.count_eq]; omega
    have hcapacity : i < self.heads.toList.length := by
      rw [List.Vector.toList_length]
      exact hi.trans_le (h.count_eq ▸ flat.count_le)
    have hbefore : self.heads.toList.take i = flat.heads.take i := by
      rw [← h.heads_eq, List.take_take, Nat.min_eq_left hi.le]
    have hhead : (index self.heads.toList i : Outcome ε κ) = index flat.heads i := by
      rw [index, index, ← h.heads_eq, List.getElem?_take_of_lt hi]
    rw [slice_of_le (Nat.zero_le _) hcapacity.le, ok_bind, List.drop_zero, Nat.sub_zero, hbefore, hhead]
    simp only [h.asSlice_eq, ok_bind]

/-- A push that is past its guard does to the arrays what it does to the list. -/
theorem Holds.append (h : self.Holds flat) (hcount : self.count < capacity) {head : κ} {value : Bytes}
    (hhead : value.length ≤ maxPduLen → size head = value.length) :
    (∃ after flat', (self.append head value : Outcome ε _) = .ok (after, .ok ()) ∧
        flat.push head value hhead = .ok flat' ∧ after.Holds flat') ∨
      (self.append head value : Outcome ε _) = .ok (self, .error ⟨⟩) ∧ flat.push head value hhead = .err ⟨⟩ := by
  by_cases hdata : maxPduLen < flat.data.asSlice.length + value.length
  · right
    refine ⟨?_, FlatList.push_of_overlong hdata⟩
    simp only [FlatArrays.append, PduBytes.extendFromSlice, h.len_eq, if_pos hdata]
    rfl
  · left
    have hlist : flat.entries.length < capacity := by
      rwa [FlatList.length_entries, ← h.count_eq]
    obtain ⟨flat', hpush, -, hslice⟩ : ∃ flat', flat.push head value hhead = .ok flat' ∧ _ :=
      FlatList.push_of_room hlist (not_lt.mp hdata)
    obtain ⟨data, hcopy, hbytes⟩ : ∃ data,
        (copyFromSlice self.data.data self.data.len (self.data.len + value.length) value : Outcome ε _) = .ok data ∧ _ :=
      take_copyFromSlice (Nat.le_add_right _ _) (by rw [h.len_eq]; omega) (Nat.add_sub_cancel_left _ _).symm
    obtain ⟨heads, hstore, hheads⟩ : ∃ heads, (store self.heads self.count head : Outcome ε _) = .ok heads ∧ _ :=
      take_store hcount head
    refine ⟨⟨⟨data, self.data.len + value.length⟩, heads, self.count + 1⟩, flat', ?_, hpush, ?_, ?_, ?_, ?_⟩
    · rw [h.len_eq] at hcopy
      simp only [FlatArrays.append, PduBytes.extendFromSlice, h.len_eq, if_neg hdata, hcopy, pure_eq, ok_bind, hstore]
    · rw [hslice, List.length_append, h.len_eq]
    · rw [hbytes, h.bytes_eq, hslice]
    · rw [FlatList.heads_of_push hpush, List.length_append, h.count_eq]
      rfl
    · rw [hheads, h.heads_eq, FlatList.heads_of_push hpush]

/-- The entries in use are those of the list `xs`. -/
def Represents (self : FlatArrays κ size capacity) (xs : List (κ × Bytes)) : Prop :=
  ∃ flat, self.Holds flat ∧ flat.entries = xs

theorem represents_new (zero : κ) : (new zero : FlatArrays κ size capacity).Represents [] :=
  ⟨.new, holds_new zero, rfl⟩

/-- What is read is the list, nothing out of bounds. -/
theorem Represents.read {xs : List (κ × Bytes)} (h : self.Represents xs) :
    self.count = xs.length ∧ ∀ i, (self.entry i : Outcome ε (Option (κ × Bytes))) = .ok xs[i]? := by
  obtain ⟨flat, hholds, rfl⟩ := h
  refine ⟨?_, fun i => ?_⟩
  · rw [hholds.count_eq, FlatList.length_entries]
  · rw [hholds.entry_eq, FlatList.entry_eq]

theorem Represents.count_le {xs : List (κ × Bytes)} (h : self.Represents xs) : self.count ≤ capacity := by
  obtain ⟨flat, hholds, -⟩ := h
  rw [hholds.count_eq]
  exact flat.count_le

theorem Represents.append {xs : List (κ × Bytes)} (h : self.Represents xs) (hcount : self.count < capacity)
    {head : κ} {value : Bytes} (hhead : value.length ≤ maxPduLen → size head = value.length) :
    (∃ after, (self.append head value : Outcome ε _) = .ok (after, .ok ()) ∧
        after.Represents (xs ++ [(head, value)])) ∨
      (self.append head value : Outcome ε _) = .ok (self, .error ⟨⟩) := by
  obtain ⟨flat, hholds, rfl⟩ := h
  rcases hholds.append hcount hhead with ⟨after, flat', happend, hpush, hafter⟩ | ⟨happend, -⟩
  · refine Or.inl ⟨after, happend, flat', hafter, ?_⟩
    exact FlatList.entries_of_push hpush
  · exact Or.inr happend

end FlatArrays

/-! ### File records -/

abbrev FileRecordResponseData : Type := FlatArrays UInt16 UInt16.toNat maxFileRecords

namespace FileRecordResponseData

def new : FileRecordResponseData := FlatArrays.new 0

def pushRecord (self : FileRecordResponseData) (record : Bytes) :
    Outcome ε (FileRecordResponseData × Except CapacityExceeded Unit) :=
  if self.count = maxFileRecords then .ok (self, .error ⟨⟩)
  else FlatArrays.append self (UInt16.ofNat record.length) record

def recordCount (self : FileRecordResponseData) : ℕ := self.count

def record (self : FileRecordResponseData) (i : ℕ) : Outcome ε (Option Bytes) :=
  (FlatArrays.entry self i).map fun entry => entry.map Prod.snd

end FileRecordResponseData

abbrev WriteFileRecordSubRequests : Type :=
  FlatArrays WriteFileRecordHead (fun head => head.recordDataLength.toNat) maxWriteFileRecordSubRequests

namespace WriteFileRecordSubRequests

def new : WriteFileRecordSubRequests := FlatArrays.new ⟨0, 0, 0⟩

def push (self : WriteFileRecordSubRequests) (fileNumber recordNumber : UInt16) (recordData : Bytes) :
    Outcome ε (WriteFileRecordSubRequests × Except CapacityExceeded Unit) :=
  if self.count = maxWriteFileRecordSubRequests then .ok (self, .error ⟨⟩)
  else FlatArrays.append self ⟨fileNumber, recordNumber, UInt16.ofNat recordData.length⟩ recordData

def ofEntry (entry : WriteFileRecordHead × Bytes) : UInt16 × UInt16 × Bytes :=
  (entry.1.fileNumber, entry.1.recordNumber, entry.2)

def subRequest (self : WriteFileRecordSubRequests) (i : ℕ) : Outcome ε (Option (UInt16 × UInt16 × Bytes)) :=
  (FlatArrays.entry self i).map fun entry => entry.map ofEntry

end WriteFileRecordSubRequests

/-! ### Identification objects -/

abbrev DeviceIdentificationObjects : Type :=
  FlatArrays DeviceIdentificationHead (fun head => head.length.toNat) maxDeviceIdentificationObjects

namespace DeviceIdentificationObjects

def new : DeviceIdentificationObjects := FlatArrays.new ⟨0, 0⟩

/-- A value whose length does not fit the byte that keeps it is refused first. -/
def push (self : DeviceIdentificationObjects) (id : UInt8) (value : Bytes) :
    Outcome ε (DeviceIdentificationObjects × Except CapacityExceeded Unit) :=
  if self.count = maxDeviceIdentificationObjects ∨ 255 < value.length then .ok (self, .error ⟨⟩)
  else FlatArrays.append self ⟨id, UInt8.ofNat value.length⟩ value

def ofEntry (entry : DeviceIdentificationHead × Bytes) : UInt8 × Bytes := (entry.1.id, entry.2)

def object (self : DeviceIdentificationObjects) (i : ℕ) : Outcome ε (Option (UInt8 × Bytes)) :=
  (FlatArrays.entry self i).map fun entry => entry.map ofEntry

end DeviceIdentificationObjects

/-! ### What was pushed is returned -/

section ReturnsPushed

variable {size : κ → ℕ} {capacity : ℕ} {ι β : Type}

/-- A container whose push is a guard before `append` and whose accessor reads a part of
the entries returns what was pushed. -/
theorem returnsPushed_of_guard (refuses : FlatArrays κ size capacity → ι → Prop) (head : ι → κ) (value : ι → Bytes)
    (read : κ × Bytes → β) {zero : κ}
    {push : FlatArrays κ size capacity → ι → Outcome Empty (FlatArrays κ size capacity × Except CapacityExceeded Unit)}
    (hcapacity : ∀ s call, ¬refuses s call → s.count ≠ capacity)
    (hhead : ∀ s call, ¬refuses s call → (value call).length ≤ maxPduLen → size (head call) = (value call).length)
    (hrefuses : ∀ s call, refuses s call → push s call = .ok (s, .error ⟨⟩))
    (haccepts : ∀ s call, ¬refuses s call → push s call = s.append (head call) (value call)) :
    ReturnsPushed (.new zero) push FlatArrays.count (fun s i => (s.entry i).map fun entry => entry.map read)
      fun call => read (head call, value call) := by
  have hpush : ∀ (s : FlatArrays κ size capacity) (xs : List β) (call : ι),
      (∃ entries, s.Represents entries ∧ entries.map read = xs) →
      (∃ after, push s call = .ok (after, .ok ()) ∧
          ∃ entries, after.Represents entries ∧ entries.map read = xs ++ [read (head call, value call)]) ∨
        ∃ after e, push s call = .ok (after, .error e) ∧ ∃ entries, after.Represents entries ∧ entries.map read = xs := by
    rintro s _ call ⟨entries, hs, rfl⟩
    by_cases hrefused : refuses s call
    · exact Or.inr ⟨s, ⟨⟩, hrefuses s call hrefused, entries, hs, rfl⟩
    rw [haccepts s call hrefused]
    have hcount := lt_of_le_of_ne hs.count_le (hcapacity s call hrefused)
    rcases hs.append hcount (hhead s call hrefused) with ⟨after, hok, hafter⟩ | herr
    · exact Or.inl ⟨after, hok, _, hafter, List.map_append⟩
    · exact Or.inr ⟨s, ⟨⟩, herr, entries, hs, rfl⟩
  apply returnsPushed_of_represents hpush
  · exact ⟨[], FlatArrays.represents_new zero, rfl⟩
  · rintro s _ ⟨entries, hs, rfl⟩
    obtain ⟨hcount, hentry⟩ := hs.read (ε := Empty)
    refine ⟨by rw [hcount, List.length_map], fun i => ?_⟩
    rw [hentry, map_ok, List.getElem?_map]

/-- After any calls, accepted or refused, entry `i` of each of the containers is what the
`i`-th accepted call brought, and a refused call changes none of them. -/
theorem flat_containers_return_pushed :
    ReturnsPushed FileRecordResponseData.new FileRecordResponseData.pushRecord FileRecordResponseData.recordCount
        FileRecordResponseData.record (fun record => record) ∧
      ReturnsPushed WriteFileRecordSubRequests.new (fun self call => self.push call.1 call.2.1 call.2.2)
        FlatArrays.count WriteFileRecordSubRequests.subRequest (fun call => call) ∧
      ReturnsPushed DeviceIdentificationObjects.new (fun self call => self.push call.1 call.2) FlatArrays.count
        DeviceIdentificationObjects.object (fun call => call) := by
  refine ⟨?_, ?_, ?_⟩
  · apply returnsPushed_of_guard (fun s _ => s.count = maxFileRecords)
      (fun record => UInt16.ofNat record.length) (fun record => record) Prod.snd
    · exact fun s call h => h
    · exact fun s call _ => toNat_ofNat_length
    · exact fun s call h => if_pos h
    · exact fun s call h => if_neg h
  · apply returnsPushed_of_guard (fun s _ => s.count = maxWriteFileRecordSubRequests)
      (fun call : UInt16 × UInt16 × Bytes => WriteFileRecordHead.mk call.1 call.2.1 (UInt16.ofNat call.2.2.length))
      (fun call => call.2.2) WriteFileRecordSubRequests.ofEntry
    · exact fun s call h => h
    · exact fun s call _ => toNat_ofNat_length
    · exact fun s call h => if_pos h
    · exact fun s call h => if_neg h
  · apply returnsPushed_of_guard
      (fun s (call : UInt8 × Bytes) => s.count = maxDeviceIdentificationObjects ∨ 255 < call.2.length)
      (fun call => DeviceIdentificationHead.mk call.1 (UInt8.ofNat call.2.length)) (fun call => call.2)
      DeviceIdentificationObjects.ofEntry
    · exact fun s call h hfull => h (Or.inl hfull)
    · intro s call h _
      have hlength : ¬255 < call.2.length := fun hover => h (Or.inr hover)
      rw [UInt8.ofNat_toNat_mod]
      omega
    · exact fun s call h => if_pos h
    · exact fun s call h => if_neg h

end ReturnsPushed

end InfusedModbus.ProtocolCore.Arrays
