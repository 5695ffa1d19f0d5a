import InfusedModbus.Foundation.FlatBuffer
import InfusedModbus.Protocol.Pdu.Device
import InfusedModbus.Protocol.Pdu.FileRecord
import InfusedModbus.ProtocolCore.PduBytes

/-! The lists of byte strings of the port without a heap. The bytes of all entries
share one PDU-sized buffer; each entry has a head that says what it is and how many
of the bytes are its own, and there is room for a fixed number of heads. File records,
the sub-requests of a write and identification objects differ only in their heads. -/

namespace InfusedModbus.ProtocolCore

open Foundation Foundation.Outcome

variable {ε κ : Type}

/-- At most `capacity` heads, whose sizes add up to the bytes in use. -/
structure FlatList (κ : Type) (size : κ → ℕ) (capacity : ℕ) where
  data : PduBytes
  heads : List κ
  count_le : heads.length ≤ capacity
  covers : (heads.map size).sum = data.asSlice.length
  deriving DecidableEq, Repr

namespace FlatList

variable {size : κ → ℕ} {capacity : ℕ}

def new : FlatList κ size capacity := ⟨PduBytes.new, [], by simp, by simp⟩

def count (self : FlatList κ size capacity) : ℕ := self.heads.length

/-- The head has to give the right size to every value that fits the buffer. -/
def push (self : FlatList κ size capacity) (head : κ) (value : Bytes)
    (hhead : value.length ≤ maxPduLen → size head = value.length) :
    Outcome CapacityExceeded (FlatList κ size capacity) :=
  if hfull : self.heads.length = capacity then .err ⟨⟩
  else
    match hdata : self.data.extendFromSlice value with
    | .ok data => .ok
        { data := data
          heads := self.heads ++ [head]
          count_le := by
            have := self.count_le
            rw [List.length_append, List.length_singleton]
            omega
          covers := by
            have hlen := congrArg List.length (PduBytes.extendFromSlice_eq_ok hdata)
            have hle := data.len_le
            rw [List.length_append] at hlen
            simp only [List.map_append, List.sum_append, self.covers, List.map_cons, List.map_nil,
              List.sum_singleton, hhead (by omega)]
            omega }
    | .err e => .err e
    | .panic => .panic

/-- The offset of an entry is recomputed from the sizes before it. -/
def entry (self : FlatList κ size capacity) (i : ℕ) : Outcome ε (Option (κ × Bytes)) :=
  if self.heads.length ≤ i then pure none
  else do
    let start := ((self.heads.take i).map size).sum
    let head ← index self.heads i
    let value ← slice self.data.asSlice start (start + size head)
    pure (some (head, value))

/-- The entries a loop over the indices below the count sees. -/
def each (self : FlatList κ size capacity) : Outcome ε (List (κ × Bytes)) :=
  (List.range self.count).mapM' fun i => do
    let entry ← self.entry i
    expect entry

/-! ### The list of entries -/

variable (self : FlatList κ size capacity)

/-- The heads with their bytes. -/
def entries : List (κ × Bytes) := self.heads.zip ((self.heads.map size).splitLengths self.data.asSlice)

theorem length_entries : self.entries.length = self.heads.length := by
  simp [entries]

@[simp] theorem entries_new : (new : FlatList κ size capacity).entries = [] := rfl

/-- No index slices out of bounds. -/
theorem entry_eq (i : ℕ) : (self.entry i : Outcome ε (Option (κ × Bytes))) = .ok self.entries[i]? := by
  unfold entry
  split
  · next hle => rw [List.getElem?_eq_none (by rw [length_entries]; omega), pure_eq]
  · next hlt =>
    have hi : i < self.heads.length := by omega
    have hsize : i < (self.heads.map size).length := by simpa using hi
    have hslice := slice_splitLengths (ε := ε) self.covers hsize
    rw [List.getElem_map] at hslice
    rw [List.getElem?_eq_getElem (by rw [length_entries]; exact hi), index_of_lt hi, ok_bind, List.map_take, hslice]
    simp [entries]

theorem each_eq : (self.each : Outcome ε (List (κ × Bytes))) = .ok self.entries := by
  rw [each, count, ← length_entries]
  refine mapM_range_of_forall_ok fun i hi => ?_
  rw [entry_eq, ok_bind, List.getElem?_eq_getElem hi, expect_some]

variable {self} {head : κ} {value : Bytes} {hhead : value.length ≤ maxPduLen → size head = value.length}

theorem push_of_full (h : self.entries.length = capacity) : self.push head value hhead = .err ⟨⟩ := by
  rw [push, dif_pos (by rwa [← length_entries])]

/-- With room for the head and the bytes, the entry comes last. -/
theorem push_of_room (hcount : self.entries.length < capacity)
    (hdata : self.data.asSlice.length + value.length ≤ maxPduLen) :
    ∃ after, self.push head value hhead = .ok after ∧ after.entries = self.entries ++ [(head, value)] ∧
      after.data.asSlice = self.data.asSlice ++ value := by
  have hvalue : size head = value.length := hhead (by omega)
  have hlen : self.heads.length = ((self.heads.map size).splitLengths self.data.asSlice).length := by simp
  rw [length_entries] at hcount
  rw [push, dif_neg (by omega)]
  split
  · next data heq =>
    have hslice := PduBytes.extendFromSlice_eq_ok heq
    refine ⟨_, rfl, ?_, hslice⟩
    simp only [entries, List.map_append, List.map_cons, List.map_nil, hvalue, hslice]
    rw [splitLengths_concat self.covers, List.zip_append hlen]
    rfl
  · next heq =>
    rw [PduBytes.extendFromSlice_of_le hdata] at heq
    cases heq
  · next heq =>
    rw [PduBytes.extendFromSlice_of_le hdata] at heq
    cases heq

theorem heads_of_push {after : FlatList κ size capacity} (h : self.push head value hhead = .ok after) :
    after.heads = self.heads ++ [head] := by
  unfold push at h
  split at h
  · cases h
  · split at h
    · obtain rfl := Outcome.ok.inj h
      rfl
    · cases h
    · cases h

theorem push_of_overlong (h : maxPduLen < self.data.asSlice.length + value.length) :
    self.push head value hhead = .err ⟨⟩ := by
  unfold push
  split
  · rfl
  · split
    · next heq =>
      rw [PduBytes.extendFromSlice_of_lt h] at heq
      cases heq
    · rfl
    · next heq =>
      rw [PduBytes.extendFromSlice_of_lt h] at heq
      cases heq

theorem entries_of_push {after : FlatList κ size capacity} (h : self.push head value hhead = .ok after) :
    after.entries = self.entries ++ [(head, value)] := by
  have hle := self.count_le
  rw [← length_entries] at hle
  rcases hle.lt_or_eq with hcount | hfull
  · rcases Nat.lt_or_ge maxPduLen (self.data.asSlice.length + value.length) with hover | hdata
    · rw [push_of_overlong hover] at h
      cases h
    · obtain ⟨after', hok, hentries, -⟩ := push_of_room hcount hdata
      obtain rfl := Outcome.ok.inj (h.symm.trans hok)
      exact hentries
  · rw [push_of_full hfull] at h
    cases h

end FlatList

/-! ### File records -/

/-- The most sub-requests that fit a PDU. -/
def maxFileRecordSubRequests : ℕ := 35

def maxFileRecords : ℕ := maxFileRecordSubRequests

def maxWriteFileRecordSubRequests : ℕ := maxFileRecordSubRequests

/-- The used part of a list of `maxFileRecordSubRequests` sub-requests. -/
structure FileRecordSubRequests where
  asSlice : List Protocol.FileRecordSubRequest
  len_le : asSlice.length ≤ maxFileRecordSubRequests
  deriving DecidableEq, Repr

namespace FileRecordSubRequests

def new : FileRecordSubRequests := ⟨[], by simp⟩

def len (self : FileRecordSubRequests) : ℕ := self.asSlice.length

def push (self : FileRecordSubRequests) (subRequest : Protocol.FileRecordSubRequest) :
    Outcome CapacityExceeded FileRecordSubRequests :=
  if h : self.asSlice.length = maxFileRecordSubRequests then .err ⟨⟩
  else .ok ⟨self.asSlice ++ [subRequest], by
    have := self.len_le
    rw [List.length_append, List.length_singleton]
    omega⟩

theorem push_of_room {self : FileRecordSubRequests} {subRequest : Protocol.FileRecordSubRequest}
    (h : self.asSlice.length < maxFileRecordSubRequests) :
    ∃ after, self.push subRequest = .ok after ∧ after.asSlice = self.asSlice ++ [subRequest] := by
  rw [push, dif_neg (by omega)]
  exact ⟨_, rfl, rfl⟩

end FileRecordSubRequests

/-- A length that fits a PDU survives a 16-bit field. -/
theorem toNat_ofNat_length {value : Bytes} (h : value.length ≤ maxPduLen) :
    (UInt16.ofNat value.length).toNat = value.length := by
  rw [maxPduLen] at h
  rw [UInt16.ofNat_toNat_mod]
  omega

/-- The head of a record is its length. -/
abbrev FileRecordResponseData : Type := FlatList UInt16 UInt16.toNat maxFileRecords

namespace FileRecordResponseData

def pushRecord (self : FileRecordResponseData) (record : Bytes) : Outcome CapacityExceeded FileRecordResponseData :=
  FlatList.push self (UInt16.ofNat record.length) record toNat_ofNat_length

def record (self : FileRecordResponseData) (i : ℕ) : Outcome ε (Option Bytes) :=
  (FlatList.entry self i).map fun entry => entry.map Prod.snd

/-- The records as a list. -/
def records (self : FileRecordResponseData) : List Bytes := (FlatList.entries self).map Prod.snd

variable {self : FileRecordResponseData} {record : Bytes}

theorem pushRecord_of_full (h : self.records.length = maxFileRecords) : self.pushRecord record = .err ⟨⟩ :=
  FlatList.push_of_full (by rwa [records, List.length_map] at h)

theorem pushRecord_of_room (hcount : self.records.length < maxFileRecords)
    (hdata : self.data.asSlice.length + record.length ≤ maxPduLen) :
    ∃ after, self.pushRecord record = .ok after ∧ after.records = self.records ++ [record] ∧
      after.data.asSlice = self.data.asSlice ++ record := by
  rw [records, List.length_map] at hcount
  obtain ⟨after, hok, hentries, hslice⟩ := FlatList.push_of_room hcount hdata
  exact ⟨after, hok, by simp [records, hentries], hslice⟩

end FileRecordResponseData

/-- The record a sub-request names and the length of the data it writes there. -/
structure WriteFileRecordHead where
  fileNumber : UInt16
  recordNumber : UInt16
  recordDataLength : UInt16
  deriving DecidableEq, Repr

abbrev WriteFileRecordSubRequests : Type :=
  FlatList WriteFileRecordHead (fun head => head.recordDataLength.toNat) maxWriteFileRecordSubRequests

namespace WriteFileRecordSubRequests

def push (self : WriteFileRecordSubRequests) (fileNumber recordNumber : UInt16) (recordData : Bytes) :
    Outcome CapacityExceeded WriteFileRecordSubRequests :=
  FlatList.push self ⟨fileNumber, recordNumber, UInt16.ofNat recordData.length⟩ recordData toNat_ofNat_length

def ofEntry (entry : WriteFileRecordHead × Bytes) : Protocol.WriteFileRecordSubRequest :=
  ⟨entry.1.fileNumber, entry.1.recordNumber, entry.2⟩

def subRequest (self : WriteFileRecordSubRequests) (i : ℕ) :
    Outcome ε (Option Protocol.WriteFileRecordSubRequest) :=
  (FlatList.entry self i).map fun entry => entry.map ofEntry

/-- The sub-requests as a list. -/
def subRequests (self : WriteFileRecordSubRequests) : List Protocol.WriteFileRecordSubRequest :=
  (FlatList.entries self).map ofEntry

variable {self : WriteFileRecordSubRequests} {recordData : Bytes}

theorem push_of_room (fileNumber recordNumber : UInt16)
    (hcount : self.subRequests.length < maxWriteFileRecordSubRequests)
    (hdata : self.data.asSlice.length + recordData.length ≤ maxPduLen) :
    ∃ after, self.push fileNumber recordNumber recordData = .ok after ∧
      after.subRequests = self.subRequests ++ [⟨fileNumber, recordNumber, recordData⟩] ∧
      after.data.asSlice = self.data.asSlice ++ recordData := by
  rw [subRequests, List.length_map] at hcount
  obtain ⟨after, hok, hentries, hslice⟩ := FlatList.push_of_room hcount hdata
  exact ⟨after, hok, by simp [subRequests, hentries, ofEntry], hslice⟩

end WriteFileRecordSubRequests

/-! ### Identification objects -/

/-- The most objects of one response. -/
def maxDeviceIdentificationObjects : ℕ := 84

/-- An object's id and the length of its value. -/
structure DeviceIdentificationHead where
  id : UInt8
  length : UInt8
  deriving DecidableEq, Repr

abbrev DeviceIdentificationObjects : Type :=
  FlatList DeviceIdentificationHead (fun head => head.length.toNat) maxDeviceIdentificationObjects

namespace DeviceIdentificationObjects

def push (self : DeviceIdentificationObjects) (id : UInt8) (value : Bytes) :
    Outcome CapacityExceeded DeviceIdentificationObjects :=
  if hvalue : 255 < value.length then .err ⟨⟩
  else FlatList.push self ⟨id, UInt8.ofNat value.length⟩ value fun _ => by
    rw [UInt8.ofNat_toNat_mod]
    omega

def ofEntry (entry : DeviceIdentificationHead × Bytes) : Protocol.DeviceIdentificationObject :=
  ⟨entry.1.id, entry.2⟩

def object (self : DeviceIdentificationObjects) (i : ℕ) : Outcome ε (Option Protocol.DeviceIdentificationObject) :=
  (FlatList.entry self i).map fun entry => entry.map ofEntry

/-- The objects as a list. -/
def objects (self : DeviceIdentificationObjects) : List Protocol.DeviceIdentificationObject :=
  (FlatList.entries self).map ofEntry

variable {self : DeviceIdentificationObjects} {value : Bytes}

theorem push_of_full (id : UInt8) (h : self.objects.length = maxDeviceIdentificationObjects) :
    self.push id value = .err ⟨⟩ := by
  unfold push
  split
  · rfl
  · exact FlatList.push_of_full (by rwa [objects, List.length_map] at h)

theorem push_of_room (id : UInt8) (hcount : self.objects.length < maxDeviceIdentificationObjects)
    (hdata : self.data.asSlice.length + value.length ≤ maxPduLen) :
    ∃ after, self.push id value = .ok after ∧ after.objects = self.objects ++ [⟨id, value⟩] ∧
      after.data.asSlice = self.data.asSlice ++ value := by
  have hmax : maxPduLen = 253 := rfl
  rw [objects, List.length_map] at hcount
  rw [push, dif_neg (by omega)]
  obtain ⟨after, hok, hentries, hslice⟩ := FlatList.push_of_room hcount hdata
  exact ⟨after, hok, by simp [objects, hentries, ofEntry], hslice⟩

end DeviceIdentificationObjects

end InfusedModbus.ProtocolCore
