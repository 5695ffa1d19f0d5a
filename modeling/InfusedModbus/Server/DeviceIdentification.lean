import InfusedModbus.Foundation.Chunks
import InfusedModbus.Server.MachineState

/-! Serving the device description as the private objects of Read Device
Identification: object 0x80 says that there is one, the objects from 0x81 on carry
its text in pieces. A response takes as many objects as fit and names the next one. -/

namespace InfusedModbus.Server

open Foundation Protocol

def presenceObjectId : UInt8 := 0x80
def firstTomlChunkObjectId : UInt8 := 0x81
def extendedStreamConformityLevel : UInt8 := 0x03

/-- The longest piece that fits a response of its own: 7 + 2 + 244 is a whole PDU. -/
def maxTomlChunkLen : ℕ := 244

/-- The text needs more pieces than there are object ids for them. -/
structure TooLargeForFc43 where
  chunksNeeded : ℕ
  chunksAvailable : ℕ
  deriving DecidableEq, Repr

def chunksAvailable : ℕ := 0xFF - firstTomlChunkObjectId.toNat + 1

/-- The loop over the pieces: number them from `index` on until the ids run out. -/
def buildChunkObjects (tomlSource : Bytes) : List Bytes → ℕ → Except TooLargeForFc43 (List DeviceIdentificationObject)
  | [], _ => .ok []
  | chunk :: rest, index =>
    let id := firstTomlChunkObjectId.toNat + index
    if id > 0xFF then .error ⟨divCeil tomlSource.length maxTomlChunkLen, chunksAvailable⟩
    else
      match buildChunkObjects tomlSource rest (index + 1) with
      | .error e => .error e
      | .ok objects => .ok (⟨UInt8.ofNat id, chunk⟩ :: objects)

/-- The presence flag and the pieces of the text. -/
def buildObjects (tomlSource : String) : Except TooLargeForFc43 (List DeviceIdentificationObject) :=
  match buildChunkObjects (utf8 tomlSource) (chunks maxTomlChunkLen (utf8 tomlSource)) 0 with
  | .error e => .error e
  | .ok objects => .ok (⟨presenceObjectId, [0x01]⟩ :: objects)

/-- The objects numbered from `index` on. -/
def chunkObjects : List Bytes → ℕ → List DeviceIdentificationObject
  | [], _ => []
  | chunk :: rest, index =>
    ⟨UInt8.ofNat (firstTomlChunkObjectId.toNat + index), chunk⟩ :: chunkObjects rest (index + 1)

theorem buildChunkObjects_of_le {tomlSource : Bytes} {pieces : List Bytes} {index : ℕ}
    (h : index + pieces.length ≤ chunksAvailable) :
    buildChunkObjects tomlSource pieces index = .ok (chunkObjects pieces index) := by
  induction pieces generalizing index with
  | nil => rfl
  | cons chunk rest ih =>
    have hid : firstTomlChunkObjectId.toNat = 129 := rfl
    have havail : chunksAvailable = 127 := rfl
    simp only [List.length_cons] at h
    rw [buildChunkObjects, if_neg (by omega), ih (by omega), chunkObjects]

theorem buildObjects_of_le {tomlSource : String}
    (h : (chunks maxTomlChunkLen (utf8 tomlSource)).length ≤ chunksAvailable) :
    buildObjects tomlSource =
      .ok (⟨presenceObjectId, [0x01]⟩ :: chunkObjects (chunks maxTomlChunkLen (utf8 tomlSource)) 0) := by
  rw [buildObjects, buildChunkObjects_of_le (by omega)]

theorem buildChunkObjects_of_gt {tomlSource : Bytes} {pieces : List Bytes} {index : ℕ}
    (hindex : index ≤ chunksAvailable) (h : chunksAvailable < index + pieces.length) :
    buildChunkObjects tomlSource pieces index =
      .error ⟨divCeil tomlSource.length maxTomlChunkLen, chunksAvailable⟩ := by
  induction pieces generalizing index with
  | nil => simp only [List.length_nil] at h; omega
  | cons chunk rest ih =>
    have hid : firstTomlChunkObjectId.toNat = 129 := rfl
    have havail : chunksAvailable = 127 := rfl
    simp only [List.length_cons] at h
    rw [buildChunkObjects]
    by_cases hover : firstTomlChunkObjectId.toNat + index > 0xFF
    · rw [if_pos hover]
    · rw [if_neg hover, ih (by omega) (by omega)]

/-- The numbered objects carry the pieces under consecutive ids. -/
theorem mem_chunkObjects {pieces : List Bytes} {index : ℕ} {object : DeviceIdentificationObject}
    (h : object ∈ chunkObjects pieces index) : ∃ i, index ≤ i ∧ i < index + pieces.length ∧
      object.id = UInt8.ofNat (firstTomlChunkObjectId.toNat + i) ∧ object.value ∈ pieces := by
  induction pieces generalizing index with
  | nil => cases h
  | cons piece pieces ih =>
    rcases List.mem_cons.mp h with rfl | h
    · exact ⟨index, le_refl index, by simp, rfl, by simp⟩
    · obtain ⟨i, hlow, hhigh, hid, hvalue⟩ := ih h
      rw [List.length_cons]
      exact ⟨i, by omega, by omega, hid, List.mem_cons_of_mem _ hvalue⟩

theorem map_value_chunkObjects (pieces : List Bytes) (index : ℕ) :
    (chunkObjects pieces index).map DeviceIdentificationObject.value = pieces := by
  induction pieces generalizing index with
  | nil => rfl
  | cons piece pieces ih => rw [chunkObjects, List.map_cons, ih]

@[simp] theorem length_chunkObjects (pieces : List Bytes) (index : ℕ) :
    (chunkObjects pieces index).length = pieces.length := by
  rw [← List.length_map DeviceIdentificationObject.value, map_value_chunkObjects]

/-- As long as the ids do not run out they are distinct. -/
theorem pairwise_chunkObjects {pieces : List Bytes} {index : ℕ} (h : index + pieces.length ≤ chunksAvailable) :
    (chunkObjects pieces index).Pairwise fun object other => object.id ≠ other.id := by
  induction pieces generalizing index with
  | nil => exact List.Pairwise.nil
  | cons piece pieces ih =>
    simp only [List.length_cons] at h
    refine List.pairwise_cons.mpr ⟨fun other hother heq => ?_, ih (by omega)⟩
    obtain ⟨i, hlow, hhigh, hid, _⟩ := mem_chunkObjects hother
    have hfirst : firstTomlChunkObjectId.toNat = 129 := rfl
    have havail : chunksAvailable = 127 := rfl
    have htoNat := congrArg UInt8.toNat (heq.trans hid)
    rw [UInt8.toNat_ofNat_of_lt' (by simp [UInt8.size]; omega),
      UInt8.toNat_ofNat_of_lt' (by simp [UInt8.size]; omega)] at htoNat
    omega

/-! ### Packing objects into a response -/

/-- The response that carries some objects. -/
def objectsResponse (moreFollows : Bool) (nextObjectId : UInt8) (objects : List DeviceIdentificationObject) :
    ReadDeviceIdentificationResponse :=
  ⟨readDeviceIdExtended, extendedStreamConformityLevel, moreFollows, nextObjectId, objects⟩

/-- The greedy loop: push the next object, measure the response, and take it back
when it grew too long. Returns what was taken and where the loop stopped. -/
def packObjects (allObjects : List DeviceIdentificationObject) (nextIndex : ℕ)
    (objects : List DeviceIdentificationObject) : List DeviceIdentificationObject × ℕ :=
  if _h : nextIndex < allObjects.length then
    let pushed := objects ++ [allObjects[nextIndex]]
    let nextObjectId := match allObjects[nextIndex + 1]? with
      | some object => object.id
      | none => 0
    if (objectsResponse true nextObjectId pushed).encode.length > maxPduLen then (objects, nextIndex)
    else packObjects allObjects (nextIndex + 1) pushed
  else (objects, nextIndex)
termination_by allObjects.length - nextIndex

def handleReadDeviceIdentification (request : ReadDeviceIdentificationRequest)
    (allObjects : List DeviceIdentificationObject) : Bytes :=
  if request.readDeviceIdCode ≠ readDeviceIdExtended then
    exception functionCodeEncapsulatedInterfaceTransport exceptionIllegalFunction
  else
    match allObjects.findIdx? fun object => object.id == request.objectId with
    | none => exception functionCodeEncapsulatedInterfaceTransport exceptionIllegalDataAddress
    | some startIndex =>
      let packed := packObjects allObjects startIndex []
      match allObjects[packed.2]? with
      | some next => (objectsResponse true next.id packed.1).encode
      | none => (objectsResponse false 0 packed.1).encode

/-- The bytes a list of objects takes in a response. -/
def objectsLen (objects : List DeviceIdentificationObject) : ℕ :=
  (objects.map fun object => 2 + object.value.length).sum

@[simp] theorem objectsLen_nil : objectsLen [] = 0 := rfl

@[simp] theorem objectsLen_append (as bs : List DeviceIdentificationObject) :
    objectsLen (as ++ bs) = objectsLen as + objectsLen bs := by
  simp [objectsLen]

@[simp] theorem objectsLen_singleton (object : DeviceIdentificationObject) :
    objectsLen [object] = 2 + object.value.length := by
  simp [objectsLen]

theorem length_objectsResponse (moreFollows : Bool) (nextObjectId : UInt8)
    (objects : List DeviceIdentificationObject) :
    (objectsResponse moreFollows nextObjectId objects).encode.length = 7 + objectsLen objects :=
  ReadDeviceIdentificationResponse.length_encode _

/-- The loop takes a run of objects that fit, and stops at the end or before the
first one that does not. -/
theorem packObjects_spec (allObjects : List DeviceIdentificationObject) (nextIndex : ℕ)
    (objects : List DeviceIdentificationObject) (hindex : nextIndex ≤ allObjects.length)
    (hfit : 7 + objectsLen objects ≤ maxPduLen) :
    ∃ k, packObjects allObjects nextIndex objects =
        (objects ++ (allObjects.drop nextIndex).take k, nextIndex + k) ∧
      nextIndex + k ≤ allObjects.length ∧
      7 + objectsLen (objects ++ (allObjects.drop nextIndex).take k) ≤ maxPduLen ∧
      ∀ object, allObjects[nextIndex + k]? = some object →
        maxPduLen < 7 + objectsLen (objects ++ (allObjects.drop nextIndex).take k) + (2 + object.value.length) := by
  induction hn : allObjects.length - nextIndex generalizing nextIndex objects with
  | zero =>
    refine ⟨0, ?_, by omega, by simpa using hfit, ?_⟩
    · rw [packObjects, dif_neg (by omega)]
      simp
    · intro object hobject
      rw [Nat.add_zero, List.getElem?_eq_none (by omega)] at hobject
      cases hobject
  | succ n ih =>
    have hlt : nextIndex < allObjects.length := by omega
    have hdrop : allObjects.drop nextIndex = allObjects[nextIndex] :: allObjects.drop (nextIndex + 1) :=
      List.drop_eq_getElem_cons hlt
    rw [packObjects, dif_pos hlt]
    dsimp only
    rw [length_objectsResponse, objectsLen_append, objectsLen_singleton]
    split
    · next hover =>
      refine ⟨0, by simp, by omega, by simpa using hfit, ?_⟩
      intro object hobject
      rw [Nat.add_zero, List.getElem?_eq_getElem hlt] at hobject
      obtain rfl := Option.some.inj hobject
      simp only [List.take_zero, List.append_nil]
      omega
    · next hfits =>
      obtain ⟨k, hpack, hk, hfitk, hstop⟩ := ih (nextIndex + 1) (objects ++ [allObjects[nextIndex]])
        (by omega) (by rw [objectsLen_append, objectsLen_singleton]; omega) (by omega)
      have htake : objects ++ (allObjects.drop nextIndex).take (k + 1) =
          (objects ++ [allObjects[nextIndex]]) ++ (allObjects.drop (nextIndex + 1)).take k := by
        rw [hdrop, List.take_succ_cons, List.append_assoc, List.singleton_append]
      have hidx : nextIndex + 1 + k = nextIndex + (k + 1) := by omega
      rw [hidx] at hpack hk hstop
      exact ⟨k + 1, by rw [hpack, htake], hk, by rwa [htake], by rwa [htake]⟩

end InfusedModbus.Server
