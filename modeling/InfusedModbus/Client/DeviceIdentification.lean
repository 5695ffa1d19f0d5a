import InfusedModbus.Foundation.Loop
import InfusedModbus.Server.ResponseSize

/-! Asking a server for its device description. The client requests objects from the
presence flag on and follows the continuation as long as more objects are announced;
whatever goes wrong makes it fall back to a local description. Against the objects a
server builds from a text, every response brings at least one new object, and the
pieces collected are the text. -/

namespace InfusedModbus.Client

open Foundation Foundation.Outcome Protocol

/-- What a connection brings back for a request PDU; none when the request fails. -/
abbrev Connection := Bytes → Option Bytes

/-- A response that is no exception. -/
def exchange (connection : Connection) (requestPdu : Bytes) : Outcome Unit Bytes :=
  match connection requestPdu with
  | none => .err ()
  | some responsePdu => letOk (ExceptionResponse.decode responsePdu) (.ok responsePdu) fun _ => .err ()

theorem exchange_of_answer {connection : Connection} {requestPdu responsePdu : Bytes}
    (h : connection requestPdu = some responsePdu) (hsuccess : ¬Server.IsException responsePdu) :
    exchange connection requestPdu = .ok responsePdu := by
  rw [exchange, h]
  cases hdec : ExceptionResponse.decode responsePdu with
  | ok e => exact absurd ⟨e, hdec⟩ hsuccess
  | err e => simp only [hdec, letOk_err]
  | panic => exact absurd hdec (ExceptionResponse.decode_ne_panic responsePdu)

def presenceObjectId : UInt8 := 0x80
def firstTomlChunkObjectId : UInt8 := 0x81

/-- The next object to ask for and the pieces collected so far. -/
structure FetchState where
  objectId : UInt8
  chunks : List Bytes

/-- The loop over the objects of a response. -/
def collectObjects : List DeviceIdentificationObject → List Bytes → Outcome Unit (List Bytes)
  | [], chunks => .ok chunks
  | object :: objects, chunks =>
    if object.id = presenceObjectId then
      if object.value.head? ≠ some 1 then .err () else collectObjects objects chunks
    else if object.id ≥ firstTomlChunkObjectId then collectObjects objects (chunks ++ [object.value])
    else collectObjects objects chunks

/-- One request of the fetching loop. -/
def fetchTurn (connection : Connection) (state : FetchState) : Outcome Unit (Turn FetchState (List Bytes)) := do
  let responsePdu ← exchange connection (ReadDeviceIdentificationRequest.mk readDeviceIdExtended state.objectId).encode
  letOk (ReadDeviceIdentificationResponse.decode responsePdu) (.err ()) fun response => do
    let chunks ← collectObjects response.objects state.chunks
    if response.moreFollows then .ok (.again ⟨response.nextObjectId, chunks⟩) else .ok (.done chunks)

/-- The pieces of the description after at most so many requests. -/
def fetchChunks (connection : Connection) (requests : ℕ) : Option (Outcome Unit (List Bytes)) :=
  loop (fetchTurn connection) requests ⟨presenceObjectId, []⟩

/-- A connection to the handler that serves some objects. -/
def identificationServer (objects : List DeviceIdentificationObject) : Connection := fun requestPdu =>
  match ReadDeviceIdentificationRequest.decode requestPdu with
  | .ok request => some (Server.handleReadDeviceIdentification request objects)
  | _ => none

/-! ### Objects that can be served -/

/-- Objects of distinct ids that fit a response each: presence flags that are set, and
pieces. -/
structure Servable (objects : List DeviceIdentificationObject) : Prop where
  distinct : objects.Pairwise fun object other => object.id ≠ other.id
  fits : ∀ object ∈ objects, object.value.length ≤ Server.maxTomlChunkLen
  offered : ∀ object ∈ objects, object.id = presenceObjectId ∧ object.value = [1] ∨
    presenceObjectId < object.id

/-- The pieces among some objects. -/
def chunkValues (objects : List DeviceIdentificationObject) : List Bytes :=
  (objects.filter fun object => object.id ≠ presenceObjectId).map DeviceIdentificationObject.value

theorem chunkValues_append (as bs : List DeviceIdentificationObject) :
    chunkValues (as ++ bs) = chunkValues as ++ chunkValues bs := by
  simp [chunkValues]

/-- The loop over the objects collects the pieces. -/
theorem collectObjects_eq {objects : List DeviceIdentificationObject}
    (h : ∀ object ∈ objects, object.id = presenceObjectId ∧ object.value = [1] ∨ presenceObjectId < object.id)
    (chunks : List Bytes) : collectObjects objects chunks = .ok (chunks ++ chunkValues objects) := by
  induction objects generalizing chunks with
  | nil => simp [collectObjects, chunkValues]
  | cons object objects ih =>
    rw [List.forall_mem_cons] at h
    rw [collectObjects]
    rcases h.1 with ⟨hid, hvalue⟩ | hid
    · rw [if_pos hid, if_neg (by simp [hvalue]), ih h.2]
      simp [chunkValues, hid]
    · have hne : object.id ≠ presenceObjectId := fun heq => absurd (heq ▸ hid) (by decide)
      have hchunk : object.id ≥ firstTomlChunkObjectId := by
        rw [ge_iff_le, UInt8.le_iff_toNat_le]
        rw [UInt8.lt_iff_toNat_lt] at hid
        exact hid
      rw [if_neg hne, if_pos hchunk, ih h.2]
      simp [chunkValues, hne]

section Turn

variable {objects : List DeviceIdentificationObject}

/-- The handler starts at the object asked for. -/
theorem findIdx_of_servable (h : Servable objects) {k : ℕ} (hk : k < objects.length) :
    (objects.findIdx? fun object => object.id == objects[k].id) = some k := by
  rw [List.findIdx?_eq_some_iff_getElem]
  refine ⟨hk, by simp, fun j hj => ?_⟩
  have hne := List.pairwise_iff_getElem.mp h.distinct j k (by omega) hk hj
  simpa using hne

/-- A request for an object brings back the run of objects that starts with it and
fits, and the id of the object after the run. -/
theorem handleReadDeviceIdentification_of_servable (h : Servable objects) {k : ℕ} (hk : k < objects.length) :
    ∃ n, 0 < n ∧ k + n ≤ objects.length ∧
      Server.handleReadDeviceIdentification ⟨readDeviceIdExtended, objects[k].id⟩ objects =
        (match objects[k + n]? with
        | some next => Server.objectsResponse true next.id ((objects.drop k).take n)
        | none => Server.objectsResponse false 0 ((objects.drop k).take n)).encode ∧
      7 + Server.objectsLen ((objects.drop k).take n) ≤ maxPduLen := by
  obtain ⟨n, hpack, hn, hfit, hstop⟩ := Server.packObjects_spec objects k [] hk.le (by decide)
  rw [List.nil_append] at hpack hfit hstop
  refine ⟨n, ?_, hn, ?_, hfit⟩
  · -- an object on its own always fits
    by_contra hzero
    obtain rfl : n = 0 := by omega
    have hlen := h.fits objects[k] (List.getElem_mem hk)
    have hover := hstop objects[k] (by rw [Nat.add_zero, List.getElem?_eq_getElem hk])
    have hmax : maxPduLen = 253 := rfl
    have hchunk : Server.maxTomlChunkLen = 244 := rfl
    simp only [List.take_zero, Server.objectsLen_nil] at hover
    omega
  · rw [Server.handleReadDeviceIdentification, if_neg (by simp)]
    simp only [findIdx_of_servable h hk, hpack]
    split <;> simp_all

/-- One request collects the pieces of a run of objects, and the loop goes on exactly
when objects are left. -/
theorem fetchTurn_of_servable (h : Servable objects) {k : ℕ} (hk : k < objects.length) (chunks : List Bytes) :
    ∃ n, 0 < n ∧ k + n ≤ objects.length ∧
      fetchTurn (identificationServer objects) ⟨objects[k].id, chunks⟩ =
        .ok (match objects[k + n]? with
        | some next => .again ⟨next.id, chunks ++ chunkValues ((objects.drop k).take n)⟩
        | none => .done (chunks ++ chunkValues ((objects.drop k).take n))) := by
  obtain ⟨n, hpos, hn, hanswer, hfit⟩ := handleReadDeviceIdentification_of_servable h hk
  refine ⟨n, hpos, hn, ?_⟩
  have hrun : ∀ object ∈ (objects.drop k).take n,
      object.id = presenceObjectId ∧ object.value = [1] ∨ presenceObjectId < object.id :=
    fun object hobject => h.offered object (List.mem_of_mem_drop (List.mem_of_mem_take hobject))
  have hserver : identificationServer objects
      (ReadDeviceIdentificationRequest.mk readDeviceIdExtended objects[k].id).encode = some
        (Server.handleReadDeviceIdentification ⟨readDeviceIdExtended, objects[k].id⟩ objects) := by
    rw [identificationServer, ReadDeviceIdentificationRequest.decode_encode]
  have hdec : ∀ moreFollows nextObjectId, ReadDeviceIdentificationResponse.decode
      (Server.objectsResponse moreFollows nextObjectId ((objects.drop k).take n)).encode =
        .ok (Server.objectsResponse moreFollows nextObjectId ((objects.drop k).take n)) := fun _ _ =>
    decode_readDeviceIdentificationResponse_encode (by rw [Server.length_objectsResponse]; exact hfit)
  rw [hanswer] at hserver
  rw [fetchTurn, exchange_of_answer hserver (Server.not_isException_of_head rfl (by decide)), ok_bind]
  cases objects[k + n]? with
  | none =>
    simp only [hdec, letOk_ok]
    simp only [Server.objectsResponse, collectObjects_eq hrun, ok_bind, Bool.false_eq_true, if_false]
  | some next =>
    simp only [hdec, letOk_ok]
    simp only [Server.objectsResponse, collectObjects_eq hrun, ok_bind, if_true]

/-- From the first object on, the loop collects all pieces in at most one request for
each object. -/
theorem fetch_of_servable (h : Servable objects) {first : DeviceIdentificationObject}
    {rest : List DeviceIdentificationObject} (hfirst : objects = first :: rest) :
    ∃ requests ≤ objects.length,
      loop (fetchTurn (identificationServer objects)) requests ⟨first.id, []⟩ = some (.ok (chunkValues objects)) := by
  -- with `n` requests left after this one, the object before the last `n` is asked for
  let inv : ℕ → FetchState → Prop := fun n state => ∃ k, ∃ hk : k < objects.length, k + n + 1 = objects.length ∧
    state = ⟨objects[k].id, chunkValues (objects.take k)⟩
  have hbody : ∀ n state, inv n state →
      (∃ r, loop (fetchTurn (identificationServer objects)) 1 state = some r ∧ r = .ok (chunkValues objects)) ∨
      ∃ m < n, ∃ state', fetchTurn (identificationServer objects) state = .ok (.again state') ∧ inv m state' := by
    rintro n state ⟨k, hk, hkn, rfl⟩
    obtain ⟨j, hpos, hj, hturn⟩ := fetchTurn_of_servable h hk (chunkValues (objects.take k))
    have htake : objects.take (k + j) = objects.take k ++ (objects.drop k).take j := List.take_add
    rw [← chunkValues_append, ← htake] at hturn
    by_cases hmore : k + j < objects.length
    · rw [List.getElem?_eq_getElem hmore] at hturn
      exact .inr ⟨n - j, by omega, _, hturn, k + j, hmore, by omega, rfl⟩
    · rw [List.getElem?_eq_none (by omega), List.take_of_length_le (i := k + j) (by omega)] at hturn
      exact .inl ⟨_, loop_of_done hturn 0, rfl⟩
  have hlen : 0 < objects.length := by simp [hfirst]
  have hstart : inv (objects.length - 1) ⟨first.id, []⟩ :=
    ⟨0, hlen, by omega, by subst hfirst; simp [chunkValues]⟩
  obtain ⟨requests, hrequests, r, hr, rfl⟩ := loop_ends hbody hstart
  exact ⟨requests, by omega, hr⟩

end Turn

/-! ### The description of a server -/

section Description

variable {pieces : List Bytes}

theorem presence_lt_of_mem_chunkObjects (hlen : pieces.length ≤ Server.chunksAvailable) :
    ∀ object ∈ Server.chunkObjects pieces 0, presenceObjectId < object.id := by
  intro object hobject
  have hfirst : Server.firstTomlChunkObjectId.toNat = 129 := rfl
  have havail : Server.chunksAvailable = 127 := rfl
  have hpresence : presenceObjectId.toNat = 128 := rfl
  obtain ⟨i, _, hi, hid, _⟩ := Server.mem_chunkObjects hobject
  rw [hid, UInt8.lt_iff_toNat_lt, UInt8.toNat_ofNat_of_lt' (by simp [UInt8.size]; omega)]
  omega

/-- The presence flag and the pieces can be served as long as there are ids. -/
theorem servable_description (hlen : pieces.length ≤ Server.chunksAvailable)
    (hsize : ∀ piece ∈ pieces, piece.length ≤ Server.maxTomlChunkLen) :
    Servable (⟨Server.presenceObjectId, [0x01]⟩ :: Server.chunkObjects pieces 0) := by
  have hid := presence_lt_of_mem_chunkObjects hlen
  refine ⟨List.pairwise_cons.mpr ⟨fun object hobject heq => ?_, Server.pairwise_chunkObjects (by omega)⟩,
    List.forall_mem_cons.mpr ⟨by decide, fun object hobject => ?_⟩,
    List.forall_mem_cons.mpr ⟨.inl ⟨rfl, rfl⟩, fun object hobject => .inr (hid object hobject)⟩⟩
  · exact absurd (heq ▸ hid object hobject) (by decide)
  · obtain ⟨_, _, _, _, hvalue⟩ := Server.mem_chunkObjects hobject
    exact hsize _ hvalue

theorem chunkValues_description (hlen : pieces.length ≤ Server.chunksAvailable) :
    chunkValues (⟨Server.presenceObjectId, [0x01]⟩ :: Server.chunkObjects pieces 0) = pieces := by
  have hid : ∀ object ∈ Server.chunkObjects pieces 0, decide (object.id ≠ presenceObjectId) = true := by
    intro object hobject
    rw [decide_eq_true_eq]
    exact fun heq => absurd (heq ▸ presence_lt_of_mem_chunkObjects hlen object hobject) (by decide)
  rw [chunkValues, List.filter_cons_of_neg (by decide), List.filter_eq_self.mpr hid, Server.map_value_chunkObjects]

/-- The pieces are collected in at most 128 requests. -/
theorem fetchChunks_description (hlen : pieces.length ≤ Server.chunksAvailable)
    (hsize : ∀ piece ∈ pieces, piece.length ≤ Server.maxTomlChunkLen) :
    ∃ requests ≤ 128, fetchChunks (identificationServer
      (⟨Server.presenceObjectId, [0x01]⟩ :: Server.chunkObjects pieces 0)) requests = some (.ok pieces) := by
  have havail : Server.chunksAvailable = 127 := rfl
  obtain ⟨requests, hrequests, hfetch⟩ := fetch_of_servable (servable_description hlen hsize) rfl
  rw [chunkValues_description hlen] at hfetch
  rw [List.length_cons, Server.length_chunkObjects] at hrequests
  exact ⟨requests, by omega, hfetch⟩

end Description

/-- A text of at most 127 pieces is transferred exactly, in at most 128 requests and in
responses that fit a PDU; of a longer one the server says how many pieces it has. -/
theorem description_transfer_exact (tomlSource : String) :
    ((Server.utf8 tomlSource).length ≤ 127 * 244 →
      ∃ objects, Server.buildObjects tomlSource = .ok objects ∧
        (∀ request, (Server.handleReadDeviceIdentification request objects).length ≤ maxPduLen) ∧
        ∃ requests ≤ 128, ∃ chunks, fetchChunks (identificationServer objects) requests = some (.ok chunks) ∧
          chunks.flatten = Server.utf8 tomlSource) ∧
    (127 * 244 < (Server.utf8 tomlSource).length →
      Server.buildObjects tomlSource = .error ⟨divCeil (Server.utf8 tomlSource).length 244, 127⟩) := by
  have havail : Server.chunksAvailable = 127 := rfl
  have hcount : (chunks Server.maxTomlChunkLen (Server.utf8 tomlSource)).length =
      ((Server.utf8 tomlSource).length + 244 - 1) / 244 := length_chunks (by decide) _
  constructor
  · intro hlen
    have hpieces : (chunks Server.maxTomlChunkLen (Server.utf8 tomlSource)).length ≤ Server.chunksAvailable := by
      omega
    obtain ⟨requests, hrequests, hfetch⟩ := fetchChunks_description hpieces fun piece hpiece =>
      (mem_chunks (by decide) piece hpiece).2
    exact ⟨_, Server.buildObjects_of_le hpieces,
      fun request => (Server.wellFormed_handleReadDeviceIdentification request _).fits, requests, hrequests, _,
      hfetch, flatten_chunks (by decide) _⟩
  · intro hlen
    rw [Server.buildObjects, Server.buildChunkObjects_of_gt (by omega) (by omega)]
    rfl

/-- A text of nothing but a comment. -/
def commentToml (n : ℕ) : String := String.ofList (List.replicate n '#')

theorem length_commentToml (n : ℕ) : (Server.utf8 (commentToml n)).length = n := by
  rw [Server.utf8, commentToml, String.toUTF8_eq_toByteArray, String.toByteArray_ofList, List.utf8Encode,
    List.data_toByteArray, List.length_flatMap, List.map_replicate, String.length_utf8EncodeChar,
    List.sum_replicate_nat, show '#'.utf8Size = 1 by decide, Nat.mul_one]

/-- Of two comments one is transferred in three pieces, and one has 128, one too many. -/
theorem description_transfer_exact_comment :
    (∃ objects, Server.buildObjects (commentToml 600) = .ok objects ∧
      (∀ request, (Server.handleReadDeviceIdentification request objects).length ≤ maxPduLen) ∧
      ∃ requests ≤ 128, ∃ chunks, fetchChunks (identificationServer objects) requests = some (.ok chunks) ∧
        chunks.flatten = Server.utf8 (commentToml 600)) ∧
    Server.buildObjects (commentToml 31000) = .error ⟨128, 127⟩ := by
  have hlong := (description_transfer_exact (commentToml 31000)).2 (by rw [length_commentToml]; decide)
  rw [length_commentToml] at hlong
  exact ⟨(description_transfer_exact (commentToml 600)).1 (by rw [length_commentToml]; decide), hlong⟩

end InfusedModbus.Client
