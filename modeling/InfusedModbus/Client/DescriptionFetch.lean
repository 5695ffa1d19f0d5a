import InfusedModbus.Client.BulkTransfer
import InfusedModbus.Client.Peer
import InfusedModbus.Protocol.Pdu.Progress

/-! Asking any peer for its device description. Which object is asked for next is the
peer's choice and is never checked, so a peer that always announces one more object is
asked forever. The records of a compressed description are numbered by the client, in 16
bits, so a description too long for that is asked for without an end as well. Apart from
these two the fetch comes to its end against every peer. -/

namespace InfusedModbus.Client

open Foundation Foundation.Outcome Protocol

/-- What comes from other libraries: parsing a manifest, and inflating within the limit. -/
structure DescriptionCodecs where
  parseManifest : String → Option DeviceDescriptionManifest
  decompress : Bytes → Option Bytes

def fromUtf8 (bytes : Bytes) : Option String := String.fromUTF8? ⟨bytes.toArray⟩

/-- The requests sent so far. -/
abbrev Sent := List (UInt8 × Bytes)

/-- What a peer brings back for one more request. -/
def Peer.connection (peer : Peer) (unitId : UInt8) (sent : Sent) : Connection := fun pdu =>
  match peer (sent ++ [(unitId, pdu)]) with
  | .ok responsePdu => some responsePdu
  | .error _ => none

def identificationRequest (objectId : UInt8) : Bytes :=
  (ReadDeviceIdentificationRequest.mk readDeviceIdExtended objectId).encode

/-- The request for a record there is a chunk for. -/
def recordRequest (manifest : DeviceDescriptionManifest) (recordNumber : UInt16) : Bytes :=
  let range := (bulkTransferChunkRange manifest.compressedLength.toNat recordNumber).getD (0, 0)
  (ReadFileRecordRequest.mk
    [⟨manifest.fileNumber, recordNumber, UInt16.ofNat (divCeil (range.2 - range.1) 2)⟩]).encode

section Fetch

variable (overflowChecks : Bool) (codecs : DescriptionCodecs) (peer : Peer) (unitId : UInt8)

/-- A turn of the first loop, which sends one request. -/
def identificationTurn (s : FetchState × Sent) : Outcome Unit (Turn (FetchState × Sent) (List Bytes × Sent)) := do
  let turn ← fetchTurn (peer.connection unitId s.2) s.1
  let sent := s.2 ++ [(unitId, identificationRequest s.1.objectId)]
  match turn with
  | .again state => .ok (.again (state, sent))
  | .done chunks => .ok (.done (chunks, sent))

/-- A turn of the second loop, which sends one request unless it is the last. -/
def recordTurn (manifest : DeviceDescriptionManifest) (s : BulkState × Sent) :
    Outcome Unit (Turn (BulkState × Sent) Bytes) := do
  let turn ← bulkTurn overflowChecks (peer.connection unitId s.2) manifest s.1
  match turn with
  | .again state => .ok (.again (state, s.2 ++ [(unitId, recordRequest manifest s.1.recordNumber)]))
  | .done compressed => .ok (.done compressed)

/-- The second loop and what is made of the bytes it fetched. -/
def fetchCompressedDeviceDescription (manifest : DeviceDescriptionManifest) (sent : Sent) (turns : ℕ) :
    Option (Outcome Empty (Option String)) :=
  match loop (recordTurn overflowChecks peer unitId manifest) turns (⟨0, []⟩, sent) with
  | none => none
  | some (.ok compressed) => some (.ok ((codecs.decompress compressed).bind fromUtf8))
  | some (.err ()) => some (.ok none)
  | some .panic => some .panic

/-- The fetch, either loop given so many turns; none when it is still going on after them. -/
def fetchDeviceDescription (turns : ℕ) : Option (Outcome Empty (Option String)) :=
  match loop (identificationTurn peer unitId) turns (⟨presenceObjectId, []⟩, []) with
  | none => none
  | some (.ok (chunks, sent)) =>
    match fromUtf8 chunks.flatten with
    | none => some (.ok none)
    | some tomlSource =>
      match codecs.parseManifest tomlSource with
      | none => some (.ok (some tomlSource))
      | some manifest => fetchCompressedDeviceDescription overflowChecks codecs peer unitId manifest sent turns
  | some (.err ()) => some (.ok none)
  | some .panic => some .panic

/-- The fetch comes to a description, or to none, in boundedly many requests. -/
def Returns : Prop :=
  ∃ turns result, fetchDeviceDescription overflowChecks codecs peer unitId turns = some (.ok result)

/-! ### What a peer answers -/

/-- An answer that the first loop goes by: no exception, objects, and no refusal. -/
def objectsAnswer (sent : Sent) (objectId : UInt8) : Option ReadDeviceIdentificationResponse :=
  match peer (sent ++ [(unitId, identificationRequest objectId)]) with
  | .error _ => none
  | .ok responsePdu =>
    match ExceptionResponse.decode responsePdu, ReadDeviceIdentificationResponse.decode responsePdu with
    | .err _, .ok response =>
      if ∀ object ∈ response.objects, object.id = presenceObjectId → object.value.head? = some 1 then some response
      else none
    | _, _ => none

/-- An answer that the second loop goes by: no exception, and a record. -/
def recordAnswer (sent : Sent) (requestPdu : Bytes) : Option Bytes :=
  match peer (sent ++ [(unitId, requestPdu)]) with
  | .error _ => none
  | .ok responsePdu =>
    match ExceptionResponse.decode responsePdu, ReadFileRecordResponse.decode responsePdu with
    | .err _, .ok response => response.records.head?
    | _, _ => none

/-- The pieces of the description in an answer. -/
def pieces (response : ReadDeviceIdentificationResponse) : List Bytes :=
  (response.objects.filter fun object => firstTomlChunkObjectId ≤ object.id).map DeviceIdentificationObject.value

/-- The requests for the first objects of a sequence. -/
def asked (objectIds : ℕ → UInt8) (k : ℕ) : Sent :=
  (List.range k).map fun j => (unitId, identificationRequest (objectIds j))

/-- Every answer announces one more object. -/
def AnnouncesForever : Prop :=
  ∃ objectIds : ℕ → UInt8, objectIds 0 = presenceObjectId ∧
    ∀ k, ∃ response, objectsAnswer peer unitId (asked unitId objectIds k) (objectIds k) = some response ∧
      response.moreFollows = true ∧ response.nextObjectId = objectIds (k + 1)

/-- The pieces that are sent from an object on, until an answer announces no more. -/
inductive Offers : Sent → UInt8 → List Bytes → Sent → Prop
  | last {sent : Sent} {objectId : UInt8} {response : ReadDeviceIdentificationResponse}
      (answer : objectsAnswer peer unitId sent objectId = some response) (stop : response.moreFollows = false) :
      Offers sent objectId (pieces response) (sent ++ [(unitId, identificationRequest objectId)])
  | more {sent sent' : Sent} {objectId : UInt8} {response : ReadDeviceIdentificationResponse} {chunks : List Bytes}
      (answer : objectsAnswer peer unitId sent objectId = some response) (continue_ : response.moreFollows = true)
      (rest : Offers (sent ++ [(unitId, identificationRequest objectId)]) response.nextObjectId chunks sent') :
      Offers sent objectId (pieces response ++ chunks) sent'

/-- The requests for the first records. -/
def askedRecords (manifest : DeviceDescriptionManifest) (k : ℕ) : Sent :=
  (List.range k).map fun j => (unitId, recordRequest manifest (UInt16.ofNat j))

/-- Every request for a record is answered with one: without overflow checks the numbers
start over after the last, with them the client does not get past it. -/
def AnswersEveryRecord (manifest : DeviceDescriptionManifest) (sent : Sent) : Prop :=
  ∀ k : ℕ, (overflowChecks = true → k ≤ 0xFFFF) →
    ∃ record, recordAnswer peer unitId (sent ++ askedRecords unitId manifest k)
      (recordRequest manifest (UInt16.ofNat k)) = some record

/-- The peer does not announce objects without an end; and where what it offers is the
announcement of a compressed description with a record 65535, some record is missing. -/
def EndsSomewhere : Prop :=
  ¬AnnouncesForever peer unitId ∧
    ∀ chunks sent tomlSource manifest, Offers peer unitId [] presenceObjectId chunks sent →
      fromUtf8 chunks.flatten = some tomlSource → codecs.parseManifest tomlSource = some manifest →
      0xFFFF * bulkTransferChunkBytes < manifest.compressedLength.toNat →
      ¬AnswersEveryRecord overflowChecks peer unitId manifest sent

end Fetch

/-! ### One turn -/

section Turns

variable {overflowChecks : Bool} {codecs : DescriptionCodecs} {peer : Peer} {unitId : UInt8} {sent : Sent}

/-- The objects of an answer are refused, or all their pieces are collected. -/
theorem collectObjects_cases (objects : List DeviceIdentificationObject) (chunks : List Bytes) :
    collectObjects objects chunks =
      if ∀ object ∈ objects, object.id = presenceObjectId → object.value.head? = some 1 then
        .ok (chunks ++ (objects.filter fun object => firstTomlChunkObjectId ≤ object.id).map
          DeviceIdentificationObject.value)
      else .err () := by
  induction objects generalizing chunks with
  | nil => simp [collectObjects]
  | cons object objects ih =>
    rw [collectObjects]
    by_cases hpresence : object.id = presenceObjectId
    · have hpiece : decide (firstTomlChunkObjectId ≤ object.id) = false := by rw [hpresence]; decide
      by_cases hflag : object.value.head? = some 1
      · rw [if_pos hpresence, if_neg (not_not_intro hflag), ih]
        simp only [List.filter_cons, hpiece, Bool.false_eq_true, if_false, List.forall_mem_cons, hflag, implies_true,
          true_and]
      · rw [if_pos hpresence, if_pos hflag, if_neg fun h => hflag (h object List.mem_cons_self hpresence)]
    · rw [if_neg hpresence]
      by_cases hpiece : firstTomlChunkObjectId ≤ object.id
      · rw [if_pos hpiece, ih]
        simp only [List.filter_cons, decide_eq_true hpiece, if_true, List.map_cons, List.forall_mem_cons, hpresence,
          IsEmpty.forall_iff, true_and, List.append_assoc, List.cons_append, List.nil_append]
      · rw [if_neg hpiece, ih]
        simp only [List.filter_cons, decide_eq_false hpiece, Bool.false_eq_true, if_false, List.forall_mem_cons,
          hpresence, IsEmpty.forall_iff, true_and]

/-- A turn of the first loop is what the answer makes of it. -/
theorem identificationTurn_eq (objectId : UInt8) (chunks : List Bytes) (sent : Sent) :
    identificationTurn peer unitId (⟨objectId, chunks⟩, sent) =
      match objectsAnswer peer unitId sent objectId with
      | none => .err ()
      | some response =>
        let sent' := sent ++ [(unitId, identificationRequest objectId)]
        if response.moreFollows then .ok (.again (⟨response.nextObjectId, chunks ++ pieces response⟩, sent'))
        else .ok (.done (chunks ++ pieces response, sent')) := by
  dsimp only [identificationTurn, fetchTurn, exchange, Peer.connection, objectsAnswer, identificationRequest]
  cases peer (sent ++ [(unitId, (ReadDeviceIdentificationRequest.mk readDeviceIdExtended objectId).encode)]) with
  | error e => rfl
  | ok responsePdu =>
    dsimp only
    cases hexception : ExceptionResponse.decode responsePdu with
    | ok exception => rfl
    | panic => exact absurd hexception (ExceptionResponse.decode_ne_panic responsePdu)
    | err e =>
      rw [letOk_err, ok_bind]
      cases hdec : ReadDeviceIdentificationResponse.decode responsePdu with
      | err e => rfl
      | panic => exact absurd hdec (ReadDeviceIdentificationResponse.decode_ne_panic responsePdu)
      | ok response =>
        rw [letOk_ok, collectObjects_cases]
        dsimp only
        split
        · rw [ok_bind]
          by_cases hmore : response.moreFollows = true
          · rw [if_pos hmore, ok_bind]
            dsimp only
            rw [if_pos hmore]
            rfl
          · rw [if_neg hmore, ok_bind]
            dsimp only
            rw [if_neg hmore]
            rfl
        · rfl

/-- A turn of the second loop is what the answer makes of it, as long as there is a record
to ask for. -/
theorem recordTurn_eq {manifest : DeviceDescriptionManifest} {recordNumber : UInt16} {range : ℕ × ℕ}
    (hrange : bulkTransferChunkRange manifest.compressedLength.toNat recordNumber = some range) (compressed : Bytes)
    (sent : Sent) :
    recordTurn overflowChecks peer unitId manifest (⟨recordNumber, compressed⟩, sent) =
      match recordAnswer peer unitId sent (recordRequest manifest recordNumber) with
      | none => .err ()
      | some record =>
        if overflowChecks ∧ recordNumber = 0xFFFF then .panic
        else .ok (.again (⟨recordNumber + 1, compressed ++ record⟩,
          sent ++ [(unitId, recordRequest manifest recordNumber)])) := by
  have hrequest : recordRequest manifest recordNumber = (ReadFileRecordRequest.mk
      [⟨manifest.fileNumber, recordNumber, UInt16.ofNat (divCeil (range.2 - range.1) 2)⟩]).encode := by
    rw [recordRequest, hrange]
    rfl
  rw [hrequest]
  simp only [recordTurn, bulkTurn, hrange, exchange, Peer.connection, recordAnswer, hrequest]
  cases peer (sent ++ [(unitId, (ReadFileRecordRequest.mk
      [⟨manifest.fileNumber, recordNumber, UInt16.ofNat (divCeil (range.2 - range.1) 2)⟩]).encode)]) with
  | error e => rfl
  | ok responsePdu =>
    dsimp only
    cases hexception : ExceptionResponse.decode responsePdu with
    | ok exception => rfl
    | panic => exact absurd hexception (ExceptionResponse.decode_ne_panic responsePdu)
    | err e =>
      rw [letOk_err, ok_bind]
      cases hdec : ReadFileRecordResponse.decode responsePdu with
      | err e => rfl
      | panic => exact absurd hdec (ReadFileRecordResponse.decode_ne_panic responsePdu)
      | ok response =>
        rw [letOk_ok]
        dsimp only
        cases response.records.head? with
        | none => rfl
        | some record =>
          dsimp only
          rw [incrementU16]
          split <;> rfl

end Turns

/-! ### The loop over the objects -/

section Objects

variable {peer : Peer} {unitId : UInt8}

/-- The loop goes on just where an answer announces one more object. -/
theorem identificationTurn_eq_again {s s' : FetchState × Sent} :
    identificationTurn peer unitId s = .ok (.again s') ↔
      ∃ response, objectsAnswer peer unitId s.2 s.1.objectId = some response ∧ response.moreFollows = true ∧
        s' = (⟨response.nextObjectId, s.1.chunks ++ pieces response⟩,
          s.2 ++ [(unitId, identificationRequest s.1.objectId)]) := by
  obtain ⟨⟨objectId, chunks⟩, sent⟩ := s
  rw [identificationTurn_eq]
  dsimp only
  cases hanswer : objectsAnswer peer unitId sent objectId with
  | none => simp
  | some response =>
    dsimp only
    by_cases hmore : response.moreFollows = true
    · rw [if_pos hmore]
      simp only [ok.injEq, Turn.again.injEq, Option.some.injEq, exists_eq_left', hmore, true_and]
      exact eq_comm
    · rw [if_neg hmore]
      simp [hmore]

/-- It ends with the pieces of an answer that announces no more. -/
theorem identificationTurn_eq_done {s : FetchState × Sent} {result : List Bytes × Sent} :
    identificationTurn peer unitId s = .ok (.done result) ↔
      ∃ response, objectsAnswer peer unitId s.2 s.1.objectId = some response ∧ response.moreFollows = false ∧
        result = (s.1.chunks ++ pieces response, s.2 ++ [(unitId, identificationRequest s.1.objectId)]) := by
  obtain ⟨⟨objectId, chunks⟩, sent⟩ := s
  rw [identificationTurn_eq]
  dsimp only
  cases hanswer : objectsAnswer peer unitId sent objectId with
  | none => simp
  | some response =>
    dsimp only
    by_cases hmore : response.moreFollows = true
    · rw [if_pos hmore]
      simp [hmore]
    · rw [if_neg hmore]
      simp only [ok.injEq, Turn.done.injEq, Option.some.injEq, exists_eq_left', Bool.eq_false_iff.mpr hmore, true_and]
      exact eq_comm

theorem identificationTurn_ne_panic (s : FetchState × Sent) : identificationTurn peer unitId s ≠ .panic := by
  obtain ⟨⟨objectId, chunks⟩, sent⟩ := s
  rw [identificationTurn_eq]
  split
  · simp
  · dsimp only
    split <;> simp

@[simp] theorem asked_zero (objectIds : ℕ → UInt8) : asked unitId objectIds 0 = [] := rfl

theorem asked_succ (objectIds : ℕ → UInt8) (k : ℕ) :
    asked unitId objectIds (k + 1) = asked unitId objectIds k ++ [(unitId, identificationRequest (objectIds k))] := by
  rw [asked, List.range_succ, List.map_append]
  rfl

/-- The loop goes on forever just against a peer that announces objects forever. -/
theorem loop_identificationTurn_eq_none_iff :
    (∀ turns, loop (identificationTurn peer unitId) turns (⟨presenceObjectId, []⟩, []) = none) ↔
      AnnouncesForever peer unitId := by
  rw [loop_eq_none_iff]
  constructor
  · rintro ⟨states, hstart, hstates⟩
    have hnext := fun k => identificationTurn_eq_again.mp (hstates k)
    have hsent : ∀ k, (states k).2 = asked unitId (fun j => (states j).1.objectId) k := by
      intro k
      induction k with
      | zero => rw [hstart, asked_zero]
      | succ k ih =>
        obtain ⟨response, -, -, heq⟩ := hnext k
        rw [heq, asked_succ, ← ih]
    refine ⟨fun k => (states k).1.objectId, by simp only [hstart], fun k => ?_⟩
    obtain ⟨response, hanswer, hmore, heq⟩ := hnext k
    rw [hsent k] at hanswer
    exact ⟨response, hanswer, hmore, by simp only [heq]⟩
  · rintro ⟨objectIds, hstart, hobjects⟩
    choose responses hanswer hmore hnext using hobjects
    refine ⟨fun k => (⟨objectIds k, (List.range k).flatMap fun j => pieces (responses j)⟩, asked unitId objectIds k),
      by simp [hstart], fun k => ?_⟩
    rw [identificationTurn_eq_again]
    refine ⟨responses k, hanswer k, hmore k, ?_⟩
    dsimp only
    rw [asked_succ, hnext k, List.range_succ, List.flatMap_append]
    simp

/-- What is offered is collected. -/
theorem loop_identificationTurn_of_offers {sent sent' : Sent} {objectId : UInt8} {more : List Bytes}
    (h : Offers peer unitId sent objectId more sent') (chunks : List Bytes) :
    ∃ turns, loop (identificationTurn peer unitId) turns (⟨objectId, chunks⟩, sent) =
      some (.ok (chunks ++ more, sent')) := by
  induction h generalizing chunks with
  | last hanswer hstop =>
    exact ⟨1, loop_of_done (identificationTurn_eq_done.mpr ⟨_, hanswer, hstop, rfl⟩) 0⟩
  | more hanswer hmore _ ih =>
    obtain ⟨turns, hturns⟩ := ih (chunks ++ pieces _)
    refine ⟨turns + 1, ?_⟩
    rw [loop_of_again (identificationTurn_eq_again.mpr ⟨_, hanswer, hmore, rfl⟩), hturns, List.append_assoc]

/-- What is collected was offered. -/
theorem offers_of_loop_identificationTurn {turns : ℕ} {s : FetchState × Sent} {collected : List Bytes} {sent' : Sent}
    (h : loop (identificationTurn peer unitId) turns s = some (.ok (collected, sent'))) :
    ∃ more, collected = s.1.chunks ++ more ∧ Offers peer unitId s.2 s.1.objectId more sent' := by
  induction turns generalizing s with
  | zero => cases h
  | succ turns ih =>
    rw [loop] at h
    split at h
    · next s' hagain =>
      obtain ⟨response, hanswer, hmore, rfl⟩ := identificationTurn_eq_again.mp hagain
      obtain ⟨more, rfl, hoffers⟩ := ih h
      exact ⟨pieces response ++ more, List.append_assoc .., .more hanswer hmore hoffers⟩
    · next result hdone =>
      obtain ⟨response, hanswer, hstop, heq⟩ := identificationTurn_eq_done.mp hdone
      cases h
      obtain ⟨rfl, rfl⟩ := Prod.mk.inj heq
      exact ⟨pieces response, rfl, .last hanswer hstop⟩
    all_goals cases h

end Objects

/-! ### The loop over the records -/

section Records

variable {overflowChecks : Bool} {peer : Peer} {unitId : UInt8} {manifest : DeviceDescriptionManifest} {sent : Sent}

theorem askedRecords_succ (k : ℕ) :
    askedRecords unitId manifest (k + 1) =
      askedRecords unitId manifest k ++ [(unitId, recordRequest manifest (UInt16.ofNat k))] := by
  rw [askedRecords, List.range_succ, List.map_append]
  rfl

/-- The answer to the request for the k-th record, after those for the records before. -/
def recordAt (peer : Peer) (unitId : UInt8) (manifest : DeviceDescriptionManifest) (sent : Sent) (k : ℕ) : Option Bytes :=
  recordAnswer peer unitId (sent ++ askedRecords unitId manifest k) (recordRequest manifest (UInt16.ofNat k))

/-- The loop before its k-th request. -/
def recordState (peer : Peer) (unitId : UInt8) (manifest : DeviceDescriptionManifest) (sent : Sent) (k : ℕ) :
    BulkState × Sent :=
  (⟨UInt16.ofNat k, (List.range k).flatMap fun j => (recordAt peer unitId manifest sent j).getD []⟩,
    sent ++ askedRecords unitId manifest k)

theorem recordState_zero : recordState peer unitId manifest sent 0 = (⟨0, []⟩, sent) := by
  simp [recordState, askedRecords]

/-- Where the announced length has every record, each turn asks for one. -/
theorem recordTurn_recordState (hlong : 0xFFFF * bulkTransferChunkBytes < manifest.compressedLength.toNat) (k : ℕ) :
    recordTurn overflowChecks peer unitId manifest (recordState peer unitId manifest sent k) =
      match recordAt peer unitId manifest sent k with
      | none => .err ()
      | some _ =>
        if overflowChecks ∧ UInt16.ofNat k = 0xFFFF then .panic
        else .ok (.again (recordState peer unitId manifest sent (k + 1))) := by
  have hrange : (UInt16.ofNat k).toNat * bulkTransferChunkBytes < manifest.compressedLength.toNat :=
    (Nat.mul_le_mul_right bulkTransferChunkBytes (Nat.le_of_lt_succ (UInt16.ofNat k).toNat_lt)).trans_lt hlong
  rw [recordState, recordTurn_eq (bulkTransferChunkRange_of_lt hrange), ← recordAt]
  cases hrecord : recordAt peer unitId manifest sent k with
  | none => rfl
  | some record =>
    dsimp only
    rw [recordState, askedRecords_succ, List.range_succ, List.flatMap_append, List.flatMap_singleton, hrecord,
      Option.getD_some, UInt16.ofNat_add, List.append_assoc]
    rfl

theorem ofNat_eq_top_iff {k : ℕ} (h : k ≤ 0xFFFF) : UInt16.ofNat k = 0xFFFF ↔ k = 0xFFFF := by
  rw [← UInt16.toNat_inj, UInt16.toNat_ofNat_of_lt' (Nat.lt_succ_of_le h)]
  rfl

/-- A description with a record 65535 comes to an end just where some record is missing. -/
theorem recordLoop_of_long (hlong : 0xFFFF * bulkTransferChunkBytes < manifest.compressedLength.toNat) :
    (∃ turns r, loop (recordTurn overflowChecks peer unitId manifest) turns (⟨0, []⟩, sent) = some r ∧ r ≠ .panic) ↔
      ¬AnswersEveryRecord overflowChecks peer unitId manifest sent := by
  rw [← @recordState_zero peer unitId manifest sent]
  -- the turns before the first missing record go on
  have hagain : ∀ {k record}, recordAt peer unitId manifest sent k = some record →
      (overflowChecks = true → k < 0xFFFF) →
      recordTurn overflowChecks peer unitId manifest (recordState peer unitId manifest sent k) =
        .ok (.again (recordState peer unitId manifest sent (k + 1))) := by
    intro k record hrecord hlt
    rw [recordTurn_recordState hlong, hrecord]
    dsimp only
    rw [if_neg]
    rintro ⟨hchecks, htop⟩
    have := hlt hchecks
    rw [ofNat_eq_top_iff (by omega)] at htop
    omega
  constructor
  · rintro ⟨turns, r, hr, hne⟩ hevery
    cases overflowChecks with
    | false =>
      have hforever : ∀ turns, loop (recordTurn false peer unitId manifest) turns
          (recordState peer unitId manifest sent 0) = none := by
        rw [loop_eq_none_iff]
        refine ⟨recordState peer unitId manifest sent, rfl, fun k => ?_⟩
        obtain ⟨record, hrecord⟩ := hevery k (by simp)
        exact hagain hrecord (by simp)
      rw [hforever] at hr
      cases hr
    | true =>
      have hrun : loop (recordTurn true peer unitId manifest) (1 + 0xFFFF)
          (recordState peer unitId manifest sent 0) =
          loop (recordTurn true peer unitId manifest) 1 (recordState peer unitId manifest sent 0xFFFF) := by
        refine loop_of_run (fun j hj => ?_) 1
        obtain ⟨record, hrecord⟩ := hevery j fun _ => hj.le
        exact hagain hrecord fun _ => hj
      have hpanic : loop (recordTurn true peer unitId manifest) 1 (recordState peer unitId manifest sent 0xFFFF) =
          some .panic := by
        obtain ⟨record, hrecord⟩ := hevery 0xFFFF fun _ => le_rfl
        rw [loop, recordTurn_recordState hlong, recordAt, hrecord]
        dsimp only
        rw [if_pos ⟨rfl, (ofNat_eq_top_iff le_rfl).mpr rfl⟩]
      exact hne (loop_unique hr (hrun.trans hpanic))
  · intro hmissing
    obtain ⟨k, hk⟩ := not_forall.mp hmissing
    have hexists : ∃ k : ℕ, (overflowChecks = true → k ≤ 0xFFFF) ∧ recordAt peer unitId manifest sent k = none := by
      obtain ⟨hle, hnone⟩ := Classical.not_imp.mp hk
      exact ⟨k, hle, Option.eq_none_iff_forall_ne_some.mpr fun record hrecord => hnone ⟨record, hrecord⟩⟩
    obtain ⟨hle, hnone⟩ := Nat.find_spec hexists
    have hrun : loop (recordTurn overflowChecks peer unitId manifest) (1 + Nat.find hexists)
        (recordState peer unitId manifest sent 0) =
        loop (recordTurn overflowChecks peer unitId manifest) 1
          (recordState peer unitId manifest sent (Nat.find hexists)) := by
      refine loop_of_run (fun j hj => ?_) 1
      have hbefore := Nat.find_min hexists hj
      have hlt : overflowChecks = true → j < 0xFFFF := fun hchecks => hj.trans_le (hle hchecks)
      cases hrecord : recordAt peer unitId manifest sent j with
      | none => exact absurd ⟨fun hchecks => (hlt hchecks).le, hrecord⟩ hbefore
      | some record => exact hagain hrecord hlt
    refine ⟨1 + Nat.find hexists, .err (), ?_, by simp⟩
    rw [hrun, loop, recordTurn_recordState hlong, hnone]

/-- A shorter one always comes to an end. -/
theorem recordLoop_of_short (hshort : manifest.compressedLength.toNat ≤ 0xFFFF * bulkTransferChunkBytes) :
    ∃ turns r, loop (recordTurn overflowChecks peer unitId manifest) turns (⟨0, []⟩, sent) = some r ∧ r ≠ .panic := by
  -- the variant is the distance of the record number from the top
  let inv : ℕ → BulkState × Sent → Prop := fun m s => s.1.recordNumber.toNat + m = 0xFFFF
  have hbody : ∀ m s, inv m s →
      (∃ r, loop (recordTurn overflowChecks peer unitId manifest) 1 s = some r ∧ r ≠ .panic) ∨
      ∃ m' < m, ∃ s', recordTurn overflowChecks peer unitId manifest s = .ok (.again s') ∧ inv m' s' := by
    rintro m ⟨⟨recordNumber, compressed⟩, sent⟩ hm
    change recordNumber.toNat + m = 0xFFFF at hm
    rcases Nat.lt_or_ge (recordNumber.toNat * bulkTransferChunkBytes) manifest.compressedLength.toNat with hlt | hge
    · have hnumber : recordNumber.toNat < 0xFFFF := by
        by_contra hover
        have := Nat.mul_le_mul_right bulkTransferChunkBytes (Nat.le_of_not_lt hover)
        omega
      obtain ⟨-, hnext⟩ := incrementU16_of_lt overflowChecks hnumber
      have hturn := @recordTurn_eq overflowChecks peer unitId _ _ _ (bulkTransferChunkRange_of_lt hlt) compressed sent
      cases hrecord : recordAnswer peer unitId sent (recordRequest manifest recordNumber) with
      | none =>
        rw [hrecord] at hturn
        exact .inl ⟨.err (), by rw [loop, hturn], by simp⟩
      | some record =>
        rw [hrecord] at hturn
        dsimp only at hturn
        rw [if_neg] at hturn
        · refine .inr ⟨m - 1, by omega, _, hturn, ?_⟩
          change (recordNumber + 1).toNat + (m - 1) = 0xFFFF
          omega
        · rintro ⟨-, rfl⟩
          exact absurd hnumber (by decide)
    · refine .inl ⟨.ok (compressed.take manifest.compressedLength.toNat), loop_of_done ?_ 0, by simp⟩
      rw [recordTurn, bulkTurn, bulkTransferChunkRange_of_le hge]
      rfl
  have hstart : inv 0xFFFF (⟨0, []⟩, sent) := Nat.zero_add 0xFFFF
  obtain ⟨turns, -, r, hr, hne⟩ := loop_ends hbody hstart
  exact ⟨turns, r, hr, hne⟩

end Records

/-! ### The whole fetch -/

section Whole

variable {overflowChecks : Bool} {codecs : DescriptionCodecs} {peer : Peer} {unitId : UInt8}

/-- The record loop of a manifest ends unless the description it announces is too long
and every record is there. -/
theorem fetchCompressedDeviceDescription_returns_iff (manifest : DeviceDescriptionManifest) (sent : Sent) :
    (∃ turns result, fetchCompressedDeviceDescription overflowChecks codecs peer unitId manifest sent turns =
        some (.ok result)) ↔
      (0xFFFF * bulkTransferChunkBytes < manifest.compressedLength.toNat →
        ¬AnswersEveryRecord overflowChecks peer unitId manifest sent) := by
  have hends : (∃ turns result, fetchCompressedDeviceDescription overflowChecks codecs peer unitId manifest sent turns =
        some (.ok result)) ↔
      ∃ turns r, loop (recordTurn overflowChecks peer unitId manifest) turns (⟨0, []⟩, sent) = some r ∧ r ≠ .panic := by
    refine exists_congr fun turns => ?_
    rw [fetchCompressedDeviceDescription]
    split <;> simp [*]
  rw [hends]
  rcases Nat.lt_or_ge (0xFFFF * bulkTransferChunkBytes) manifest.compressedLength.toNat with hlong | hshort
  · rw [recordLoop_of_long hlong]
    exact ⟨fun h _ => h, fun h => h hlong⟩
  · exact ⟨fun _ hlong => absurd hlong (by omega), fun _ => recordLoop_of_short hshort⟩

theorem fetchCompressedDeviceDescription_mono {manifest : DeviceDescriptionManifest} {sent : Sent} {turns turns' : ℕ}
    (hle : turns ≤ turns') {r : Outcome Empty (Option String)}
    (h : fetchCompressedDeviceDescription overflowChecks codecs peer unitId manifest sent turns = some r) :
    fetchCompressedDeviceDescription overflowChecks codecs peer unitId manifest sent turns' = some r := by
  rw [fetchCompressedDeviceDescription] at h ⊢
  cases hloop : loop (recordTurn overflowChecks peer unitId manifest) turns (⟨0, []⟩, sent) with
  | none => simp [hloop] at h
  | some ended => rwa [loop_mono hle hloop, ← hloop]

/-- A fetch that returns ends the first loop, and the second where there is one. -/
theorem Returns.endsSomewhere (h : Returns overflowChecks codecs peer unitId) :
    EndsSomewhere overflowChecks codecs peer unitId := by
  obtain ⟨turns, result, hresult⟩ := h
  constructor
  · intro hforever
    rw [fetchDeviceDescription, loop_identificationTurn_eq_none_iff.mpr hforever] at hresult
    cases hresult
  · intro chunks sent tomlSource manifest hoffers hutf8 hmanifest
    obtain ⟨turns', hturns'⟩ := loop_identificationTurn_of_offers hoffers []
    rw [List.nil_append] at hturns'
    have hloop : loop (identificationTurn peer unitId) turns (⟨presenceObjectId, []⟩, []) = some (.ok (chunks, sent)) := by
      cases hended : loop (identificationTurn peer unitId) turns (⟨presenceObjectId, []⟩, []) with
      | none => simp [fetchDeviceDescription, hended] at hresult
      | some r => rw [loop_unique hended hturns']
    simp only [fetchDeviceDescription, hloop, hutf8, hmanifest] at hresult
    exact (fetchCompressedDeviceDescription_returns_iff manifest sent).mp ⟨turns, result, hresult⟩

theorem EndsSomewhere.returns (h : EndsSomewhere overflowChecks codecs peer unitId) :
    Returns overflowChecks codecs peer unitId := by
  obtain ⟨hnever, hlong⟩ := h
  obtain ⟨turns, hturns⟩ := not_forall.mp (mt loop_identificationTurn_eq_none_iff.mp hnever)
  cases hloop : loop (identificationTurn peer unitId) turns (⟨presenceObjectId, []⟩, []) with
  | none => exact absurd hloop hturns
  | some r =>
    cases r with
    | panic => exact absurd hloop (loop_ne_panic identificationTurn_ne_panic turns _)
    | err e => exact ⟨turns, none, by rw [fetchDeviceDescription, hloop]⟩
    | ok offered =>
      obtain ⟨chunks, sent⟩ := offered
      obtain ⟨chunks, rfl, hoffers⟩ := offers_of_loop_identificationTurn hloop
      cases hutf8 : fromUtf8 chunks.flatten with
      | none => exact ⟨turns, none, by simp only [fetchDeviceDescription, hloop, hutf8]⟩
      | some tomlSource =>
        cases hmanifest : codecs.parseManifest tomlSource with
        | none => exact ⟨turns, some tomlSource, by simp only [fetchDeviceDescription, hloop, hutf8, hmanifest]⟩
        | some manifest =>
          obtain ⟨turns', result, hresult⟩ := (fetchCompressedDeviceDescription_returns_iff manifest sent).mpr
            (hlong chunks sent tomlSource manifest hoffers hutf8 hmanifest)
          refine ⟨max turns turns', result, ?_⟩
          simp only [fetchDeviceDescription, loop_mono (le_max_left turns turns') hloop, hutf8, hmanifest]
          exact fetchCompressedDeviceDescription_mono (le_max_right turns turns') hresult

end Whole

/-- Against any peer, the fetch returns just where the peer does not announce objects
forever and does not answer for every record of a description too long. -/
theorem description_fetch_returns_iff (overflowChecks : Bool) (codecs : DescriptionCodecs) (peer : Peer)
    (unitId : UInt8) :
    Returns overflowChecks codecs peer unitId ↔ EndsSomewhere overflowChecks codecs peer unitId :=
  ⟨Returns.endsSomewhere, EndsSomewhere.returns⟩

/-- A peer that answers every request with no objects, more to follow from 0x81. -/
def endlessPeer : Peer := fun _ => .ok [0x2B, 0x0E, 0x04, 0x83, 0xFF, 0x81, 0x00]

/-- The responses are well formed, and the fetch never returns. -/
theorem description_fetch_endless :
    ReadDeviceIdentificationResponse.decode [0x2B, 0x0E, 0x04, 0x83, 0xFF, 0x81, 0x00] =
        .ok ⟨0x04, 0x83, true, 0x81, []⟩ ∧
      ∀ overflowChecks, ¬Returns overflowChecks ⟨fun _ => none, fun _ => none⟩ endlessPeer 1 := by
  refine ⟨by decide, fun overflowChecks hreturns => hreturns.endsSomewhere.1 ?_⟩
  refine ⟨fun k => if k = 0 then presenceObjectId else 0x81, rfl, fun k => ⟨⟨0x04, 0x83, true, 0x81, []⟩, ?_, rfl, rfl⟩⟩
  rfl

end InfusedModbus.Client
