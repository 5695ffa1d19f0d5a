import InfusedModbus.Client.DeviceIdentification
import InfusedModbus.Protocol.DeviceDescriptionManifest

/-! Fetching the compressed description record by record. The client asks for records
0, 1, 2 and so on as long as the announced length has a chunk for the number, and
cuts the padding of an odd last chunk off at the end. The record number has 16 bits
and is incremented after every record, so a description with a chunk 65535 is never
fetched. -/

namespace InfusedModbus.Client

open Foundation Foundation.Outcome Protocol

/-- `n += 1`, which a build with overflow checks refuses to do at the top and any other
build wraps. -/
def incrementU16 (overflowChecks : Bool) (n : UInt16) : Outcome Unit UInt16 :=
  if overflowChecks ∧ n = 0xFFFF then .panic else .ok (n + 1)

/-- The next record to ask for and the bytes fetched so far. -/
structure BulkState where
  recordNumber : UInt16
  compressed : Bytes

/-- One turn of the fetching loop. -/
def bulkTurn (overflowChecks : Bool) (connection : Connection) (manifest : DeviceDescriptionManifest)
    (state : BulkState) : Outcome Unit (Turn BulkState Bytes) :=
  match bulkTransferChunkRange manifest.compressedLength.toNat state.recordNumber with
  | none => .ok (.done (state.compressed.take manifest.compressedLength.toNat))
  | some range => do
    let recordLength := UInt16.ofNat (divCeil (range.2 - range.1) 2)
    let responsePdu ← exchange connection
      (ReadFileRecordRequest.mk [⟨manifest.fileNumber, state.recordNumber, recordLength⟩]).encode
    letOk (ReadFileRecordResponse.decode responsePdu) (.err ()) fun response =>
      match response.records.head? with
      | none => .err ()
      | some record => do
        let recordNumber ← incrementU16 overflowChecks state.recordNumber
        .ok (.again ⟨recordNumber, state.compressed ++ record⟩)

/-- The compressed description after at most so many turns. -/
def fetchCompressed (overflowChecks : Bool) (connection : Connection) (manifest : DeviceDescriptionManifest)
    (turns : ℕ) : Option (Outcome Unit Bytes) :=
  loop (bulkTurn overflowChecks connection manifest) turns ⟨0, []⟩

/-- A connection to the handler that serves a compressed description. -/
def bulkTransferServer (compressedToml : Bytes) : Connection := fun requestPdu =>
  match ReadFileRecordRequest.decode requestPdu with
  | .ok request =>
    match Server.handleReadDeviceDescriptionBulkTransfer request compressedToml with
    | .ok responsePdu => some responsePdu
    | _ => none
  | _ => none

/-- What a server announces about its compressed description. -/
def announce (compressedToml : Bytes) (machines : List ManifestMachine) : DeviceDescriptionManifest :=
  ⟨reservedDeviceDescriptionFileNumber, UInt32.ofNat compressedToml.length, machines⟩

/-! ### One record -/

section Turn

variable {compressedToml : Bytes} {recordNumber : UInt16}

/-- The bytes of a chunk, padded to whole words. -/
def paddedChunk (compressedToml : Bytes) (start : ℕ) : Bytes :=
  let chunk := (compressedToml.drop start).take bulkTransferChunkBytes
  if chunk.length % 2 ≠ 0 then chunk ++ [0] else chunk

theorem length_paddedChunk_le (compressedToml : Bytes) (start : ℕ) :
    (paddedChunk compressedToml start).length ≤ bulkTransferChunkBytes := by
  have hchunk : bulkTransferChunkBytes = 248 := rfl
  unfold paddedChunk
  dsimp only
  split
  · next hodd =>
    simp only [List.length_take, List.length_drop, List.length_append, List.length_cons, List.length_nil] at hodd ⊢
    omega
  · simp

/-- A chunk is cut at the end of the description or at its own length. -/
theorem take_chunk (compressedToml : Bytes) (start : ℕ) :
    (compressedToml.drop start).take (min (start + bulkTransferChunkBytes) compressedToml.length - start) =
      (compressedToml.drop start).take bulkTransferChunkBytes := by
  rw [List.take_eq_take_iff, List.length_drop]
  omega

/-- A request for one record of the length that the arithmetic gives is answered with
the padded chunk. -/
theorem handleReadDeviceDescriptionBulkTransfer_of_lt (fileNumber : UInt16)
    (h : recordNumber.toNat * bulkTransferChunkBytes < compressedToml.length) :
    Server.handleReadDeviceDescriptionBulkTransfer
        ⟨[⟨fileNumber, recordNumber, UInt16.ofNat (divCeil (min (recordNumber.toNat * bulkTransferChunkBytes +
          bulkTransferChunkBytes) compressedToml.length - recordNumber.toNat * bulkTransferChunkBytes) 2)⟩]⟩
        compressedToml =
      .ok (ReadFileRecordResponse.mk
        [paddedChunk compressedToml (recordNumber.toNat * bulkTransferChunkBytes)]).encode := by
  generalize hstart : recordNumber.toNat * bulkTransferChunkBytes = start at h
  have hpadded := length_paddedChunk_le compressedToml start
  have hchunk : bulkTransferChunkBytes = 248 := rfl
  have hmax : maxPduLen = 253 := rfl
  have hlength : ((compressedToml.drop start).take bulkTransferChunkBytes).length =
      min (start + bulkTransferChunkBytes) compressedToml.length - start := by
    simp only [List.length_take, List.length_drop]
    omega
  have hrecords : Server.bulkTransferRecords compressedToml
      [⟨fileNumber, recordNumber, UInt16.ofNat (divCeil (min (start + bulkTransferChunkBytes)
        compressedToml.length - start) 2)⟩] = .ok [paddedChunk compressedToml start] := by
    rw [Server.bulkTransferRecords, @bulkTransferChunkRange_of_lt _ recordNumber (by omega)]
    simp only [hstart]
    rw [slice_of_le (by omega) (by omega), take_chunk, ok_bind, hlength, if_neg (by simp)]
    simp only [paddedChunk, hlength, Server.bulkTransferRecords, ok_bind, pure_eq]
  rw [Server.handleReadDeviceDescriptionBulkTransfer, hrecords]
  dsimp only
  rw [if_neg]
  rw [ReadFileRecordResponse.length_encode]
  simp only [List.map_cons, List.map_nil, List.sum_cons, List.sum_nil]
  omega

/-- A turn within the description fetches the next padded chunk and counts on. -/
theorem bulkTurn_of_lt (overflowChecks : Bool) {machines : List ManifestMachine}
    (hannounced : compressedToml.length < 2 ^ 32)
    (h : recordNumber.toNat * bulkTransferChunkBytes < compressedToml.length) (compressed : Bytes) :
    bulkTurn overflowChecks (bulkTransferServer compressedToml) (announce compressedToml machines)
        ⟨recordNumber, compressed⟩ =
      (incrementU16 overflowChecks recordNumber).map fun next =>
        .again ⟨next, compressed ++ paddedChunk compressedToml (recordNumber.toNat * bulkTransferChunkBytes)⟩ := by
  have hlen : (announce compressedToml machines).compressedLength.toNat = compressedToml.length :=
    UInt32.toNat_ofNat_of_lt' hannounced
  have hpadded := length_paddedChunk_le compressedToml (recordNumber.toNat * bulkTransferChunkBytes)
  have hchunk : bulkTransferChunkBytes = 248 := rfl
  have hmax : maxPduLen = 253 := rfl
  have hdec : ReadFileRecordResponse.decode (ReadFileRecordResponse.mk
      [paddedChunk compressedToml (recordNumber.toNat * bulkTransferChunkBytes)]).encode =
      .ok ⟨[paddedChunk compressedToml (recordNumber.toNat * bulkTransferChunkBytes)]⟩ := by
    refine decode_readFileRecordResponse_encode ?_
    rw [ReadFileRecordResponse.length_encode]
    simp only [List.map_cons, List.map_nil, List.sum_cons, List.sum_nil]
    omega
  have hserver := handleReadDeviceDescriptionBulkTransfer_of_lt (announce compressedToml machines).fileNumber h
  have hanswer : bulkTransferServer compressedToml (ReadFileRecordRequest.mk
      [⟨(announce compressedToml machines).fileNumber, recordNumber,
        UInt16.ofNat (divCeil (min (recordNumber.toNat * bulkTransferChunkBytes + bulkTransferChunkBytes)
          compressedToml.length - recordNumber.toNat * bulkTransferChunkBytes) 2)⟩]).encode =
      some (ReadFileRecordResponse.mk
        [paddedChunk compressedToml (recordNumber.toNat * bulkTransferChunkBytes)]).encode := by
    rw [bulkTransferServer, ReadFileRecordRequest.decode_encode (by simp) (by simp [fileRecordSubRequestLen])]
    simp only [hserver]
  rw [bulkTurn, hlen, bulkTransferChunkRange_of_lt h]
  dsimp only
  rw [exchange_of_answer hanswer (Server.not_isException_of_head rfl (by decide)), ok_bind, hdec, letOk_ok]
  dsimp only [List.head?_cons]
  cases incrementU16 overflowChecks recordNumber <;> rfl

end Turn

/-! ### The whole transfer -/

section Transfer

variable {compressedToml : Bytes}

/-- The bytes up to a chunk and the chunk are the bytes up to the next one, and only
past the end there is padding. -/
theorem take_append_paddedChunk (compressedToml : Bytes) (n : ℕ) :
    ∃ padding, compressedToml.take (n * bulkTransferChunkBytes) ++
        paddedChunk compressedToml (n * bulkTransferChunkBytes) =
      compressedToml.take ((n + 1) * bulkTransferChunkBytes) ++ padding ∧
      ((n + 1) * bulkTransferChunkBytes < compressedToml.length → padding = []) := by
  have htake : compressedToml.take ((n + 1) * bulkTransferChunkBytes) =
      compressedToml.take (n * bulkTransferChunkBytes) ++
        (compressedToml.drop (n * bulkTransferChunkBytes)).take bulkTransferChunkBytes := by
    rw [Nat.succ_mul, List.take_add]
  rw [htake, paddedChunk]
  split
  · next hodd =>
    refine ⟨[0], by rw [List.append_assoc], fun hlt => ?_⟩
    have hchunk : bulkTransferChunkBytes = 248 := rfl
    rw [Nat.succ_mul] at hlt
    simp only [List.length_take, List.length_drop] at hodd
    omega
  · exact ⟨[], by rw [List.append_nil], fun _ => rfl⟩

/-- What has been fetched is the description up to the next record, and padding only
past its end. -/
def FetchedUpTo (compressedToml : Bytes) (state : BulkState) : Prop :=
  ∃ padding, state.compressed = compressedToml.take (state.recordNumber.toNat * bulkTransferChunkBytes) ++ padding ∧
    (state.recordNumber.toNat * bulkTransferChunkBytes < compressedToml.length → padding = [])

/-- Past the end, cutting off the padding leaves the description. -/
theorem FetchedUpTo.take_eq {state : BulkState} (h : FetchedUpTo compressedToml state)
    (hend : compressedToml.length ≤ state.recordNumber.toNat * bulkTransferChunkBytes) :
    state.compressed.take compressedToml.length = compressedToml := by
  obtain ⟨padding, heq, _⟩ := h
  rw [heq, List.take_of_length_le hend, List.take_left' rfl]

/-- The next padded chunk continues what has been fetched. -/
theorem FetchedUpTo.next {recordNumber next : UInt16} {compressed : Bytes}
    (h : FetchedUpTo compressedToml ⟨recordNumber, compressed⟩) (hnext : next.toNat = recordNumber.toNat + 1)
    (hlt : recordNumber.toNat * bulkTransferChunkBytes < compressedToml.length) :
    FetchedUpTo compressedToml
      ⟨next, compressed ++ paddedChunk compressedToml (recordNumber.toNat * bulkTransferChunkBytes)⟩ := by
  obtain ⟨padding, heq, hpadding⟩ := h
  obtain rfl := hpadding hlt
  obtain ⟨padding', happend, hpadding'⟩ := take_append_paddedChunk compressedToml recordNumber.toNat
  refine ⟨padding', ?_, ?_⟩
  · dsimp only at heq ⊢
    rw [heq, List.append_nil, happend, hnext]
  · dsimp only
    rwa [hnext]

theorem incrementU16_of_lt (overflowChecks : Bool) {n : UInt16} (h : n.toNat < 65535) :
    incrementU16 overflowChecks n = .ok (n + 1) ∧ (n + 1).toNat = n.toNat + 1 := by
  constructor
  · rw [incrementU16, if_neg]
    rintro ⟨-, rfl⟩
    exact absurd h (by decide)
  · rw [UInt16.toNat_add]
    exact Nat.mod_eq_of_lt (by rw [UInt16.toNat_one]; omega)

/-- A description whose chunk numbers stay below 65535 is fetched exactly. -/
theorem fetchCompressed_of_le (overflowChecks : Bool) (machines : List ManifestMachine)
    (h : compressedToml.length ≤ 65535 * bulkTransferChunkBytes) :
    ∃ turns, fetchCompressed overflowChecks (bulkTransferServer compressedToml) (announce compressedToml machines)
      turns = some (.ok compressedToml) := by
  have hchunk : bulkTransferChunkBytes = 248 := rfl
  have hannounced : compressedToml.length < 2 ^ 32 := by omega
  have hlen : (announce compressedToml machines).compressedLength.toNat = compressedToml.length :=
    UInt32.toNat_ofNat_of_lt' hannounced
  -- the variant is the distance of the record number from the top
  let inv : ℕ → BulkState → Prop := fun m state =>
    state.recordNumber.toNat + m = 65535 ∧ FetchedUpTo compressedToml state
  have hbody : ∀ m state, inv m state →
      (∃ r, loop (bulkTurn overflowChecks (bulkTransferServer compressedToml) (announce compressedToml machines)) 1
        state = some r ∧ r = .ok compressedToml) ∨
      ∃ m' < m, ∃ state', bulkTurn overflowChecks (bulkTransferServer compressedToml)
        (announce compressedToml machines) state = .ok (.again state') ∧ inv m' state' := by
    rintro m ⟨recordNumber, compressed⟩ ⟨hm, hfetched⟩
    dsimp only at hm
    rcases Nat.lt_or_ge (recordNumber.toNat * bulkTransferChunkBytes) compressedToml.length with hlt | hge
    · right
      have hnumber : recordNumber.toNat < 65535 := by
        by_contra hover
        have := Nat.mul_le_mul_right bulkTransferChunkBytes (Nat.le_of_not_lt hover)
        omega
      obtain ⟨hincrement, hnext⟩ := incrementU16_of_lt overflowChecks hnumber
      refine ⟨m - 1, by omega, _, ?_, ?_, hfetched.next hnext hlt⟩
      · rw [bulkTurn_of_lt overflowChecks hannounced hlt, hincrement, map_ok]
      · dsimp only
        omega
    · left
      refine ⟨_, loop_of_done (b := compressedToml) ?_ 0, rfl⟩
      rw [bulkTurn, hlen, bulkTransferChunkRange_of_le hge, hfetched.take_eq hge]
  have hstart : inv 65535 ⟨0, []⟩ := ⟨rfl, [], by simp, fun _ => rfl⟩
  obtain ⟨turns, -, r, hr, rfl⟩ := loop_ends hbody hstart
  exact ⟨turns, hr⟩

/-- A description with a chunk 65535 is never fetched: its record numbers never run
out. -/
theorem fetchCompressed_of_gt (overflowChecks : Bool) (machines : List ManifestMachine)
    (hannounced : compressedToml.length < 2 ^ 32) (h : 65535 * bulkTransferChunkBytes < compressedToml.length)
    (turns : ℕ) (fetched : Bytes) :
    fetchCompressed overflowChecks (bulkTransferServer compressedToml) (announce compressedToml machines) turns ≠
      some (.ok fetched) := by
  refine loop_ne_ok (fun state b hdone => ?_) turns _ fetched
  have hlt : state.recordNumber.toNat * bulkTransferChunkBytes < compressedToml.length := by
    have hrecord := state.recordNumber.toNat_lt
    exact (Nat.mul_le_mul_right bulkTransferChunkBytes (by omega)).trans_lt h
  rw [bulkTurn_of_lt overflowChecks hannounced hlt] at hdone
  cases hnext : incrementU16 overflowChecks state.recordNumber <;> simp [hnext] at hdone

end Transfer

/-- With or without overflow checks, a description whose length can be announced is
fetched exactly if and only if it has no chunk 65535. -/
theorem bulk_transfer_exact_iff (overflowChecks : Bool) (compressedToml : Bytes) (machines : List ManifestMachine)
    (hannounced : compressedToml.length < 2 ^ 32) :
    (∃ turns, fetchCompressed overflowChecks (bulkTransferServer compressedToml) (announce compressedToml machines)
        turns = some (.ok compressedToml)) ↔
      compressedToml.length ≤ 65535 * 248 := by
  constructor
  · rintro ⟨turns, hturns⟩
    by_contra hgt
    exact fetchCompressed_of_gt overflowChecks machines hannounced (Nat.lt_of_not_le hgt) turns compressedToml hturns
  · exact fetchCompressed_of_le overflowChecks machines

/-- An odd description of one chunk. -/
theorem bulk_transfer_exact_iff_three :
    (∃ turns, fetchCompressed true (bulkTransferServer [1, 2, 3]) (announce [1, 2, 3] []) turns =
        some (.ok [1, 2, 3])) ↔ [1, 2, 3].length ≤ 65535 * 248 :=
  bulk_transfer_exact_iff true [1, 2, 3] [] (by decide)

/-- A description of 65535 whole chunks and one byte more is never fetched. -/
theorem bulk_transfer_stuck :
    (List.replicate 16252681 (0 : UInt8)).length < 2 ^ 32 ∧ ∀ overflowChecks turns,
      fetchCompressed overflowChecks (bulkTransferServer (List.replicate 16252681 0))
        (announce (List.replicate 16252681 0) []) turns ≠ some (.ok (List.replicate 16252681 0)) := by
  have hlength : (List.replicate 16252681 (0 : UInt8)).length = 16252681 := List.length_replicate
  have hchunk : bulkTransferChunkBytes = 248 := rfl
  exact ⟨by omega, fun overflowChecks turns =>
    fetchCompressed_of_gt overflowChecks [] (by omega) (by omega) turns _⟩

end InfusedModbus.Client
