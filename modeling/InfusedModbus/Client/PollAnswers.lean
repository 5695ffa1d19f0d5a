import InfusedModbus.Client.Mirror

/-! What the polls make of their answers, whoever gives them. A poll takes one batch after
another: it leaves its store as it is, or stores under the names of the batch the values that
the answer carries. The register polls compare the amount of data with what they asked for.
The bit polls take any answer that is long enough, and the file record poll takes a record of
any length, so these are sure of their values only as long as the other end is exact. -/

namespace InfusedModbus.Client

open Foundation Foundation.Outcome Protocol Datafs Server

/-! ### Polls of one batch after another -/

section Each

variable {σ β κ ν : Type} [DecidableEq κ]

/-- A turn stores what the answer carries, or nothing. -/
def TruthfulTurn (ask : β → σ → Outcome IoError Bytes) (Carries : β → Bytes → List (κ × ν) → Prop) (batch : β)
    (poll poll' : Poll σ κ ν) : Prop :=
  poll'.store = poll.store ∨ ∃ responsePdu entries, ask batch poll.connection = .ok responsePdu ∧
    Carries batch responsePdu entries ∧ poll'.store = poll.store.setAll entries

/-- Every turn of a poll ends and is truthful. -/
def TruthfulTurns (turn : List β → Poll σ κ ν → Outcome Empty (Poll σ κ ν)) (ask : β → σ → Outcome IoError Bytes)
    (Carries : β → Bytes → List (κ × ν) → Prop) : List β → Poll σ κ ν → Prop
  | [], _ => True
  | batch :: batches, poll => ∃ poll', turn [batch] poll = .ok poll' ∧ TruthfulTurn ask Carries batch poll poll' ∧
    TruthfulTurns turn ask Carries batches poll'

/-- The batches that are answered, each with its answer. -/
def answersEach (request : Exchange σ) (unitId : UInt8) (encode : β → Bytes) : List β → σ → List (β × Bytes)
  | [], _ => []
  | batch :: batches, connection =>
    match request unitId (encode batch) connection with
    | (.ok responsePdu, connection) => (batch, responsePdu) :: answersEach request unitId encode batches connection
    | (_, connection) => answersEach request unitId encode batches connection

variable {request : Exchange σ} {unitId : UInt8} {encode : β → Bytes}
  {apply : β → Bytes → Store κ ν → Outcome Empty (Store κ ν)} {Carries : β → Bytes → List (κ × ν) → Prop}

omit [DecidableEq κ] in
/-- A poll of many batches is a poll of the first and then of the others. -/
theorem pollEach_cons (batch : β) (batches : List β) (poll : Poll σ κ ν) :
    pollEach request unitId encode apply (batch :: batches) poll =
      pollEach request unitId encode apply [batch] poll >>= pollEach request unitId encode apply batches := by
  simp only [pollEach]
  rcases request unitId (encode batch) poll.connection with ⟨answer, connection⟩
  cases answer with
  | ok responsePdu =>
    dsimp only
    cases apply batch responsePdu poll.store with
    | ok store => rfl
    | err e => exact e.elim
    | panic => rfl
  | err e => rfl
  | panic => rfl

theorem pollEach_of_truthful {ask : β → σ → Outcome IoError Bytes} {batches : List β} {poll : Poll σ κ ν}
    (h : TruthfulTurns (pollEach request unitId encode apply) ask Carries batches poll) :
    ∃ poll', pollEach request unitId encode apply batches poll = .ok poll' := by
  induction batches generalizing poll with
  | nil => exact ⟨poll, rfl⟩
  | cons batch batches ih =>
    obtain ⟨poll₁, hturn, -, hrest⟩ := h
    obtain ⟨poll', hpoll'⟩ := ih hrest
    refine ⟨poll', ?_⟩
    rw [pollEach_cons, hturn, ok_bind, hpoll']

/-- Answers that are stored as what they carry, or not at all, make a truthful poll. -/
theorem truthful_of_answers (hrequest : ∀ pdu connection, (request unitId pdu connection).1 ≠ .panic)
    {batches : List β} {connection : σ}
    (h : ∀ answer ∈ answersEach request unitId encode batches connection, ∀ store,
      apply answer.1 answer.2 store = .ok store ∨ ∃ entries, Carries answer.1 answer.2 entries ∧
        apply answer.1 answer.2 store = .ok (store.setAll entries)) (store : Store κ ν) (broken : Bool) :
    TruthfulTurns (pollEach request unitId encode apply)
      (fun batch connection => (request unitId (encode batch) connection).1) Carries batches
      ⟨connection, store, broken⟩ := by
  induction batches generalizing connection store broken with
  | nil => trivial
  | cons batch batches ih =>
    have hnot := hrequest (encode batch) connection
    rw [answersEach] at h
    simp only [TruthfulTurns, pollEach]
    rcases hasked : request unitId (encode batch) connection with ⟨answer, connection'⟩
    rw [hasked] at h hnot
    cases answer with
    | panic => exact absurd rfl hnot
    | err e => exact ⟨⟨connection', store, true⟩, rfl, .inl rfl, ih h store true⟩
    | ok responsePdu =>
      have hrest := fun store broken => ih (fun answer hmem => h answer (List.mem_cons_of_mem _ hmem)) store broken
      rcases h _ List.mem_cons_self store with hsame | ⟨entries, hcarries, hset⟩
      · refine ⟨⟨connection', store, broken⟩, ?_, .inl rfl, hrest store broken⟩
        dsimp only
        rw [hsame]
        rfl
      · refine ⟨⟨connection', store.setAll entries, broken⟩, ?_, .inr ⟨responsePdu, entries, ?_, hcarries, rfl⟩,
          hrest _ broken⟩
        · dsimp only
          rw [hset]
          rfl
        · exact congrArg Prod.fst hasked

/-- In a truthful poll of a store that knows none of the names, what is stored is carried. -/
theorem carries_of_truthful {read : β → Bytes → Option (List (κ × ν))} {keys : β → List κ}
    (happly : ∀ batch responsePdu store, apply batch responsePdu store =
      .ok ((read batch responsePdu).elim store store.setAll))
    (hread : ∀ batch responsePdu entries, read batch responsePdu = some entries → entries.map Prod.fst = keys batch)
    {batches : List β} (hcarries : ∀ batch ∈ batches, ∀ responsePdu entries, Carries batch responsePdu entries →
      read batch responsePdu = some entries) (hnodup : (batches.flatMap keys).Nodup) (hne : ∀ batch ∈ batches, keys batch ≠ [])
    {poll : Poll σ κ ν} (hfree : ∀ batch ∈ batches, ∀ key ∈ keys batch, poll.store.get key = none)
    (h : TruthfulTurns (pollEach request unitId encode apply)
      (fun batch connection => (request unitId (encode batch) connection).1) Carries batches poll) :
    ∀ answer ∈ answersEach request unitId encode batches poll.connection, ∀ entries,
      read answer.1 answer.2 = some entries → Carries answer.1 answer.2 entries := by
  induction batches generalizing poll with
  | nil => exact fun answer hmem => absurd hmem List.not_mem_nil
  | cons batch batches ih =>
    obtain ⟨poll', hturn, htruthful, hrest⟩ := h
    rw [List.flatMap_cons, List.nodup_append'] at hnodup
    obtain ⟨hkeys, hothers, hdisjoint⟩ := hnodup
    have hcarries' := fun other hmem => hcarries other (List.mem_cons_of_mem batch hmem)
    have hne' : ∀ other ∈ batches, keys other ≠ [] := fun other hmem => hne other (List.mem_cons_of_mem _ hmem)
    have hfree' : ∀ other ∈ batches, ∀ key ∈ keys other, poll.store.get key = none :=
      fun other hmem => hfree other (List.mem_cons_of_mem _ hmem)
    simp only [pollEach] at hturn
    rw [answersEach]
    rcases hasked : request unitId (encode batch) poll.connection with ⟨answer, connection'⟩
    rw [hasked] at hturn
    cases answer with
    | panic => cases hturn
    | err e =>
      cases hturn
      apply ih hcarries' hothers hne' _ hrest
      exact hfree'
    | ok responsePdu =>
      dsimp only at hturn
      rw [happly, ok_bind] at hturn
      cases hturn
      rw [List.forall_mem_cons]
      constructor
      · intro entries hentries
        dsimp only at hentries
        rcases htruthful with hsame | ⟨responsePdu', entries', hasked', hcarried, -⟩
        · -- the store has changed: the first name of the batch was not in it
          exfalso
          obtain ⟨key, hkey⟩ := List.exists_mem_of_ne_nil _ (hne batch List.mem_cons_self)
          have hmem : key ∈ entries.map Prod.fst := by rwa [hread _ _ _ hentries]
          obtain ⟨entry, hentry, rfl⟩ := List.mem_map.mp hmem
          have hset := Store.get_setAll_of_mem poll.store (by rwa [hread _ _ _ hentries]) hentry
          rw [hentries] at hsame
          rw [show poll.store.setAll entries = poll.store from hsame,
            hfree batch List.mem_cons_self entry.1 hkey] at hset
          cases hset
        · obtain rfl := Outcome.ok.inj ((congrArg Prod.fst hasked).symm.trans hasked')
          obtain rfl := Option.some.inj (hentries.symm.trans (hcarries batch List.mem_cons_self _ _ hcarried))
          exact hcarried
      · apply ih hcarries' hothers hne' _ hrest
        intro other hother key hkey
        dsimp only
        cases hentries : read batch responsePdu with
        | none => exact hfree' other hother key hkey
        | some entries =>
          have hnot : key ∉ entries.map Prod.fst := by
            rw [hread _ _ _ hentries]
            exact fun hmem => hdisjoint hmem (List.mem_flatMap.mpr ⟨other, hother, hkey⟩)
          exact (Store.get_setAll_of_notMem poll.store hnot).trans (hfree' other hother key hkey)

end Each

/-! ### What an answer carries -/

/-- A response of a function code that counts its data; what follows the data is not looked at. -/
def CarriesData (functionCode : UInt8) (data responsePdu : Bytes) : Prop :=
  ∃ byteCount trailing, responsePdu = functionCode :: byteCount :: (data ++ trailing) ∧ byteCount.toNat = data.length

section Carries

variable {ρ : Type} (functionCode : UInt8) (name : ρ → String) (dataType : ρ → DataType) (memLayout : MemLayout)

/-- The words of some registers, one after the other, and the values they spell. -/
inductive Spelled : List ρ → List UInt16 → List (String × RegisterValue) → Prop where
  | nil : Spelled [] [] []
  | cons {register : ρ} {registers : List ρ} {words rest : List UInt16} {value : RegisterValue}
      {entries : List (String × RegisterValue)}
      (hvalue : registerValueFromWords (dataType register) words memLayout = some value)
      (hrest : Spelled registers rest entries) :
      Spelled (register :: registers) (words ++ rest) ((name register, value) :: entries)

/-- As many words as were asked for, and the values they spell. -/
def CarriesWords (batch : Batch ρ) (responsePdu : Bytes) (entries : List (String × RegisterValue)) : Prop :=
  ∃ data, CarriesData functionCode data responsePdu ∧ data.length = 2 * batch.quantity.toNat ∧
    Spelled name dataType memLayout batch.items (wordsOfBytes data) entries

/-- The values of the items: the bits of the data, in their order. -/
def bitEntries (batch : Batch ρ) (data : Bytes) : List (String × CoilValue) :=
  (batch.items.zip (unpackBits (8 * data.length) data)).map fun p => (name p.1, ⟨p.2⟩)

/-- As many bytes of bits as were asked for, and the bits. -/
def CarriesBits (batch : Batch ρ) (responsePdu : Bytes) (entries : List (String × CoilValue)) : Prop :=
  ∃ data, CarriesData functionCode data responsePdu ∧ data.length = divCeil batch.quantity.toNat 8 ∧
    entries = bitEntries name batch data

/-- One record as long as was asked for. -/
def CarriesRecord (entry : FileRecordDescription) (responsePdu : Bytes)
    (entries : List ((UInt16 × UInt16) × Bytes)) : Prop :=
  ∃ record, responsePdu.head? = some functionCodeReadFileRecord ∧
    ReadFileRecordResponse.decode responsePdu = .ok ⟨[record]⟩ ∧
    record.length = 2 * entry.recordLength.toNat ∧ entries = [(recordKey entry, record)]

variable {functionCode name dataType memLayout}

/-- A response carries its data only. -/
theorem carriesData_unique {data data' responsePdu : Bytes} (h : CarriesData functionCode data responsePdu)
    (h' : CarriesData functionCode data' responsePdu) : data = data' := by
  obtain ⟨byteCount, trailing, rfl, hcount⟩ := h
  obtain ⟨byteCount', trailing', heq, hcount'⟩ := h'
  obtain ⟨rfl, hdata⟩ := List.cons.inj (List.cons.inj heq).2
  exact (List.append_inj hdata (hcount.symm.trans hcount')).1

theorem decodeRegisterArrayResponse_eq_ok {responsePdu : Bytes} {words : List UInt16}
    (h : decodeRegisterArrayResponse responsePdu functionCode = .ok words) :
    ∃ data, CarriesData functionCode data responsePdu ∧ data.length % 2 = 0 ∧ words = wordsOfBytes data := by
  rcases checkHeader_cases responsePdu functionCode (show 0 < responseHeaderLen by decide) with ⟨rest, rfl, hlen⟩ | ⟨e, he⟩
  · match rest, hlen with
    | byteCount :: data, _ =>
      rw [decodeRegisterArrayResponse_cons] at h
      split at h
      · cases h
      next heven =>
      split at h
      · cases h
      next hlong =>
      obtain rfl := (Outcome.ok.inj h).symm
      have htake : (data.take byteCount.toNat).length = byteCount.toNat := by
        rw [List.length_take]
        omega
      refine ⟨data.take byteCount.toNat, ⟨byteCount, data.drop byteCount.toNat, ?_, htake.symm⟩, by omega, rfl⟩
      rw [List.take_append_drop]
  · rw [decodeRegisterArrayResponse, he] at h
    cases h

theorem decodeBitfieldResponse_eq_ok {responsePdu : Bytes} {values : List Bool} :
    decodeBitfieldResponse responsePdu functionCode = .ok values ↔
      ∃ data, CarriesData functionCode data responsePdu ∧ values = unpackBits (8 * data.length) data := by
  constructor
  · intro h
    rcases checkHeader_cases responsePdu functionCode (show 0 < responseHeaderLen by decide)
      with ⟨rest, rfl, hlen⟩ | ⟨e, he⟩
    · match rest, hlen with
      | byteCount :: data, _ =>
        rw [decodeBitfieldResponse_cons] at h
        split at h
        · cases h
        next hlong =>
        have htake : (data.take byteCount.toNat).length = byteCount.toNat := by
          rw [List.length_take]
          omega
        refine ⟨data.take byteCount.toNat, ⟨byteCount, data.drop byteCount.toNat, ?_, htake.symm⟩, ?_⟩
        · rw [List.take_append_drop]
        · rw [htake]
          exact (Outcome.ok.inj h).symm
    · rw [decodeBitfieldResponse, he] at h
      cases h
  · rintro ⟨data, ⟨byteCount, trailing, rfl, hcount⟩, rfl⟩
    rw [decodeBitfieldResponse_cons, if_neg (by simp [hcount]), hcount, List.take_left' rfl]

/-- A walk that never runs out of words stores what they spell. -/
theorem applyWords_spelled {registers : List ρ} {words : List UInt16} {offset : ℕ}
    (hlen : words.length = offset + (registers.map fun register => (dataType register).registerCount).sum)
    (store : Store String RegisterValue) :
    ∃ entries, Spelled name dataType memLayout registers (words.drop offset) entries ∧
      applyWords name dataType memLayout words registers offset store = .ok (store.setAll entries) := by
  induction registers generalizing offset store with
  | nil =>
    rw [List.map_nil, List.sum_nil, Nat.add_zero] at hlen
    refine ⟨[], ?_, rfl⟩
    rw [List.drop_eq_nil_of_le (by omega)]
    exact .nil
  | cons register registers ih =>
    rw [List.map_cons, List.sum_cons] at hlen
    have htaken : (slice words offset (offset + (dataType register).registerCount) : Outcome Empty (List UInt16)) =
        .ok ((words.drop offset).take (dataType register).registerCount) := by
      rw [slice_of_le (by omega) (by omega), Nat.add_sub_cancel_left]
    have hcount : ((words.drop offset).take (dataType register).registerCount).length =
        (dataType register).registerCount := by
      rw [List.length_take, List.length_drop]
      omega
    obtain ⟨value, hvalue⟩ := isSome_registerValueFromWords hcount memLayout
    obtain ⟨entries, hspelled, happly⟩ := @ih (offset + (dataType register).registerCount) (by omega)
      (store.set (name register) value)
    refine ⟨(name register, value) :: entries, ?_, ?_⟩
    · rw [← List.drop_drop] at hspelled
      have hcons := @Spelled.cons ρ name dataType memLayout _ _ _ _ _ _ hvalue hspelled
      rwa [List.take_append_drop] at hcons
    · rw [applyWords, htaken, ok_bind, hvalue]
      exact happly

/-- Whatever answers a register read, what is stored is what it carries. -/
theorem applyRegisterResponse_cases {address : ρ → UInt16} {batch : Batch ρ}
    (hsound : batch.Sound address (wordsOf dataType) maxReadBatchSize) {decode : Bytes → Outcome DecodeError (List UInt16)}
    (hdecode : ∀ responsePdu, decode responsePdu = decodeRegisterArrayResponse responsePdu functionCode)
    (responsePdu : Bytes) (store : Store String RegisterValue) :
    applyRegisterResponse name dataType memLayout decode batch responsePdu store = .ok store ∨
      ∃ entries, CarriesWords functionCode name dataType memLayout batch responsePdu entries ∧
        applyRegisterResponse name dataType memLayout decode batch responsePdu store = .ok (store.setAll entries) := by
  rw [applyRegisterResponse, hdecode]
  cases hdecoded : decodeRegisterArrayResponse responsePdu functionCode with
  | panic => exact absurd hdecoded (decodeRegisterArrayResponse_ne_panic _ _)
  | err e => exact .inl rfl
  | ok words =>
    dsimp only
    split
    · next hquantity =>
      obtain ⟨data, hcarries, heven, rfl⟩ := decodeRegisterArrayResponse_eq_ok hdecoded
      have hsum : batch.quantity.toNat = (batch.items.map fun register => (dataType register).registerCount).sum := by
        rw [hsound.quantity_eq, slots]
        simp only [toNat_wordsOf]
        rfl
      obtain ⟨entries, hspelled, happly⟩ := @applyWords_spelled ρ name dataType memLayout batch.items (wordsOfBytes data) 0
        (by omega) store
      refine .inr ⟨entries, ⟨data, hcarries, ?_, hspelled⟩, happly⟩
      rw [length_wordsOfBytes] at hquantity
      omega
    · exact .inl rfl

/-- What a bit poll reads from an answer: enough bits, or nothing. -/
def readBits (decode : Bytes → Outcome DecodeError (List Bool)) (name : ρ → String) (batch : Batch ρ)
    (responsePdu : Bytes) : Option (List (String × CoilValue)) :=
  match decode responsePdu with
  | .ok values =>
    if batch.items.length ≤ values.length then some ((batch.items.zip values).map fun p => (name p.1, ⟨p.2⟩)) else none
  | _ => none

theorem applyBitResponse_eq {decode : Bytes → Outcome DecodeError (List Bool)} {batch : Batch ρ} {responsePdu : Bytes}
    (hpanic : decode responsePdu ≠ .panic) (store : Store String CoilValue) :
    applyBitResponse name decode batch responsePdu store =
      .ok ((readBits decode name batch responsePdu).elim store store.setAll) := by
  unfold applyBitResponse readBits
  cases hdecoded : decode responsePdu with
  | panic => exact absurd hdecoded hpanic
  | err e => rfl
  | ok values =>
    dsimp only
    split <;> rfl

theorem keys_readBits {decode : Bytes → Outcome DecodeError (List Bool)} {batch : Batch ρ} {responsePdu : Bytes}
    {entries : List (String × CoilValue)} (h : readBits decode name batch responsePdu = some entries) :
    entries.map Prod.fst = batch.items.map name := by
  unfold readBits at h
  split at h
  · split at h
    · next hlen =>
      obtain rfl := Option.some.inj h
      rw [List.map_map]
      have hfst : (Prod.fst ∘ fun p : ρ × Bool => ((name p.1, ⟨p.2⟩) : String × CoilValue)) = name ∘ Prod.fst := rfl
      rw [hfst, ← List.map_map, List.map_fst_zip hlen]
    · cases h
  · cases h

theorem readBits_eq_some {decode : Bytes → Outcome DecodeError (List Bool)} {batch : Batch ρ} {responsePdu : Bytes}
    {entries : List (String × CoilValue)}
    (hdecode : decode responsePdu = decodeBitfieldResponse responsePdu functionCode) :
    readBits decode name batch responsePdu = some entries ↔ ∃ data, CarriesData functionCode data responsePdu ∧
      batch.items.length ≤ 8 * data.length ∧ entries = bitEntries name batch data := by
  unfold readBits
  rw [hdecode]
  constructor
  · intro h
    cases hdecoded : decodeBitfieldResponse responsePdu functionCode with
    | panic => exact absurd hdecoded (decodeBitfieldResponse_ne_panic _ _)
    | err e =>
      rw [hdecoded] at h
      cases h
    | ok values =>
      obtain ⟨data, hcarries, rfl⟩ := decodeBitfieldResponse_eq_ok.mp hdecoded
      rw [hdecoded] at h
      dsimp only at h
      split at h
      · next hlen =>
        rw [length_unpackBits] at hlen
        exact ⟨data, hcarries, hlen, (Option.some.inj h).symm⟩
      · cases h
  · rintro ⟨data, hcarries, hlen, rfl⟩
    rw [decodeBitfieldResponse_eq_ok.mpr ⟨data, hcarries, rfl⟩]
    dsimp only
    rw [if_pos (by rwa [length_unpackBits])]
    rfl

end Carries

/-! ### The five polls -/

/-- A poll that ends from any store, and is truthful at every turn. -/
def TruthfulPoll {σ β κ ν : Type} [DecidableEq κ] (turn : List β → Poll σ κ ν → Outcome Empty (Poll σ κ ν))
    (ask : β → σ → Outcome IoError Bytes) (Carries : β → Bytes → List (κ × ν) → Prop) (batches : List β)
    (connection : σ) : Prop :=
  ∀ store broken, (∃ poll', turn batches ⟨connection, store, broken⟩ = .ok poll') ∧
    TruthfulTurns turn ask Carries batches ⟨connection, store, broken⟩

section Polls

variable {σ : Type} (request : Exchange σ) (description : MachineDescription) (connection : σ)

structure PollsTruthful : Prop where
  registers : TruthfulPoll
    (fun batches => pollOnce request batches description.memLayout description.unitId)
    (fun batch connection => (request description.unitId
      (ReadHoldingRegistersRequest.encode ⟨batch.startingAddress, batch.quantity⟩) connection).1)
    (CarriesWords functionCodeReadHoldingRegisters RegisterDescription.name RegisterDescription.dataType
      description.memLayout) (buildReadBatches description.registers) connection
  inputRegisters : TruthfulPoll
    (fun batches => pollInputRegistersOnce request batches description.inputRegisterMemLayout description.unitId)
    (fun batch connection => (request description.unitId
      (ReadInputRegistersRequest.encode ⟨batch.startingAddress, batch.quantity⟩) connection).1)
    (CarriesWords functionCodeReadInputRegisters InputRegisterDescription.name InputRegisterDescription.dataType
      description.inputRegisterMemLayout) (buildInputRegisterReadBatches description.inputRegisters) connection
  coils : TruthfulPoll (fun batches => pollCoilsOnce request batches description.unitId)
    (fun batch connection => (request description.unitId
      (ReadCoilsRequest.encode ⟨batch.startingAddress, batch.quantity⟩) connection).1)
    (CarriesBits functionCodeReadCoils CoilDescription.name) (buildCoilReadBatches description.coils) connection
  discreteInputs : TruthfulPoll (fun batches => pollDiscreteInputsOnce request batches description.unitId)
    (fun batch connection => (request description.unitId
      (ReadDiscreteInputsRequest.encode ⟨batch.startingAddress, batch.quantity⟩) connection).1)
    (CarriesBits functionCodeReadDiscreteInputs DiscreteInputDescription.name)
    (buildDiscreteInputReadBatches description.discreteInputs) connection
  fileRecords : TruthfulPoll (fun fileRecords => pollFileRecordsOnce request fileRecords description.unitId)
    (fun entry connection => (request description.unitId
      (ReadFileRecordRequest.encode ⟨[⟨entry.fileNumber, entry.recordNumber, entry.recordLength⟩]⟩) connection).1)
    CarriesRecord description.fileRecords connection

/-- A bit response that is long enough is not longer. -/
def ExactBits {ρ : Type} (functionCode : UInt8) (batch : Batch ρ) (responsePdu : Bytes) : Prop :=
  ∀ data, CarriesData functionCode data responsePdu → batch.items.length ≤ 8 * data.length →
    data.length = divCeil batch.items.length 8

/-- A response of one record is of the length asked for. -/
def ExactRecord (entry : FileRecordDescription) (responsePdu : Bytes) : Prop :=
  ∀ record, ReadFileRecordResponse.decode responsePdu = .ok ⟨[record]⟩ → record.length = 2 * entry.recordLength.toNat

/-- Every answer to a read of bits or of a file record is exact. -/
structure ExactAnswers : Prop where
  coils : ∀ answer ∈ answersEach request description.unitId
      (fun batch => ReadCoilsRequest.encode ⟨batch.startingAddress, batch.quantity⟩)
      (buildCoilReadBatches description.coils) connection,
    ExactBits functionCodeReadCoils answer.1 answer.2
  discreteInputs : ∀ answer ∈ answersEach request description.unitId
      (fun batch => ReadDiscreteInputsRequest.encode ⟨batch.startingAddress, batch.quantity⟩)
      (buildDiscreteInputReadBatches description.discreteInputs) connection,
    ExactBits functionCodeReadDiscreteInputs answer.1 answer.2
  fileRecords : ∀ answer ∈ answersEach request description.unitId
      (fun entry => ReadFileRecordRequest.encode ⟨[⟨entry.fileNumber, entry.recordNumber, entry.recordLength⟩]⟩)
      description.fileRecords connection,
    ExactRecord answer.1 answer.2

end Polls

section Sections

variable {σ ρ : Type} {request : Exchange σ} {unitId functionCode : UInt8} {name : ρ → String} {address : ρ → UInt16}
  {connection : σ}

theorem mem_of_mem_answersEach {β : Type} {encode : β → Bytes} {batches : List β} {answer : β × Bytes}
    (h : answer ∈ answersEach request unitId encode batches connection) : answer.1 ∈ batches := by
  induction batches generalizing connection with
  | nil => exact absurd h List.not_mem_nil
  | cons batch batches ih =>
    rw [answersEach] at h
    split at h
    · rcases List.mem_cons.mp h with rfl | h
      · exact List.mem_cons_self
      · exact List.mem_cons_of_mem _ (ih h)
    · exact List.mem_cons_of_mem _ (ih h)

/-- Answers that are stored as what they carry, or not at all, make a poll truthful from any
store. -/
theorem truthfulPoll_of_answers {β κ ν : Type} [DecidableEq κ] {encode : β → Bytes}
    {apply : β → Bytes → Store κ ν → Outcome Empty (Store κ ν)} {Carries : β → Bytes → List (κ × ν) → Prop}
    (hrequest : ∀ pdu connection, (request unitId pdu connection).1 ≠ .panic) {batches : List β}
    (h : ∀ answer ∈ answersEach request unitId encode batches connection, ∀ store,
      apply answer.1 answer.2 store = .ok store ∨ ∃ entries, Carries answer.1 answer.2 entries ∧
        apply answer.1 answer.2 store = .ok (store.setAll entries)) :
    TruthfulPoll (pollEach request unitId encode apply)
      (fun batch connection => (request unitId (encode batch) connection).1) Carries batches connection := by
  intro store broken
  have htruthful := truthful_of_answers hrequest h store broken
  exact ⟨pollEach_of_truthful htruthful, htruthful⟩

/-- A poll of registers is truthful whoever answers. -/
theorem truthful_registers (hrequest : ∀ pdu connection, (request unitId pdu connection).1 ≠ .panic)
    {dataType : ρ → DataType} {memLayout : MemLayout} {decode : Bytes → Outcome DecodeError (List UInt16)}
    (hdecode : ∀ responsePdu, decode responsePdu = decodeRegisterArrayResponse responsePdu functionCode)
    (encode : Batch ρ → Bytes) (entries : List ρ) (connection : σ) :
    TruthfulPoll (pollEach request unitId encode (applyRegisterResponse name dataType memLayout decode))
      (fun batch connection => (request unitId (encode batch) connection).1)
      (CarriesWords functionCode name dataType memLayout)
      (buildBatches address (wordsOf dataType) maxReadBatchSize entries) connection := by
  apply truthfulPoll_of_answers hrequest
  intro answer hanswer
  have hsound := sound_of_mem_buildBatches (fun register _ => fitsBatch_wordsOf (by decide) (by decide) register) answer.1
    (mem_of_mem_answersEach hanswer)
  exact applyRegisterResponse_cases hsound hdecode answer.2

theorem length_of_bitBatch {entries : List ρ} {batch : Batch ρ}
    (h : batch ∈ buildBatches address (fun _ => 1) maxPackedBitReadBatchSize entries) :
    batch.quantity.toNat = batch.items.length ∧ batch.items ≠ [] := by
  have hsound := sound_of_mem_buildBatches (fun entry _ => fitsBatch_bit (by decide) (by decide) entry) batch h
  refine ⟨?_, hsound.nonempty⟩
  rw [hsound.quantity_eq, slots]
  simp

theorem nodup_names_of_bitBatches {entries : List ρ} (hnames : (entries.map name).Nodup) :
    ((buildBatches address (fun _ => 1) maxPackedBitReadBatchSize entries).flatMap fun batch =>
      batch.items.map name).Nodup := by
  have hperm := List.perm_insertionSort (fun a b => address a ≤ address b) entries
  rw [← List.map_flatMap, flatMap_items_buildBatches]
  exact (hperm.map name).nodup_iff.mpr hnames

/-- A poll of bits is truthful exactly when its answers are exact. -/
theorem truthful_bits_iff (hrequest : ∀ pdu connection, (request unitId pdu connection).1 ≠ .panic)
    {decode : Bytes → Outcome DecodeError (List Bool)}
    (hdecode : ∀ responsePdu, decode responsePdu = decodeBitfieldResponse responsePdu functionCode)
    (encode : Batch ρ → Bytes) {entries : List ρ} (hnames : (entries.map name).Nodup) (connection : σ) :
    TruthfulPoll (pollEach request unitId encode (applyBitResponse name decode))
        (fun batch connection => (request unitId (encode batch) connection).1) (CarriesBits functionCode name)
        (buildBatches address (fun _ => 1) maxPackedBitReadBatchSize entries) connection ↔
      ∀ answer ∈ answersEach request unitId encode
        (buildBatches address (fun _ => 1) maxPackedBitReadBatchSize entries) connection,
        ExactBits functionCode answer.1 answer.2 := by
  have hpanic : ∀ responsePdu, decode responsePdu ≠ .panic := by
    intro responsePdu
    rw [hdecode]
    exact decodeBitfieldResponse_ne_panic _ _
  have happly : ∀ (batch : Batch ρ) responsePdu store, applyBitResponse name decode batch responsePdu store =
      .ok ((readBits decode name batch responsePdu).elim store store.setAll) :=
    fun batch responsePdu store => applyBitResponse_eq (hpanic responsePdu) store
  constructor
  · intro h answer hanswer data hcarries hlen
    have hread := (@readBits_eq_some _ functionCode name _ _ _ _ (hdecode answer.2)).mpr ⟨data, hcarries, hlen, rfl⟩
    have hquantity := (length_of_bitBatch (mem_of_mem_answersEach hanswer)).1
    have hcarried : ∀ batch ∈ buildBatches address (fun _ => 1) maxPackedBitReadBatchSize entries,
        ∀ responsePdu entries, CarriesBits functionCode name batch responsePdu entries →
          readBits decode name batch responsePdu = some entries := by
      rintro batch hbatch responsePdu _ ⟨data', hcarries', hexact, rfl⟩
      have hceil := divCeil_eight batch.quantity.toNat
      have hquantity := (length_of_bitBatch hbatch).1
      exact (readBits_eq_some (hdecode responsePdu)).mpr ⟨data', hcarries', by omega, rfl⟩
    have hne : ∀ batch ∈ buildBatches address (fun _ => 1) maxPackedBitReadBatchSize entries,
        batch.items.map name ≠ [] := by
      intro batch hbatch
      rw [ne_eq, List.map_eq_nil_iff]
      exact (length_of_bitBatch hbatch).2
    obtain ⟨data', hcarries', hexact, -⟩ := carries_of_truthful happly (fun _ _ _ => keys_readBits) hcarried
      (nodup_names_of_bitBatches hnames) hne (fun _ _ _ _ => rfl) (h .empty false).2 answer hanswer _ hread
    rw [carriesData_unique hcarries hcarries', hexact, hquantity]
  · intro h
    apply truthfulPoll_of_answers hrequest
    intro answer hanswer store
    rw [happly]
    cases hread : readBits decode name answer.1 answer.2 with
    | none => exact .inl rfl
    | some entries =>
      obtain ⟨data, hcarries, hlen, rfl⟩ := (readBits_eq_some (hdecode answer.2)).mp hread
      have hquantity := (length_of_bitBatch (mem_of_mem_answersEach hanswer)).1
      refine .inr ⟨_, ⟨data, hcarries, ?_, rfl⟩, rfl⟩
      rw [hquantity]
      exact h answer hanswer data hcarries hlen

/-- What a file record poll reads from an answer: one record, or nothing. -/
def readRecord (entry : FileRecordDescription) (responsePdu : Bytes) : Option (List ((UInt16 × UInt16) × Bytes)) :=
  match ReadFileRecordResponse.decode responsePdu with
  | .ok ⟨[record]⟩ => some [(recordKey entry, record)]
  | _ => none

theorem applyRecordResponse_eq (entry : FileRecordDescription) (responsePdu : Bytes) (store : FileRecordStore) :
    applyRecordResponse entry responsePdu store = .ok ((readRecord entry responsePdu).elim store store.setAll) := by
  unfold applyRecordResponse readRecord
  cases hdecoded : ReadFileRecordResponse.decode responsePdu with
  | panic => exact absurd hdecoded (ReadFileRecordResponse.decode_ne_panic _)
  | err e => rfl
  | ok response =>
    obtain ⟨records⟩ := response
    match records with
    | [] => rfl
    | [record] => rfl
    | _ :: _ :: _ => rfl

theorem readRecord_eq_some {entry : FileRecordDescription} {responsePdu : Bytes}
    {entries : List ((UInt16 × UInt16) × Bytes)} : readRecord entry responsePdu = some entries ↔
      ∃ record, ReadFileRecordResponse.decode responsePdu = .ok ⟨[record]⟩ ∧ entries = [(recordKey entry, record)] := by
  unfold readRecord
  constructor
  · intro h
    split at h
    · next record hdecoded => exact ⟨record, hdecoded, (Option.some.inj h).symm⟩
    · cases h
  · rintro ⟨record, hdecoded, rfl⟩
    rw [hdecoded]

theorem head?_of_decode_readFileRecord {responsePdu : Bytes} {response : ReadFileRecordResponse}
    (h : ReadFileRecordResponse.decode responsePdu = .ok response) :
    responsePdu.head? = some functionCodeReadFileRecord := by
  rcases checkHeader_cases responsePdu functionCodeReadFileRecord (show 0 < responseDataStart by decide)
    with ⟨rest, rfl, -⟩ | ⟨e, he⟩
  · rfl
  · rw [ReadFileRecordResponse.decode, he] at h
    cases h

/-- A poll of file records is truthful exactly when its answers are exact. -/
theorem truthful_records_iff (hrequest : ∀ pdu connection, (request unitId pdu connection).1 ≠ .panic)
    (encode : FileRecordDescription → Bytes) {fileRecords : List FileRecordDescription}
    (hkeys : (fileRecords.map recordKey).Nodup) (connection : σ) :
    TruthfulPoll (pollEach request unitId encode applyRecordResponse)
        (fun entry connection => (request unitId (encode entry) connection).1) CarriesRecord fileRecords connection ↔
      ∀ answer ∈ answersEach request unitId encode fileRecords connection, ExactRecord answer.1 answer.2 := by
  constructor
  · intro h answer hanswer record hdecoded
    have hread : readRecord answer.1 answer.2 = some [(recordKey answer.1, record)] :=
      readRecord_eq_some.mpr ⟨record, hdecoded, rfl⟩
    have hnodup : (fileRecords.flatMap fun entry => [recordKey entry]).Nodup := by
      rwa [← List.map_eq_flatMap]
    have hkey : ∀ entry responsePdu entries, readRecord entry responsePdu = some entries →
        entries.map Prod.fst = [recordKey entry] := by
      intro entry responsePdu entries hentries
      obtain ⟨record, -, rfl⟩ := readRecord_eq_some.mp hentries
      rfl
    have hcarried : ∀ entry ∈ fileRecords, ∀ responsePdu entries, CarriesRecord entry responsePdu entries →
        readRecord entry responsePdu = some entries := by
      rintro entry - responsePdu _ ⟨record, -, hdecoded, -, rfl⟩
      exact readRecord_eq_some.mpr ⟨record, hdecoded, rfl⟩
    obtain ⟨record', -, hdecoded', hexact, -⟩ := carries_of_truthful applyRecordResponse_eq hkey hcarried hnodup
      (fun _ _ => List.cons_ne_nil _ _) (fun _ _ _ _ => rfl) (h .empty false).2 answer hanswer _ hread
    rw [hdecoded] at hdecoded'
    cases hdecoded'
    exact hexact
  · intro h
    apply truthfulPoll_of_answers hrequest
    intro answer hanswer store
    rw [applyRecordResponse_eq]
    cases hread : readRecord answer.1 answer.2 with
    | none => exact .inl rfl
    | some entries =>
      obtain ⟨record, hdecoded, rfl⟩ := readRecord_eq_some.mp hread
      have hexact := h answer hanswer record hdecoded
      exact .inr ⟨_, ⟨record, head?_of_decode_readFileRecord hdecoded, hdecoded, hexact, rfl⟩, rfl⟩

end Sections

/-- A decoder of a response is the decoder of what is in it. -/
theorem map_map_decoded {α β : Type} {wrap : α → β} {unwrap : β → α} (h : ∀ a, unwrap (wrap a) = a)
    (decoded : Outcome DecodeError α) : (decoded.map wrap).map unwrap = decoded := by
  cases decoded with
  | ok a => exact congrArg Outcome.ok (h a)
  | err e => rfl
  | panic => rfl

/-- The polls never store a mismatched answer exactly when no answer to a read of bits or of a
file record is mismatched: a longer run of bits and a record of another length are stored. -/
theorem polls_truthful_iff {σ : Type} {request : Exchange σ} {description : MachineDescription}
    (hrequest : ∀ unitId pdu connection, (request unitId pdu connection).1 ≠ .panic)
    (hflat : FlatDescription description) (connection : σ) :
    PollsTruthful request description connection ↔ ExactAnswers request description connection := by
  have hunit := hrequest description.unitId
  have hregisters := fun responsePdu =>
    @map_map_decoded _ _ ReadHoldingRegistersResponse.mk ReadHoldingRegistersResponse.registerValues (fun _ => rfl)
      (decodeRegisterArrayResponse responsePdu functionCodeReadHoldingRegisters)
  have hinputRegisters := fun responsePdu =>
    @map_map_decoded _ _ ReadInputRegistersResponse.mk ReadInputRegistersResponse.registerValues (fun _ => rfl)
      (decodeRegisterArrayResponse responsePdu functionCodeReadInputRegisters)
  have hcoils := fun responsePdu =>
    @map_map_decoded _ _ ReadCoilsResponse.mk ReadCoilsResponse.coilValues (fun _ => rfl)
      (decodeBitfieldResponse responsePdu functionCodeReadCoils)
  have hdiscreteInputs := fun responsePdu =>
    @map_map_decoded _ _ ReadDiscreteInputsResponse.mk ReadDiscreteInputsResponse.discreteInputValues (fun _ => rfl)
      (decodeBitfieldResponse responsePdu functionCodeReadDiscreteInputs)
  constructor
  · intro h
    exact ⟨(truthful_bits_iff hunit hcoils _ hflat.coils.names connection).mp h.coils,
      (truthful_bits_iff hunit hdiscreteInputs _ hflat.discreteInputs.names connection).mp h.discreteInputs,
      (truthful_records_iff hunit _ hflat.fileRecords connection).mp h.fileRecords⟩
  · intro h
    exact ⟨truthful_registers hunit hregisters _ _ connection, truthful_registers hunit hinputRegisters _ _ connection,
      (truthful_bits_iff hunit hcoils _ hflat.coils.names connection).mpr h.coils,
      (truthful_bits_iff hunit hdiscreteInputs _ hflat.discreteInputs.names connection).mpr h.discreteInputs,
      (truthful_records_iff hunit _ hflat.fileRecords connection).mpr h.fileRecords⟩

/-! ### A record of another length -/

/-- A peer that knows one file record, and answers nothing else. -/
def recordPeer (record : Bytes) : Exchange Unit := fun _ pdu _ =>
  (if pdu.head? = some functionCodeReadFileRecord then .ok (ReadFileRecordResponse.mk [record]).encode
    else .err .timedOut, ())

theorem decode_recordPeer {record : Bytes} (h : record.length < 250) :
    ReadFileRecordResponse.decode (ReadFileRecordResponse.mk [record]).encode = .ok ⟨[record]⟩ := by
  apply ReadFileRecordResponse.decode_encode
  simp only [List.map_cons, List.map_nil, List.sum_cons, List.sum_nil]
  omega

/-- A peer that knows the pump's coil and its record of four bytes. -/
def pumpPeer : Exchange Unit := fun unitId pdu connection =>
  if pdu.head? = some functionCodeReadCoils then (.ok (ReadCoilsResponse.mk [true]).encode, ())
  else recordPeer [1, 2, 3, 4] unitId pdu connection

/-- The coil's answer is one byte, as long as it has to be. -/
theorem polls_truthful_iff_pump : PollsTruthful pumpPeer pump () ∧
    pollCoilsOnce pumpPeer (buildCoilReadBatches pump.coils) pump.unitId ⟨(), .empty, false⟩ =
      .ok ⟨(), Store.empty.set "running" ⟨true⟩, false⟩ := by
  have hrequest : ∀ unitId pdu connection, (pumpPeer unitId pdu connection).1 ≠ .panic := by
    intro unitId pdu connection
    unfold pumpPeer recordPeer
    split
    · simp
    · dsimp only
      split <;> simp
  refine ⟨(polls_truthful_iff hrequest pump_flat ()).mpr ⟨?_, ?_, ?_⟩, rfl⟩
  · intro answer hanswer data hcarries _
    obtain rfl := List.mem_singleton.mp hanswer
    obtain ⟨byteCount, trailing, hpdu, hcount⟩ := hcarries
    have hone : 1 = byteCount := (List.cons.inj (List.cons.inj hpdu).2).1
    rw [← hcount, ← hone]
    rfl
  · intro answer hanswer
    cases hanswer
  · intro answer hanswer record hdecoded
    obtain rfl := List.mem_singleton.mp hanswer
    cases (decode_recordPeer (by decide)).symm.trans hdecoded
    rfl

/-- One byte in place of the pump's four is stored as the record. -/
theorem short_record_stored :
    pollFileRecordsOnce (recordPeer [0xFF]) pump.fileRecords pump.unitId ⟨(), .empty, false⟩ =
        .ok ⟨(), Store.empty.set (4, 1) [0xFF], false⟩ ∧ ¬PollsTruthful (recordPeer [0xFF]) pump () := by
  have hpoll : pollFileRecordsOnce (recordPeer [0xFF]) pump.fileRecords pump.unitId ⟨(), .empty, false⟩ =
      .ok ⟨(), Store.empty.set (4, 1) [0xFF], false⟩ := by
    have hasked : recordPeer [0xFF] pump.unitId (ReadFileRecordRequest.encode ⟨[⟨4, 1, 2⟩]⟩) () =
        (.ok (ReadFileRecordResponse.mk [[0xFF]]).encode, ()) := rfl
    simp only [pollFileRecordsOnce, pollEach, show pump.fileRecords = [⟨4, 1, 2⟩] from rfl, hasked]
    rw [applyRecordResponse, decode_recordPeer (by decide)]
    rfl
  refine ⟨hpoll, ?_⟩
  intro h
  obtain ⟨poll', hturn, hstored, -⟩ := (h.fileRecords .empty false).2
  obtain rfl := Outcome.ok.inj (hpoll.symm.trans hturn)
  rcases hstored with hsame | ⟨responsePdu, entries, hasked, ⟨record, -, hdecoded, hexact, -⟩, -⟩
  · have hget := congrArg (fun store => Store.get store (4, 1)) hsame
    dsimp only at hget
    rw [Store.get_set_self] at hget
    cases hget
  · obtain rfl := Outcome.ok.inj hasked
    cases (decode_recordPeer (by decide)).symm.trans hdecoded
    exact absurd hexact (by decide)

end InfusedModbus.Client
