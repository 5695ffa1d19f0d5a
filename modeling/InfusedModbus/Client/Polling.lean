import InfusedModbus.Client.Batching
import InfusedModbus.Client.ServerExchange
import InfusedModbus.Datafs.Staging

/-! Polling a machine. Each section of the description is read batch by batch, and each
file record on its own; a response of the expected shape goes into the stores, any other
is skipped, and a failed request asks for a new connection. The five polls differ in the
request they send and in how they take a response apart. -/

namespace InfusedModbus.Client

open Foundation Foundation.Outcome Protocol Datafs

def maxReadBatchSize : UInt16 := 125
def maxPackedBitReadBatchSize : UInt16 := 2000

/-! ### Batches -/

/-- The wire words of a register, as batches count them. -/
def wordsOf {ρ : Type} (dataType : ρ → DataType) (register : ρ) : UInt16 :=
  UInt16.ofNat (dataType register).registerCount

def buildReadBatches (registers : List RegisterDescription) : List (Batch RegisterDescription) :=
  buildBatches RegisterDescription.address (wordsOf RegisterDescription.dataType) maxReadBatchSize registers

def buildInputRegisterReadBatches (inputRegisters : List InputRegisterDescription) :
    List (Batch InputRegisterDescription) :=
  buildBatches InputRegisterDescription.address (wordsOf InputRegisterDescription.dataType) maxReadBatchSize
    inputRegisters

def buildCoilReadBatches (coils : List CoilDescription) : List (Batch CoilDescription) :=
  buildBatches CoilDescription.address (fun _ => 1) maxPackedBitReadBatchSize coils

def buildDiscreteInputReadBatches (discreteInputs : List DiscreteInputDescription) :
    List (Batch DiscreteInputDescription) :=
  buildBatches DiscreteInputDescription.address (fun _ => 1) maxPackedBitReadBatchSize discreteInputs

/-! ### One poll -/

/-- What a poll works on: the connection, the store it fills, and whether a reconnect
was asked for. -/
structure Poll (σ κ ν : Type) where
  connection : σ
  store : Store κ ν
  broken : Bool

/-- The loop of every poll. -/
def pollEach {σ β κ ν : Type} (request : Exchange σ) (unitId : UInt8) (encode : β → Bytes)
    (apply : β → Bytes → Store κ ν → Outcome Empty (Store κ ν)) :
    List β → Poll σ κ ν → Outcome Empty (Poll σ κ ν)
  | [], poll => .ok poll
  | batch :: batches, poll =>
    match request unitId (encode batch) poll.connection with
    | (.ok responsePdu, connection) => do
      let store ← apply batch responsePdu poll.store
      pollEach request unitId encode apply batches ⟨connection, store, poll.broken⟩
    | (.err _, connection) => pollEach request unitId encode apply batches ⟨connection, poll.store, true⟩
    | (.panic, _) => .panic

section Responses

variable {ρ : Type} (name : ρ → String) (dataType : ρ → DataType) (memLayout : MemLayout)

/-- The loop over the registers of a batch: each takes its words off the response. -/
def applyWords (words : List UInt16) : List ρ → ℕ → Store String RegisterValue →
    Outcome Empty (Store String RegisterValue)
  | [], _, store => .ok store
  | register :: registers, offset, store => do
    let taken ← slice words offset (offset + (dataType register).registerCount)
    let store := match registerValueFromWords (dataType register) taken memLayout with
      | some value => store.set (name register) value
      | none => store
    applyWords words registers (offset + (dataType register).registerCount) store

/-- A response of as many words as were asked for is taken apart. -/
def applyRegisterResponse (decode : Bytes → Outcome DecodeError (List UInt16)) (batch : Batch ρ) (responsePdu : Bytes)
    (store : Store String RegisterValue) : Outcome Empty (Store String RegisterValue) :=
  match decode responsePdu with
  | .ok words =>
    if words.length = batch.quantity.toNat then applyWords name dataType memLayout words batch.items 0 store
    else .ok store
  | .err _ => .ok store
  | .panic => .panic

/-- A response of at least as many bits; the padding after them is not looked at. -/
def applyBitResponse (decode : Bytes → Outcome DecodeError (List Bool)) (batch : Batch ρ) (responsePdu : Bytes)
    (store : Store String CoilValue) : Outcome Empty (Store String CoilValue) :=
  match decode responsePdu with
  | .ok values =>
    if batch.items.length ≤ values.length then
      .ok (store.setAll ((batch.items.zip values).map fun p => (name p.1, ⟨p.2⟩)))
    else .ok store
  | .err _ => .ok store
  | .panic => .panic

/-- A response of one record. -/
def applyRecordResponse (description : FileRecordDescription) (responsePdu : Bytes) (store : FileRecordStore) :
    Outcome Empty FileRecordStore :=
  match ReadFileRecordResponse.decode responsePdu with
  | .ok response =>
    match response.records with
    | [record] => .ok (store.set (description.fileNumber, description.recordNumber) record)
    | _ => .ok store
  | .err _ => .ok store
  | .panic => .panic

end Responses

section Polls

variable {σ : Type} (request : Exchange σ)

def pollOnce (batches : List (Batch RegisterDescription)) (memLayout : MemLayout) (unitId : UInt8) :
    Poll σ String RegisterValue → Outcome Empty (Poll σ String RegisterValue) :=
  pollEach request unitId (fun batch => ReadHoldingRegistersRequest.encode ⟨batch.startingAddress, batch.quantity⟩)
    (applyRegisterResponse RegisterDescription.name RegisterDescription.dataType memLayout fun pdu =>
      (ReadHoldingRegistersResponse.decode pdu).map ReadHoldingRegistersResponse.registerValues) batches

def pollInputRegistersOnce (batches : List (Batch InputRegisterDescription)) (inputRegisterMemLayout : MemLayout)
    (unitId : UInt8) : Poll σ String RegisterValue → Outcome Empty (Poll σ String RegisterValue) :=
  pollEach request unitId (fun batch => ReadInputRegistersRequest.encode ⟨batch.startingAddress, batch.quantity⟩)
    (applyRegisterResponse InputRegisterDescription.name InputRegisterDescription.dataType inputRegisterMemLayout
      fun pdu => (ReadInputRegistersResponse.decode pdu).map ReadInputRegistersResponse.registerValues) batches

def pollCoilsOnce (batches : List (Batch CoilDescription)) (unitId : UInt8) :
    Poll σ String CoilValue → Outcome Empty (Poll σ String CoilValue) :=
  pollEach request unitId (fun batch => ReadCoilsRequest.encode ⟨batch.startingAddress, batch.quantity⟩)
    (applyBitResponse CoilDescription.name fun pdu =>
      (ReadCoilsResponse.decode pdu).map ReadCoilsResponse.coilValues) batches

def pollDiscreteInputsOnce (batches : List (Batch DiscreteInputDescription)) (unitId : UInt8) :
    Poll σ String CoilValue → Outcome Empty (Poll σ String CoilValue) :=
  pollEach request unitId (fun batch => ReadDiscreteInputsRequest.encode ⟨batch.startingAddress, batch.quantity⟩)
    (applyBitResponse DiscreteInputDescription.name fun pdu =>
      (ReadDiscreteInputsResponse.decode pdu).map ReadDiscreteInputsResponse.discreteInputValues) batches

def pollFileRecordsOnce (fileRecords : List FileRecordDescription) (unitId : UInt8) :
    Poll σ (UInt16 × UInt16) Bytes → Outcome Empty (Poll σ (UInt16 × UInt16) Bytes) :=
  pollEach request unitId
    (fun description => ReadFileRecordRequest.encode
      ⟨[⟨description.fileNumber, description.recordNumber, description.recordLength⟩]⟩)
    applyRecordResponse fileRecords

/-- A turn of the polling loop: the connection, the stores and the reconnect signal after
the five polls of a machine. -/
def pollCycle (machine : MachineDescription) (connection : σ) (stores : MachineStores) (broken : Bool) :
    Outcome Empty (σ × MachineStores × Bool) := do
  let registers ← pollOnce request (buildReadBatches machine.registers) machine.memLayout machine.unitId
    ⟨connection, stores.registers, broken⟩
  let coils ← pollCoilsOnce request (buildCoilReadBatches machine.coils) machine.unitId
    ⟨registers.connection, stores.coils, registers.broken⟩
  let discreteInputs ← pollDiscreteInputsOnce request (buildDiscreteInputReadBatches machine.discreteInputs)
    machine.unitId ⟨coils.connection, stores.discreteInputs, coils.broken⟩
  let inputRegisters ← pollInputRegistersOnce request (buildInputRegisterReadBatches machine.inputRegisters)
    machine.inputRegisterMemLayout machine.unitId
    ⟨discreteInputs.connection, stores.inputRegisters, discreteInputs.broken⟩
  let fileRecords ← pollFileRecordsOnce request machine.fileRecords machine.unitId
    ⟨inputRegisters.connection, stores.fileRecords, inputRegisters.broken⟩
  pure (fileRecords.connection,
    { stores with
      registers := registers.store, coils := coils.store, discreteInputs := discreteInputs.store,
      inputRegisters := inputRegisters.store, fileRecords := fileRecords.store },
    fileRecords.broken)

end Polls

/-! ### What a poll stores -/

/-- When every request is answered and every answer stores its entries, so does the poll. -/
theorem pollEach_of_answered {σ β κ ν : Type} [DecidableEq κ] {request : Exchange σ} {unitId : UInt8}
    {encode : β → Bytes} {apply : β → Bytes → Store κ ν → Outcome Empty (Store κ ν)} {connection : σ}
    {entries : β → List (κ × ν)} {batches : List β}
    (h : ∀ batch ∈ batches, ∃ responsePdu, request unitId (encode batch) connection = (.ok responsePdu, connection) ∧
      ∀ store, apply batch responsePdu store = .ok (store.setAll (entries batch))) (store : Store κ ν) (broken : Bool) :
    pollEach request unitId encode apply batches ⟨connection, store, broken⟩ =
      .ok ⟨connection, store.setAll (batches.flatMap entries), broken⟩ := by
  induction batches generalizing store with
  | nil => rfl
  | cons batch batches ih =>
    obtain ⟨responsePdu, hrequest, happly⟩ := h batch List.mem_cons_self
    have hrest := ih (fun other hother => h other (List.mem_cons_of_mem _ hother)) (store.setAll (entries batch))
    rw [pollEach, hrequest]
    dsimp only
    rw [happly, ok_bind, hrest, List.flatMap_cons, Store.setAll_append]

section Responses

variable {ρ : Type} {name : ρ → String} {dataType : ρ → DataType} {memLayout : MemLayout}

/-- Words that spell values are taken apart into these values. -/
theorem applyWords_of_values {value : ρ → RegisterValue} {registers : List ρ}
    (htype : ∀ register ∈ registers, (value register).dataType = dataType register) {words rest : List UInt16}
    {offset : ℕ} (hoffset : offset ≤ words.length)
    (h : words.drop offset = (registers.flatMap fun register => registerValueToWords (value register) memLayout) ++ rest)
    (store : Store String RegisterValue) :
    applyWords name dataType memLayout words registers offset store =
      .ok (store.setAll (registers.map fun register => (name register, value register))) := by
  induction registers generalizing offset store with
  | nil => rfl
  | cons register registers ih =>
    have hvalue := htype register List.mem_cons_self
    have hlen : (registerValueToWords (value register) memLayout).length = (dataType register).registerCount := by
      rw [length_registerValueToWords, hvalue]
    rw [List.flatMap_cons, List.append_assoc] at h
    have hlong : offset + (dataType register).registerCount ≤ words.length := by
      have htotal := congrArg List.length h
      rw [List.length_drop, List.length_append, hlen] at htotal
      omega
    have htaken : (slice words offset (offset + (dataType register).registerCount) : Outcome Empty (List UInt16)) =
        .ok (registerValueToWords (value register) memLayout) := by
      have hslice := @slice_add Empty _ _ _ hoffset 0 (dataType register).registerCount
      rw [Nat.add_zero, h] at hslice
      rw [hslice, slice_append _ _ hlen.symm]
    have hrest : words.drop (offset + (dataType register).registerCount) =
        (registers.flatMap fun register => registerValueToWords (value register) memLayout) ++ rest := by
      rw [← List.drop_drop, h, List.drop_left' hlen]
    have hread := registerValueFromWords_toWords (value register) memLayout
    rw [hvalue] at hread
    rw [applyWords, htaken, ok_bind, hread]
    exact ih (fun other hother => htype other (List.mem_cons_of_mem _ hother)) hlong hrest _

/-- Bits, padded or not, go to the items in order. -/
theorem applyBitResponse_of_values {value : ρ → Bool} {decode : Bytes → Outcome DecodeError (List Bool)}
    {batch : Batch ρ} {responsePdu : Bytes} {padding : List Bool}
    (h : decode responsePdu = .ok (batch.items.map value ++ padding)) (store : Store String CoilValue) :
    applyBitResponse name decode batch responsePdu store =
      .ok (store.setAll (batch.items.map fun item => (name item, ⟨value item⟩))) := by
  have hzip : ∀ items : List ρ, items.zip (items.map value ++ padding) = items.map fun item => (item, value item) := by
    intro items
    induction items with
    | nil => rfl
    | cons item items ih => rw [List.map_cons, List.cons_append, List.zip_cons_cons, ih, List.map_cons]
  rw [applyBitResponse, h]
  dsimp only
  rw [if_pos (by simp), hzip, List.map_map]
  rfl

end Responses

end InfusedModbus.Client
