import InfusedModbus.Client.Batching
import InfusedModbus.Client.Polling
import InfusedModbus.Client.ServerExchange
import InfusedModbus.Client.WriteConfirmation
import InfusedModbus.Foundation.Jobs

/-! Transactions. The staged names of a transaction are resolved against the description,
and what cannot be written is reported at once. The rest goes out in four rounds:
registers and coils in batches of neighbours, masks and file records one by one. Every
name gets the status of the request that carried it. -/

namespace InfusedModbus.Client

open Foundation Foundation.Outcome Protocol Datafs

def maxRegisterWriteBatchSize : UInt16 := 123
def maxCoilWriteBatchSize : UInt16 := 1968

def buildRegisterWriteBatches (entries : List (RegisterDescription × RegisterValue)) :
    List (Batch (RegisterDescription × RegisterValue)) :=
  buildBatches (fun entry => entry.1.address) (fun entry => wordsOf RegisterDescription.dataType entry.1)
    maxRegisterWriteBatchSize entries

def buildCoilWriteBatches (entries : List (CoilDescription × Bool)) : List (Batch (CoilDescription × Bool)) :=
  buildBatches (fun entry => entry.1.address) (fun _ => 1) maxCoilWriteBatchSize entries

/-- The write path of one machine. -/
structure MachineTransactionConfig where
  registers : List RegisterDescription
  coils : List CoilDescription
  fileRecords : List FileRecordDescription
  memLayout : MemLayout
  unitId : UInt8

def MachineTransactionConfig.ofDescription (machine : MachineDescription) : MachineTransactionConfig where
  registers := machine.registers
  coils := machine.coils
  fileRecords := machine.fileRecords
  memLayout := machine.memLayout
  unitId := machine.unitId

/-! ### Resolving names -/

/-- What becomes of a staged value. -/
inductive ResolvedWrite where
  | register (register : RegisterDescription) (value : RegisterValue)
  | coil (coil : CoilDescription) (value : Bool)
  | maskedRegister (register : RegisterDescription) (andMask orMask : UInt16)
  | fileRecord (name : String) (fileNumber recordNumber : UInt16) (value : Bytes)
  | refused (name reason : String)

/-- The arms of the loop over a transaction. -/
def resolveStaged (config : MachineTransactionConfig) (name : String) : StagedValue → ResolvedWrite
  | .register value =>
    match config.registers.find? fun register => register.name == name with
    | some register =>
      if register.dataType = value.dataType then .register register value
      else .refused name ("register " ++ name ++ ": expected a " ++ register.dataType.debug ++
        " value but got a " ++ value.dataType.debug ++ " one")
    | none => .refused name ("unknown register: " ++ name)
  | .coil value =>
    match config.coils.find? fun coil => coil.name == name with
    | some coil => .coil coil value.value
    | none => .refused name ("unknown coil: " ++ name)
  | .discreteInput _ => .refused name ("discrete input " ++ name ++ ": never writable via Modbus")
  | .inputRegister _ => .refused name ("input register " ++ name ++ ": never writable via Modbus")
  | .fileRecord fileNumber recordNumber value =>
    match config.fileRecords.find? fun description =>
      description.fileNumber == fileNumber && description.recordNumber == recordNumber with
    | some description =>
      if value.length = description.recordLength.toNat * 2 then .fileRecord name fileNumber recordNumber value
      else .refused name ("file record " ++ toString fileNumber ++ ":" ++ toString recordNumber ++ ": expected " ++
        toString (description.recordLength.toNat * 2) ++ " bytes but got " ++ toString value.length)
    | none => .refused name ("unknown file record: " ++ toString fileNumber ++ ":" ++ toString recordNumber)
  | .maskedRegister andMask orMask =>
    match config.registers.find? fun register => register.name == name with
    | some register =>
      if register.dataType.registerCount = 1 then .maskedRegister register andMask orMask
      else .refused name ("register " ++ name ++ ": " ++ register.dataType.debug ++ " needs " ++
        toString register.dataType.registerCount ++
        " registers, Mask Write Register can only target a single register")
    | none => .refused name ("unknown register: " ++ name)

/-- What the loop over a transaction has collected and reported. -/
structure Resolution where
  registerEntries : List (RegisterDescription × RegisterValue)
  coilEntries : List (CoilDescription × Bool)
  maskedRegisterEntries : List (RegisterDescription × UInt16 × UInt16)
  fileRecordEntries : List (String × UInt16 × UInt16 × Bytes)
  report : WriteReport

def Resolution.push (resolution : Resolution) : ResolvedWrite → Resolution
  | .register register value =>
    { resolution with registerEntries := resolution.registerEntries ++ [(register, value)] }
  | .coil coil value => { resolution with coilEntries := resolution.coilEntries ++ [(coil, value)] }
  | .maskedRegister register andMask orMask =>
    { resolution with maskedRegisterEntries := resolution.maskedRegisterEntries ++ [(register, andMask, orMask)] }
  | .fileRecord name fileNumber recordNumber value =>
    { resolution with
      fileRecordEntries := resolution.fileRecordEntries ++ [(name, fileNumber, recordNumber, value)] }
  | .refused name reason => { resolution with report := resolution.report.set name (.failed reason) }

/-- The loop over a transaction, in the order its names are met. -/
def resolveTransaction (config : MachineTransactionConfig) (transaction : List (String × StagedValue))
    (report : WriteReport) : Resolution :=
  (transaction.map fun staged => resolveStaged config staged.1 staged.2).foldl Resolution.push ⟨[], [], [], [], report⟩

/-! ### The four rounds -/

/-- Send the request, if there is one, and read off a status. -/
def Confirmation.run {σ : Type} (confirmation : Confirmation) (request : Exchange σ) (unitId : UInt8)
    (connection : σ) : Outcome Empty WriteStatus × σ :=
  match confirmation.pdu with
  | .ok pdu =>
    let (response, connection) := request unitId pdu connection
    (confirmation.conclude response, connection)
  | .err reason => (.ok (.failed reason), connection)
  | .panic => (.panic, connection)

/-- The loop of every round: a request for each write, and its status under all its names. -/
def confirmEach {σ β : Type} (request : Exchange σ) (unitId : UInt8) (confirmation : β → Outcome Empty Confirmation)
    (names : β → List String) : List β → σ → WriteReport → Outcome Empty (σ × WriteReport)
  | [], connection, report => .ok (connection, report)
  | write :: writes, connection, report => do
    let confirming ← confirmation write
    match confirming.run request unitId connection with
    | (.ok status, connection) =>
      confirmEach request unitId confirmation names writes connection
        (report.setAll ((names write).map fun name => (name, status)))
    | (.err error, _) => .err error
    | (.panic, _) => .panic

/-- A batch of one word is a single write, any other a multiple one. -/
def confirmRegisterBatch (memLayout : MemLayout) (batch : Batch (RegisterDescription × RegisterValue)) :
    Outcome Empty Confirmation :=
  if batch.quantity = 1 then do
    let (register, value) ← index batch.items 0
    pure (confirmWrite register value memLayout)
  else
    pure (confirmWriteMultiple batch.startingAddress
      (batch.items.flatMap fun entry => registerValueToWords entry.2 memLayout))

def confirmCoilBatch (batch : Batch (CoilDescription × Bool)) : Outcome Empty Confirmation :=
  match batch.items with
  | [(coil, value)] => pure (confirmCoilWrite coil ⟨value⟩)
  | items => pure (confirmCoilWriteMultiple batch.startingAddress (items.map Prod.snd))

def processTransaction {σ : Type} (request : Exchange σ) (config : MachineTransactionConfig)
    (transaction : List (String × StagedValue)) (connection : σ) (report : WriteReport) :
    Outcome Empty (σ × WriteReport) := do
  let resolution := resolveTransaction config transaction report
  let (connection, report) ← confirmEach request config.unitId (confirmRegisterBatch config.memLayout)
    (fun batch => batch.items.map fun entry => entry.1.name) (buildRegisterWriteBatches resolution.registerEntries)
    connection resolution.report
  let (connection, report) ← confirmEach request config.unitId confirmCoilBatch
    (fun batch => batch.items.map fun entry => entry.1.name) (buildCoilWriteBatches resolution.coilEntries)
    connection report
  let (connection, report) ← confirmEach request config.unitId
    (fun entry => pure (confirmMaskWrite entry.1 entry.2.1 entry.2.2)) (fun entry => [entry.1.name])
    resolution.maskedRegisterEntries connection report
  confirmEach request config.unitId
    (fun entry => pure (confirmFileRecordWrite entry.2.1 entry.2.2.1 entry.2.2.2)) (fun entry => [entry.1])
    resolution.fileRecordEntries connection report

end InfusedModbus.Client
