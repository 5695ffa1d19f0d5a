import Mathlib.Order.Interval.Set.Disjoint
import InfusedModbus.Client.BatchRange
import InfusedModbus.Server.Process

/-! A poll cycle against the server mirrors it. The server's answer to a batch is the words
or the bits of its items in their order, and the client's walk over the answer gives each
item its own back. -/

namespace InfusedModbus.Client

open Foundation Foundation.Outcome Protocol Datafs Server

/-! ### The five polls -/

section Polls

variable {serverOptions : ServerOptions} {tomlSource : String} {fc43BulkTransfer : Fc43BulkTransfer}
  {machines : Machines} {machine : ServerMachineState} {description : MachineDescription}

/-- A poll that is answered by a machine which stays as it is leaves the server as it is. -/
theorem serverExchange_read (functionCode : UInt8) {pdu response : Bytes} (hhead : pdu.head? = some functionCode)
    (henabled : serverOptions.isEnabled functionCode) (hget : machines.get description.unitId = some machine)
    (hidentification : functionCode ≠ functionCodeEncapsulatedInterfaceTransport)
    (hfile : functionCode ≠ functionCodeReadFileRecord)
    (h : handleMachineRequest functionCode pdu machine = .ok (response, machine)) :
    serverExchange serverOptions tomlSource fc43BulkTransfer description.unitId pdu machines =
      (.ok response, machines) := by
  rw [serverExchange_of_machine hhead henabled hget hidentification hfile h, Store.set_eq_self hget]

/-- The words of a batch, answered by the server, are taken apart into the stored values. -/
theorem applyRegisterResponse_of_words {ρ : Type} {name : ρ → String} {dataType : ρ → DataType} {memLayout : MemLayout}
    {serverStore : Store String RegisterValue} {decode : Bytes → Outcome DecodeError (List UInt16)} {batch : Batch ρ}
    {responsePdu : Bytes}
    (hdecode : decode responsePdu = .ok (batch.items.flatMap (registerWords name dataType serverStore memLayout)))
    (hlen : (batch.items.flatMap (registerWords name dataType serverStore memLayout)).length = batch.quantity.toNat)
    (store : Store String RegisterValue) :
    applyRegisterResponse name dataType memLayout decode batch responsePdu store =
      .ok (store.setAll (batch.items.map fun register =>
        (name register, storedValue serverStore (name register) (dataType register)))) := by
  rw [applyRegisterResponse, hdecode]
  dsimp only
  rw [if_pos hlen]
  refine @applyWords_of_values _ name dataType memLayout
    (fun register => storedValue serverStore (name register) (dataType register)) _ ?_ _ [] 0 (Nat.zero_le _) ?_ store
  · exact fun register _ => dataType_storedValue _ _ _
  · rw [List.drop_zero, List.append_nil]
    rfl

/-- A batch of a flat section of registers is a range that its items tile. -/
theorem tiles_of_registerBatch {ρ : Type} {name : ρ → String} {address : ρ → UInt16} {dataType : ρ → DataType}
    {entries : List ρ} (hflat : FlatSection name address (width dataType) entries) {batch : Batch ρ}
    (hbatch : batch ∈ buildBatches address (wordsOf dataType) maxReadBatchSize entries) :
    Tiles (fun a => entries.find? fun entry => address entry == a) (width dataType) advance batch.startingAddress
      batch.quantity.toNat batch.items ∧ batch.quantity.toNat ≤ 125 := by
  have hsound := sound_of_mem_buildBatches (fun register _ => fitsBatch_wordsOf (by decide) (by decide) register) batch hbatch
  refine ⟨hsound.tiles (fun register hregister => ?_) fun register _ => toNat_wordsOf register,
    UInt16.le_iff_toNat_le.mp hsound.quantity_le⟩
  exact hflat.find?_eq (fun r _ => width_pos r) (exists_batch_iff.mp ⟨batch, hbatch, hregister⟩)

theorem tiles_of_bitBatch {ρ : Type} {name : ρ → String} {address : ρ → UInt16} {entries : List ρ}
    (hflat : FlatSection name address (fun _ => 1) entries) {batch : Batch ρ}
    (hbatch : batch ∈ buildBatches address (fun _ => 1) maxPackedBitReadBatchSize entries) :
    Tiles (fun a => entries.find? fun entry => address entry == a) (fun _ => 1) advance batch.startingAddress
      batch.quantity.toNat batch.items ∧ batch.quantity.toNat ≤ 2000 := by
  have hsound := sound_of_mem_buildBatches (fun entry _ => fitsBatch_bit (by decide) (by decide) entry) batch hbatch
  refine ⟨hsound.tiles (fun entry hentry => ?_) fun _ _ => rfl, UInt16.le_iff_toNat_le.mp hsound.quantity_le⟩
  exact hflat.find?_eq (fun _ _ => Nat.one_pos) (exists_batch_iff.mp ⟨batch, hbatch, hentry⟩)

/-- A poll of a flat section of registers, when the read of a batch is answered with its words. -/
theorem pollRegisters_of_answers {ρ : Type} {name : ρ → String} {address : ρ → UInt16} {dataType : ρ → DataType}
    {entries : List ρ} (hflat : FlatSection name address (width dataType) entries) {memLayout : MemLayout}
    {serverStore : Store String RegisterValue} {functionCode unitId : UInt8} {request : Exchange Machines}
    {encode : Batch ρ → Bytes} {decode : Bytes → Outcome DecodeError (List UInt16)}
    (hdecode : ∀ {values : List UInt16}, values.length ≤ 125 →
      decode (encodeRegisterArrayResponse functionCode values) = .ok values)
    (hanswer : ∀ batch : Batch ρ, Tiles (fun a => entries.find? fun entry => address entry == a) (width dataType) advance
        batch.startingAddress batch.quantity.toNat batch.items →
      request unitId (encode batch) machines = (.ok (encodeRegisterArrayResponse functionCode
        (batch.items.flatMap (registerWords name dataType serverStore memLayout))), machines))
    (store : Store String RegisterValue) (broken : Bool) :
    pollEach request unitId encode (applyRegisterResponse name dataType memLayout decode)
        (buildBatches address (wordsOf dataType) maxReadBatchSize entries) ⟨machines, store, broken⟩ =
      .ok ⟨machines, store.setAll ((buildBatches address (wordsOf dataType) maxReadBatchSize entries).flatMap fun batch =>
        batch.items.map fun register =>
          (name register, storedValue serverStore (name register) (dataType register))), broken⟩ := by
  apply pollEach_of_answered
  intro batch hbatch
  obtain ⟨htiles, hquantity⟩ := tiles_of_registerBatch hflat hbatch
  have hlen : (batch.items.flatMap (registerWords name dataType serverStore memLayout)).length = batch.quantity.toNat :=
    length_flatMap_registerWords htiles _ _
  refine ⟨_, hanswer batch htiles, fun store => ?_⟩
  apply applyRegisterResponse_of_words
  · exact hdecode (by omega)
  · exact hlen

theorem pollOnce_of_server (hflat : FlatDescription description) (hget : machines.get description.unitId = some machine)
    (hregisters : machine.registers = description.registers) (hlayout : machine.memLayout = description.memLayout)
    (henabled : serverOptions.isEnabled functionCodeReadHoldingRegisters) (store : RegisterStore) (broken : Bool) :
    pollOnce (serverExchange serverOptions tomlSource fc43BulkTransfer) (buildReadBatches description.registers)
        description.memLayout description.unitId ⟨machines, store, broken⟩ =
      .ok ⟨machines, store.setAll ((buildReadBatches description.registers).flatMap fun batch =>
        batch.items.map fun register =>
          (register.name, storedValue machine.store register.name register.dataType)), broken⟩ := by
  apply pollRegisters_of_answers hflat.registers
  · intro values hlen
    rw [ReadHoldingRegistersResponse.decode, decodeRegisterArrayResponse_encode _ (by omega)]
    rfl
  · intro batch htiles
    have hdec : ReadHoldingRegistersRequest.decode (ReadHoldingRegistersRequest.encode
        ⟨batch.startingAddress, batch.quantity⟩) = .ok ⟨batch.startingAddress, batch.quantity⟩ := by
      simp [ReadHoldingRegistersRequest.decode, ReadHoldingRegistersRequest.encode]
    apply serverExchange_read functionCodeReadHoldingRegisters rfl henabled hget (by decide) (by decide)
    rw [handleMachineRequest_readHoldingRegisters, hregisters, handleRead_of_tiles hdec htiles, hlayout]
    rfl

theorem pollInputRegistersOnce_of_server (hflat : FlatDescription description)
    (hget : machines.get description.unitId = some machine)
    (hregisters : machine.inputRegisters = description.inputRegisters)
    (hlayout : machine.inputRegisterMemLayout = description.inputRegisterMemLayout)
    (henabled : serverOptions.isEnabled functionCodeReadInputRegisters) (store : InputRegisterStore) (broken : Bool) :
    pollInputRegistersOnce (serverExchange serverOptions tomlSource fc43BulkTransfer)
        (buildInputRegisterReadBatches description.inputRegisters) description.inputRegisterMemLayout
        description.unitId ⟨machines, store, broken⟩ =
      .ok ⟨machines, store.setAll ((buildInputRegisterReadBatches description.inputRegisters).flatMap fun batch =>
        batch.items.map fun register =>
          (register.name, storedValue machine.inputRegisterStore register.name register.dataType)), broken⟩ := by
  apply pollRegisters_of_answers hflat.inputRegisters
  · intro values hlen
    rw [ReadInputRegistersResponse.decode, decodeRegisterArrayResponse_encode _ (by omega)]
    rfl
  · intro batch htiles
    have hdec : ReadInputRegistersRequest.decode (ReadInputRegistersRequest.encode
        ⟨batch.startingAddress, batch.quantity⟩) = .ok ⟨batch.startingAddress, batch.quantity⟩ := by
      simp [ReadInputRegistersRequest.decode, ReadInputRegistersRequest.encode]
    apply serverExchange_read functionCodeReadInputRegisters rfl henabled hget (by decide) (by decide)
    rw [handleMachineRequest_readInputRegisters, hregisters, handleReadInputRegisters_of_tiles hdec htiles, hlayout]
    rfl

/-- The same for bits. -/
theorem pollBits_of_answers {ρ : Type} {name : ρ → String} {address : ρ → UInt16} {entries : List ρ}
    (hflat : FlatSection name address (fun _ => 1) entries) {serverStore : Store String CoilValue}
    {functionCode unitId : UInt8} {request : Exchange Machines} {encode : Batch ρ → Bytes}
    {decode : Bytes → Outcome DecodeError (List Bool)}
    (hdecode : ∀ {values : List Bool}, divCeil values.length 8 < 256 →
      decode (encodeBitfieldResponse functionCode values) =
        .ok (values ++ List.replicate (8 * divCeil values.length 8 - values.length) false))
    (hanswer : ∀ batch : Batch ρ, Tiles (fun a => entries.find? fun entry => address entry == a) (fun _ => 1) advance
        batch.startingAddress batch.quantity.toNat batch.items →
      request unitId (encode batch) machines =
        (.ok (encodeBitfieldResponse functionCode (batch.items.map (storedBit name serverStore))), machines))
    (store : Store String CoilValue) (broken : Bool) :
    pollEach request unitId encode (applyBitResponse name decode)
        (buildBatches address (fun _ => 1) maxPackedBitReadBatchSize entries) ⟨machines, store, broken⟩ =
      .ok ⟨machines, store.setAll ((buildBatches address (fun _ => 1) maxPackedBitReadBatchSize entries).flatMap
        fun batch => batch.items.map fun entry => (name entry, ⟨storedBit name serverStore entry⟩)), broken⟩ := by
  apply pollEach_of_answered
  intro batch hbatch
  obtain ⟨htiles, hquantity⟩ := tiles_of_bitBatch hflat hbatch
  have hlen : batch.items.length = batch.quantity.toNat := by
    simpa using htiles.sum_eq
  refine ⟨_, hanswer batch htiles, fun store => ?_⟩
  exact applyBitResponse_of_values (hdecode (by simp [divCeil, hlen]; omega)) store

theorem pollCoilsOnce_of_server (hflat : FlatDescription description)
    (hget : machines.get description.unitId = some machine) (hcoils : machine.coils = description.coils)
    (henabled : serverOptions.isEnabled functionCodeReadCoils) (store : CoilStore) (broken : Bool) :
    pollCoilsOnce (serverExchange serverOptions tomlSource fc43BulkTransfer) (buildCoilReadBatches description.coils)
        description.unitId ⟨machines, store, broken⟩ =
      .ok ⟨machines, store.setAll ((buildCoilReadBatches description.coils).flatMap fun batch =>
        batch.items.map fun coil => (coil.name, ⟨storedBit CoilDescription.name machine.coilStore coil⟩)), broken⟩ := by
  apply pollBits_of_answers hflat.coils
  · intro values hcount
    rw [ReadCoilsResponse.decode, decodeBitfieldResponse_encode _ hcount]
    rfl
  · intro batch htiles
    have hdec : ReadCoilsRequest.decode (ReadCoilsRequest.encode ⟨batch.startingAddress, batch.quantity⟩) =
        .ok ⟨batch.startingAddress, batch.quantity⟩ := by
      simp [ReadCoilsRequest.decode, ReadCoilsRequest.encode]
    apply serverExchange_read functionCodeReadCoils rfl henabled hget (by decide) (by decide)
    rw [handleMachineRequest_readCoils, hcoils, handleReadCoils_of_configured hdec (configured_of_tiles htiles),
      ← bits_of_tiles htiles]
    rfl

theorem pollDiscreteInputsOnce_of_server (hflat : FlatDescription description)
    (hget : machines.get description.unitId = some machine)
    (hinputs : machine.discreteInputs = description.discreteInputs)
    (henabled : serverOptions.isEnabled functionCodeReadDiscreteInputs) (store : DiscreteInputStore) (broken : Bool) :
    pollDiscreteInputsOnce (serverExchange serverOptions tomlSource fc43BulkTransfer)
        (buildDiscreteInputReadBatches description.discreteInputs) description.unitId ⟨machines, store, broken⟩ =
      .ok ⟨machines, store.setAll ((buildDiscreteInputReadBatches description.discreteInputs).flatMap fun batch =>
        batch.items.map fun discreteInput => (discreteInput.name,
          ⟨storedBit DiscreteInputDescription.name machine.discreteInputStore discreteInput⟩)), broken⟩ := by
  apply pollBits_of_answers hflat.discreteInputs
  · intro values hcount
    rw [ReadDiscreteInputsResponse.decode, decodeBitfieldResponse_encode _ hcount]
    rfl
  · intro batch htiles
    have hdec : ReadDiscreteInputsRequest.decode (ReadDiscreteInputsRequest.encode
        ⟨batch.startingAddress, batch.quantity⟩) = .ok ⟨batch.startingAddress, batch.quantity⟩ := by
      simp [ReadDiscreteInputsRequest.decode, ReadDiscreteInputsRequest.encode]
    apply serverExchange_read functionCodeReadDiscreteInputs rfl henabled hget (by decide) (by decide)
    rw [handleMachineRequest_readDiscreteInputs, hinputs,
      handleReadDiscreteInputs_of_configured hdec (configured_of_tiles htiles), ← bits_of_tiles htiles]
    rfl

/-- A file record that the server reads in one response. -/
structure RecordReadable (serverOptions : ServerOptions) (fileRecord : FileRecordDescription) : Prop where
  length_le : fileRecord.recordLength.toNat ≤ 124
  unreserved : serverOptions.detectMachineLayout → fileRecord.fileNumber ≠ reservedDeviceDescriptionFileNumber

/-- The read of one described record is answered with its bytes. -/
theorem handleReadFileRecord_of_described (hflat : FlatDescription description)
    {fileRecordStore : FileRecordStore} {fileRecord : FileRecordDescription}
    (hmem : fileRecord ∈ description.fileRecords) (hlength : fileRecord.recordLength.toNat ≤ 124)
    (hstored : (storedRecord fileRecordStore fileRecord).length = fileRecord.recordLength.toNat * 2) {pdu : Bytes}
    (hdec : ReadFileRecordRequest.decode pdu =
      .ok ⟨[⟨fileRecord.fileNumber, fileRecord.recordNumber, fileRecord.recordLength⟩]⟩) :
    handleReadFileRecord pdu description.fileRecords fileRecordStore =
      .ok (ReadFileRecordResponse.mk [storedRecord fileRecordStore fileRecord]).encode := by
  have hresolved : resolveFileReads description.fileRecords
      [⟨fileRecord.fileNumber, fileRecord.recordNumber, fileRecord.recordLength⟩] = .ok [fileRecord] :=
    resolveFileReads_eq_ok.mpr (.cons ⟨hflat.findFileRecord_eq hmem, rfl⟩ .nil)
  have hfits : ¬(ReadFileRecordResponse.mk ([fileRecord].map (storedRecord fileRecordStore))).encode.length >
      maxPduLen := by
    rw [ReadFileRecordResponse.length_encode]
    simp only [List.map_cons, List.map_nil, List.sum_cons, List.sum_nil, hstored, maxPduLen]
    omega
  rw [handleReadFileRecord, hdec, letOk_ok, hresolved]
  dsimp only
  rw [if_neg hfits]
  rfl

theorem pollFileRecordsOnce_of_server (hflat : FlatDescription description)
    (hget : machines.get description.unitId = some machine)
    (hrecords : machine.fileRecords = description.fileRecords)
    (hreadable : ∀ fileRecord ∈ description.fileRecords, RecordReadable serverOptions fileRecord)
    (htyped : TypedStores machine) (henabled : serverOptions.isEnabled functionCodeReadFileRecord)
    (store : FileRecordStore) (broken : Bool) :
    pollFileRecordsOnce (serverExchange serverOptions tomlSource fc43BulkTransfer) description.fileRecords
        description.unitId ⟨machines, store, broken⟩ =
      .ok ⟨machines, store.setAll (description.fileRecords.flatMap fun fileRecord =>
        [(recordKey fileRecord, storedRecord machine.fileRecordStore fileRecord)]), broken⟩ := by
  apply pollEach_of_answered
  intro fileRecord hmem
  have hlength := (hreadable fileRecord hmem).length_le
  have hstored := length_storedRecord (htyped.fileRecords fileRecord (hrecords ▸ hmem))
  have hdec : ReadFileRecordRequest.decode (ReadFileRecordRequest.encode
      ⟨[⟨fileRecord.fileNumber, fileRecord.recordNumber, fileRecord.recordLength⟩]⟩) =
        .ok ⟨[⟨fileRecord.fileNumber, fileRecord.recordNumber, fileRecord.recordLength⟩]⟩ :=
    ReadFileRecordRequest.decode_encode (by simp) (by simp [fileRecordSubRequestLen])
  refine ⟨(ReadFileRecordResponse.mk [storedRecord machine.fileRecordStore fileRecord]).encode, ?_, fun store => ?_⟩
  · have hbulk : serverOptions.detectMachineLayout → ¬IsBulkTransfer
        ⟨[⟨fileRecord.fileNumber, fileRecord.recordNumber, fileRecord.recordLength⟩]⟩ := by
      intro hdetect hreserved
      exact (hreadable fileRecord hmem).unreserved hdetect (hreserved.2 _ List.mem_cons_self)
    have hhandled : handleMachineRequest functionCodeReadFileRecord (ReadFileRecordRequest.encode
        ⟨[⟨fileRecord.fileNumber, fileRecord.recordNumber, fileRecord.recordLength⟩]⟩) machine =
          .ok ((ReadFileRecordResponse.mk [storedRecord machine.fileRecordStore fileRecord]).encode, machine) := by
      rw [handleMachineRequest_readFileRecord, hrecords,
        handleReadFileRecord_of_described hflat hmem hlength hstored hdec]
      rfl
    rw [serverExchange_readFileRecord rfl henabled hget hdec hbulk hhandled, Store.set_eq_self hget]
  · have hdecoded : ReadFileRecordResponse.decode
        (ReadFileRecordResponse.mk [storedRecord machine.fileRecordStore fileRecord]).encode =
          .ok ⟨[storedRecord machine.fileRecordStore fileRecord]⟩ := by
      apply ReadFileRecordResponse.decode_encode
      simp only [List.map_cons, List.map_nil, List.sum_cons, List.sum_nil, hstored]
      omega
    rw [applyRecordResponse, hdecoded]
    rfl

end Polls

/-! ### The whole cycle -/

/-- The function codes of the five polls. -/
structure ReadsEnabled (serverOptions : ServerOptions) : Prop where
  registers : serverOptions.isEnabled functionCodeReadHoldingRegisters = true
  coils : serverOptions.isEnabled functionCodeReadCoils = true
  discreteInputs : serverOptions.isEnabled functionCodeReadDiscreteInputs = true
  inputRegisters : serverOptions.isEnabled functionCodeReadInputRegisters = true
  fileRecords : serverOptions.isEnabled functionCodeReadFileRecord = true

/-- The stores hold, for every described point, what the machine has, or what a point
that was never set reads as. -/
structure Mirrors (description : MachineDescription) (machine : ServerMachineState) (stores : MachineStores) : Prop where
  registers : ∀ register ∈ description.registers, stores.registers.get register.name =
    some ((machine.store.get register.name).getD (defaultRegisterValue register.dataType))
  coils : ∀ coil ∈ description.coils, stores.coils.get coil.name =
    some ((machine.coilStore.get coil.name).getD ⟨false⟩)
  discreteInputs : ∀ discreteInput ∈ description.discreteInputs, stores.discreteInputs.get discreteInput.name =
    some ((machine.discreteInputStore.get discreteInput.name).getD ⟨false⟩)
  inputRegisters : ∀ inputRegister ∈ description.inputRegisters, stores.inputRegisters.get inputRegister.name =
    some ((machine.inputRegisterStore.get inputRegister.name).getD (defaultRegisterValue inputRegister.dataType))
  fileRecords : ∀ fileRecord ∈ description.fileRecords, stores.fileRecords.get (recordKey fileRecord) =
    some ((machine.fileRecordStore.get (recordKey fileRecord)).getD
      (List.replicate (fileRecord.recordLength.toNat * 2) 0))

/-- After a poll cycle against the server the client's stores mirror the machine, and
neither the server nor the connection has noticed. -/
theorem poll_cycle_mirrors_server {serverOptions : ServerOptions} (henabled : ReadsEnabled serverOptions)
    (tomlSource : String) (fc43BulkTransfer : Fc43BulkTransfer) {machines : Machines} {machine : ServerMachineState}
    {description : MachineDescription} (hget : machines.get description.unitId = some machine)
    (hconfigured : machine.unset = .fresh description) (hflat : FlatDescription description)
    (hreadable : ∀ fileRecord ∈ description.fileRecords, RecordReadable serverOptions fileRecord)
    (htyped : TypedStores machine) (stores : MachineStores) (broken : Bool) :
    ∃ stores', pollCycle (serverExchange serverOptions tomlSource fc43BulkTransfer) description machines stores
        broken = .ok (machines, stores', broken) ∧ Mirrors description machine stores' := by
  have hregisters : machine.registers = description.registers := congrArg ServerMachineState.registers hconfigured
  have hcoils : machine.coils = description.coils := congrArg ServerMachineState.coils hconfigured
  have hdiscrete : machine.discreteInputs = description.discreteInputs :=
    congrArg ServerMachineState.discreteInputs hconfigured
  have hinput : machine.inputRegisters = description.inputRegisters :=
    congrArg ServerMachineState.inputRegisters hconfigured
  have hrecords : machine.fileRecords = description.fileRecords :=
    congrArg ServerMachineState.fileRecords hconfigured
  have hlayout : machine.memLayout = description.memLayout := congrArg ServerMachineState.memLayout hconfigured
  have hinputLayout : machine.inputRegisterMemLayout = description.inputRegisterMemLayout :=
    congrArg ServerMachineState.inputRegisterMemLayout hconfigured
  refine ⟨{ stores with
    registers := stores.registers.setAll ((buildReadBatches description.registers).flatMap fun batch =>
      batch.items.map fun register =>
        (register.name, storedValue machine.store register.name register.dataType))
    coils := stores.coils.setAll ((buildCoilReadBatches description.coils).flatMap fun batch =>
      batch.items.map fun coil => (coil.name, ⟨storedBit CoilDescription.name machine.coilStore coil⟩))
    discreteInputs := stores.discreteInputs.setAll
      ((buildDiscreteInputReadBatches description.discreteInputs).flatMap fun batch =>
        batch.items.map fun discreteInput => (discreteInput.name,
          ⟨storedBit DiscreteInputDescription.name machine.discreteInputStore discreteInput⟩))
    inputRegisters := stores.inputRegisters.setAll
      ((buildInputRegisterReadBatches description.inputRegisters).flatMap fun batch =>
        batch.items.map fun register =>
          (register.name, storedValue machine.inputRegisterStore register.name register.dataType))
    fileRecords := stores.fileRecords.setAll (description.fileRecords.flatMap fun fileRecord =>
      [(recordKey fileRecord, storedRecord machine.fileRecordStore fileRecord)]) }, ?_, ?_⟩
  · rw [pollCycle, pollOnce_of_server hflat hget hregisters hlayout henabled.registers, ok_bind,
      pollCoilsOnce_of_server hflat hget hcoils henabled.coils, ok_bind,
      pollDiscreteInputsOnce_of_server hflat hget hdiscrete henabled.discreteInputs, ok_bind,
      pollInputRegistersOnce_of_server hflat hget hinput hinputLayout henabled.inputRegisters, ok_bind,
      pollFileRecordsOnce_of_server hflat hget hrecords hreadable htyped henabled.fileRecords, ok_bind]
    rfl
  · constructor
    case registers =>
      intro register hregister
      have htype := htyped.registers register (hregisters ▸ hregister)
      rw [← storedValue_of_typed htype]
      apply get_setAll_batches hflat.registers.names
      exact hregister
    case coils =>
      intro coil hcoil
      rw [← storedBit_eq]
      apply get_setAll_batches hflat.coils.names
      exact hcoil
    case discreteInputs =>
      intro discreteInput hinput
      rw [← storedBit_eq]
      apply get_setAll_batches hflat.discreteInputs.names
      exact hinput
    case inputRegisters =>
      intro inputRegister hregister
      have htype := htyped.inputRegisters inputRegister (hinput ▸ hregister)
      rw [← storedValue_of_typed htype]
      apply get_setAll_batches hflat.inputRegisters.names
      exact hregister
    case fileRecords =>
      intro fileRecord hrecord
      have hmap : (description.fileRecords.flatMap fun fileRecord =>
          [(recordKey fileRecord, storedRecord machine.fileRecordStore fileRecord)]) =
            description.fileRecords.map fun fileRecord =>
              (recordKey fileRecord, storedRecord machine.fileRecordStore fileRecord) := List.map_eq_flatMap.symm
      dsimp only
      rw [hmap]
      apply Store.get_setAll_of_mem
      · rw [List.map_map]
        exact hflat.fileRecords
      · exact List.mem_map_of_mem hrecord

/-- A pump that counts its strokes and has been counting for a while. -/
def pump : MachineDescription where
  name := "pump"
  unitId := 3
  registers := [⟨"strokes", 10, .u32, .readWrite, none⟩, ⟨"pressure", 12, .u16, .readOnly, none⟩]
  coils := [⟨"running", 0⟩]
  discreteInputs := [⟨"leak", 7⟩]
  inputRegisters := [⟨"level", 65535, .i16, none⟩]
  fileRecords := [⟨4, 1, 2⟩]
  memLayout := .cdab
  inputRegisterMemLayout := .abcd
  serverId := none

theorem pump_flat : FlatDescription pump where
  registers := ⟨by decide, by simp [pump, extent, width, DataType.registerCount], by decide⟩
  coils := ⟨by decide, by simp [pump], by decide⟩
  discreteInputs := ⟨by decide, by simp [pump], by decide⟩
  inputRegisters := ⟨by decide, by simp [pump], by decide⟩
  fileRecords := by decide

/-- The pump's counted strokes reach the client's stores. -/
theorem poll_cycle_mirrors_pump :
    ∃ stores', pollCycle (serverExchange .allowAll "" ⟨[], ""⟩) pump
        (Store.empty.set 3 { ServerMachineState.fresh pump with store := Store.empty.set "strokes" (.u32 70000) })
        .new false =
          .ok (Store.empty.set 3
            { ServerMachineState.fresh pump with store := Store.empty.set "strokes" (.u32 70000) }, stores', false) ∧
      Mirrors pump { ServerMachineState.fresh pump with store := Store.empty.set "strokes" (.u32 70000) } stores' := by
  apply poll_cycle_mirrors_server
  case henabled => exact ⟨rfl, rfl, rfl, rfl, rfl⟩
  case hget => exact Store.get_set_self _ _ _
  case hconfigured => rfl
  case hflat => exact pump_flat
  case hreadable =>
    intro fileRecord hmem
    obtain rfl := List.mem_singleton.mp hmem
    exact ⟨by decide, fun _ => by decide⟩
  case htyped =>
    refine ⟨?_, ?_, ?_⟩
    · intro register hmem value hvalue
      rcases List.mem_cons.mp hmem with rfl | hmem
      · rw [Store.get_set_self] at hvalue
        obtain rfl := Option.some.inj hvalue
        rfl
      · obtain rfl := List.mem_singleton.mp hmem
        rw [Store.get_set_of_ne _ _ (by decide)] at hvalue
        cases hvalue
    · intro inputRegister _ value hvalue
      cases hvalue
    · intro fileRecord _ value hvalue
      cases hvalue

end InfusedModbus.Client
