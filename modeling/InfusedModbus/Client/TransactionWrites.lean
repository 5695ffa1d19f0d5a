import InfusedModbus.Client.BatchRange
import InfusedModbus.Client.Transaction
import InfusedModbus.Server.Process

/-! What the server makes of each request of a transaction. A request either writes all
it carries and is confirmed, or it is refused and writes nothing: every round of a
transaction is a list of jobs on one of the machine's stores. -/

namespace InfusedModbus.Client

open Foundation Foundation.Outcome Protocol Datafs Server

/-- The function codes a transaction uses. -/
structure WritesEnabled (serverOptions : ServerOptions) : Prop where
  singleRegister : serverOptions.isEnabled functionCodeWriteSingleRegister = true
  multipleRegisters : serverOptions.isEnabled functionCodeWriteMultipleRegisters = true
  singleCoil : serverOptions.isEnabled functionCodeWriteSingleCoil = true
  multipleCoils : serverOptions.isEnabled functionCodeWriteMultipleCoils = true
  maskRegister : serverOptions.isEnabled functionCodeMaskWriteRegister = true
  fileRecord : serverOptions.isEnabled functionCodeWriteFileRecord = true

/-! ### Reading responses -/

theorem interpretWriteResponse_exception {functionCode : UInt8} (hcode : functionCode < 0x80)
    (exceptionCode : UInt8) :
    ∃ reason, interpretWriteResponse (exception functionCode exceptionCode) = .ok (.failed reason) := by
  rw [interpretWriteResponse, exception, ExceptionResponse.decode_encode hcode]
  exact ⟨_, rfl⟩

/-- Whatever else it says, a response that begins with the function code is a success. -/
theorem interpretWriteResponse_of_head {functionCode : UInt8}
    (hcode : functionCode &&& exceptionResponseFunctionCodeBit = 0) {response : Bytes}
    (hhead : response.head? = some functionCode) (hlen : 1 < response.length) :
    interpretWriteResponse response = .ok .ok := by
  obtain ⟨rest, rfl⟩ := List.head?_eq_some_iff.mp hhead
  obtain ⟨byte, rest, rfl⟩ := List.exists_cons_of_length_pos (Nat.lt_of_succ_lt_succ hlen)
  rw [interpretWriteResponse, ExceptionResponse.decode_cons, if_pos hcode]

/-! ### Requests -/

section Requests

variable {serverOptions : ServerOptions} {tomlSource : String} {fc43BulkTransfer : Fc43BulkTransfer}
  {description : MachineDescription} {machine machine' : ServerMachineState} {machines : Machines}
  {confirmation : Confirmation} {functionCode unitId : UInt8} {pdu : Bytes}

/-- The confirmation sends a PDU that only its machine can serve. -/
structure Sends (serverOptions : ServerOptions) (confirmation : Confirmation) (functionCode : UInt8) (pdu : Bytes) :
    Prop where
  pdu_eq : confirmation.pdu = .ok pdu
  head : pdu.head? = some functionCode
  enabled : serverOptions.isEnabled functionCode = true
  identification : functionCode ≠ functionCodeEncapsulatedInterfaceTransport
  file : functionCode ≠ functionCodeReadFileRecord

/-- The machine answers, and the answer is interpreted. -/
theorem Sends.run_eq (h : Sends serverOptions confirmation functionCode pdu) {response : Bytes} {status : WriteStatus}
    (hhandle : handleMachineRequest functionCode pdu machine = .ok (response, machine'))
    (hstatus : confirmation.interpret response = .ok status) :
    confirmation.run (serverExchange serverOptions tomlSource fc43BulkTransfer) unitId (machines.set unitId machine) =
      (.ok status, machines.set unitId machine') := by
  rw [Confirmation.run, h.pdu_eq]
  dsimp only
  rw [serverExchange_of_machine h.head h.enabled (Store.get_set_self _ _ _) h.identification h.file hhandle,
    Store.set_set, Confirmation.conclude, hstatus]

/-- An answer that begins with the function code confirms the write. -/
theorem Sends.run_confirmed (h : Sends serverOptions confirmation functionCode pdu)
    (hinterpret : confirmation.interpret = interpretWriteResponse)
    (hcode : functionCode &&& exceptionResponseFunctionCodeBit = 0) {response : Bytes}
    (hhandle : handleMachineRequest functionCode pdu machine = .ok (response, machine'))
    (hhead : response.head? = some functionCode) (hlen : 1 < response.length) :
    confirmation.run (serverExchange serverOptions tomlSource fc43BulkTransfer) unitId (machines.set unitId machine) =
      (.ok .ok, machines.set unitId machine') := by
  apply h.run_eq hhandle
  rw [hinterpret, interpretWriteResponse_of_head hcode hhead hlen]

/-- An exception is a failure, and the machine stays as it is. -/
theorem Sends.run_refused (h : Sends serverOptions confirmation functionCode pdu)
    (hinterpret : confirmation.interpret = interpretWriteResponse) (hcode : functionCode < 0x80)
    {exceptionCode : UInt8}
    (hhandle : handleMachineRequest functionCode pdu machine = .ok (exception functionCode exceptionCode, machine)) :
    ∃ reason, confirmation.run (serverExchange serverOptions tomlSource fc43BulkTransfer) unitId
      (machines.set unitId machine) = (.ok (.failed reason), machines.set unitId machine) := by
  obtain ⟨reason, hreason⟩ := interpretWriteResponse_exception hcode exceptionCode
  refine ⟨reason, h.run_eq hhandle ?_⟩
  rw [hinterpret, hreason]

/-- A write of some entries to a store of the machine: all of them, confirmed, or none. -/
def WritesOrRefuses {κ ν : Type} (serverOptions : ServerOptions) (tomlSource : String)
    (fc43BulkTransfer : Fc43BulkTransfer) (unitId : UInt8) (machines : Machines) (put : Store κ ν → ServerMachineState)
    (confirmation : Confirmation) (s s' : Store κ ν) : Prop :=
  confirmation.run (serverExchange serverOptions tomlSource fc43BulkTransfer) unitId (machines.set unitId (put s)) =
      (.ok .ok, machines.set unitId (put s')) ∨
    ∃ reason, confirmation.run (serverExchange serverOptions tomlSource fc43BulkTransfer) unitId
      (machines.set unitId (put s)) = (.ok (.failed reason), machines.set unitId (put s))

/-! ### Registers -/

/-- A batch of one word holds one register, of one word. -/
theorem items_of_quantity_one {batch : Batch (RegisterDescription × RegisterValue)}
    (h : slots (fun entry : RegisterDescription × RegisterValue => wordsOf RegisterDescription.dataType entry.1)
      batch.items = 1) :
    ∃ register value, batch.items = [(register, value)] ∧ register.dataType.registerCount = 1 := by
  have hwidth : ∀ register : RegisterDescription,
      (wordsOf RegisterDescription.dataType register).toNat = register.dataType.registerCount := toNat_wordsOf
  unfold slots at h
  cases hitems : batch.items with
  | nil =>
    rw [hitems] at h
    cases h
  | cons entry rest =>
    rw [hitems, List.map_cons, List.sum_cons, hwidth] at h
    have hpos := entry.1.dataType.registerCount_pos
    cases rest with
    | nil =>
      refine ⟨entry.1, entry.2, rfl, ?_⟩
      rw [List.map_nil, List.sum_nil] at h
      exact h
    | cons other rest =>
      rw [List.map_cons, List.sum_cons, hwidth] at h
      have hother := other.1.dataType.registerCount_pos
      omega

theorem encodeWriteRequest_eq {register : RegisterDescription} {value : RegisterValue} {memLayout : MemLayout}
    (hcount : register.dataType.registerCount = 1) (htype : register.dataType = value.dataType) :
    ∃ word, registerValueToWords value memLayout = [word] ∧
      encodeWriteRequest register value memLayout = .ok (WriteSingleRegisterRequest.encode ⟨register.address, word⟩) := by
  have hlen : (registerValueToWords value memLayout).length = 1 := by
    rw [length_registerValueToWords, ← htype, hcount]
  obtain ⟨word, hword⟩ := List.length_eq_one_iff.mp hlen
  refine ⟨word, hword, ?_⟩
  rw [encodeWriteRequest, if_neg (not_not_intro hcount), if_neg (not_not_intro htype.symm), hword]
  rfl

/-- A single write goes through when the register is writable. -/
theorem confirmWrite_of_server (hflat : FlatDescription description)
    (hregisters : machine.registers = description.registers) (hlayout : machine.memLayout = description.memLayout)
    (henabled : WritesEnabled serverOptions) {register : RegisterDescription} {value : RegisterValue}
    (hmem : register ∈ description.registers) (hcount : register.dataType.registerCount = 1)
    (htype : register.dataType = value.dataType) (s : RegisterStore) :
    WritesOrRefuses serverOptions tomlSource fc43BulkTransfer unitId machines
      (fun store => { machine with store := store }) (confirmWrite register value description.memLayout) s
      (s.set register.name value) := by
  obtain ⟨word, hword, hencode⟩ := @encodeWriteRequest_eq _ _ description.memLayout hcount htype
  have hsends : Sends serverOptions (confirmWrite register value description.memLayout)
      functionCodeWriteSingleRegister _ := ⟨hencode, rfl, henabled.singleRegister, by decide, by decide⟩
  have hdec : WriteSingleRegisterRequest.decode (WriteSingleRegisterRequest.encode ⟨register.address, word⟩) =
      .ok ⟨register.address, word⟩ := by
    simp [WriteSingleRegisterRequest.decode, WriteSingleRegisterRequest.encode]
  have hfind : findSingleWordReadWriteRegister machine.registers register.address =
      if register.access = .readWrite then some register else none := by
    have hall := hflat.registers.find?_and_eq (fun r _ => width_pos r) hmem
      fun other => other.dataType.registerCount == 1 && other.access == .readWrite
    simp only [← Bool.and_assoc, hcount, beq_self_eq_true, Bool.true_and, beq_iff_eq] at hall
    rw [findSingleWordReadWriteRegister, hregisters]
    exact hall
  by_cases haccess : register.access = .readWrite
  · left
    rw [if_pos haccess] at hfind
    obtain ⟨stored, hstored, hhandle⟩ := @handleWriteSingle_of_some _ _ s machine.memLayout _ hdec _ hfind
    have hvalue := registerValueFromWords_toWords value machine.memLayout
    rw [hlayout, hword, ← htype] at hvalue
    rw [hlayout, hvalue] at hstored
    obtain rfl := Option.some.inj hstored
    apply hsends.run_confirmed rfl (by decide)
    · rw [handleMachineRequest_writeSingleRegister, hhandle, map_ok]
    · rfl
    · simp [WriteSingleRegisterResponse.encode]
  · right
    rw [if_neg haccess] at hfind
    apply hsends.run_refused rfl (by decide)
    rw [handleMachineRequest_writeSingleRegister, handleWriteSingle_of_none hdec hfind, map_ok]

/-- The words of a list of values decode to these values. -/
theorem decodeWrites_of_values {memLayout : MemLayout} {items : List (RegisterDescription × RegisterValue)}
    (htype : ∀ entry ∈ items, entry.1.dataType = entry.2.dataType) :
    decodeWrites memLayout (items.map Prod.fst) (items.flatMap fun entry => registerValueToWords entry.2 memLayout) =
      items := by
  induction items with
  | nil => rfl
  | cons entry items ih =>
    have hentry := htype entry List.mem_cons_self
    have hlen : (registerValueToWords entry.2 memLayout).length = entry.1.dataType.registerCount := by
      rw [length_registerValueToWords, hentry]
    have hvalue := registerValueFromWords_toWords entry.2 memLayout
    rw [← hentry] at hvalue
    rw [List.map_cons, List.flatMap_cons, decodeWrites, List.take_left' hlen, List.drop_left' hlen, hvalue,
      ih fun other hother => htype other (List.mem_cons_of_mem _ hother)]
    rfl

/-- The words of a list of values take the slots of their registers. -/
theorem length_flatMap_words {memLayout : MemLayout} {items : List (RegisterDescription × RegisterValue)}
    (htype : ∀ entry ∈ items, entry.1.dataType = entry.2.dataType) :
    (items.flatMap fun entry => registerValueToWords entry.2 memLayout).length =
      slots (wordsOf RegisterDescription.dataType) (items.map Prod.fst) := by
  rw [List.length_flatMap, slots, List.map_map]
  congr 1
  apply List.map_congr_left
  intro entry hentry
  rw [length_registerValueToWords, Function.comp, toNat_wordsOf, ← htype entry hentry]
  rfl

/-- A multiple write goes through when all its registers are writable. -/
theorem confirmWriteMultiple_of_server (hflat : FlatDescription description)
    (hregisters : machine.registers = description.registers) (hlayout : machine.memLayout = description.memLayout)
    (henabled : WritesEnabled serverOptions) {address : UInt16} {items : List (RegisterDescription × RegisterValue)}
    (hmem : ∀ entry ∈ items, entry.1 ∈ description.registers)
    (htype : ∀ entry ∈ items, entry.1.dataType = entry.2.dataType)
    (hcontiguous : Contiguous RegisterDescription.address (wordsOf RegisterDescription.dataType) address
      (items.map Prod.fst))
    (hslots : slots (wordsOf RegisterDescription.dataType) (items.map Prod.fst) ≤ 123) (s : RegisterStore) :
    WritesOrRefuses serverOptions tomlSource fc43BulkTransfer unitId machines
      (fun store => { machine with store := store })
      (confirmWriteMultiple address (items.flatMap fun entry => registerValueToWords entry.2 description.memLayout)) s
      (s.setAll (storeWrites items)) := by
  generalize hvalues : (items.flatMap fun entry => registerValueToWords entry.2 description.memLayout) = values
  have hlen : values.length = slots (wordsOf RegisterDescription.dataType) (items.map Prod.fst) := by
    rw [← hvalues, length_flatMap_words htype]
  have hencode : ∃ pdu, WriteMultipleRegistersRequest.encode ⟨address, values⟩ = .ok pdu ∧
      pdu.head? = some functionCodeWriteMultipleRegisters := by
    rw [WriteMultipleRegistersRequest.encode, if_neg (by simp only [maxWriteMultipleRegistersCount]; omega)]
    exact ⟨_, rfl, rfl⟩
  obtain ⟨pdu, hencode, hhead⟩ := hencode
  have hsends : Sends serverOptions (confirmWriteMultiple address values) functionCodeWriteMultipleRegisters pdu := by
    refine ⟨?_, hhead, henabled.multipleRegisters, by decide, by decide⟩
    rw [confirmWriteMultiple, hencode]
    rfl
  have hdec := WriteMultipleRegistersRequest.decode_encode hencode
  have hmem' : ∀ register ∈ items.map Prod.fst, register ∈ description.registers := by
    intro register hregister
    obtain ⟨entry, hentry, rfl⟩ := List.mem_map.mp hregister
    exact hmem entry hentry
  have hreads : ReadTiles machine.registers address values.length (items.map Prod.fst) := by
    rw [hlen]
    apply tiles_of_contiguous _ (fun register _ => toNat_wordsOf register) hcontiguous
    intro register hregister
    rw [hregisters]
    exact hflat.findRegister_eq (hmem' register hregister)
  by_cases hwritable : ∀ entry ∈ items, entry.1.access = .readWrite
  · left
    have htiles : WriteTiles machine.registers address values.length (items.map Prod.fst) := by
      rw [hlen]
      apply tiles_of_contiguous _ (fun register _ => toNat_wordsOf register) hcontiguous
      intro register hregister
      obtain ⟨entry, hentry, rfl⟩ := List.mem_map.mp hregister
      have hfind := hflat.registers.find?_and_eq (fun r _ => width_pos r) (hmem entry hentry)
        fun other => other.access == .readWrite
      rw [if_pos (beq_iff_eq.mpr (hwritable entry hentry))] at hfind
      rw [findReadWriteRegister, hregisters]
      exact hfind
    have hhandle := @handleWriteMultipleRegisters_of_tiles _ _ s machine.memLayout _ hdec _ htiles
    rw [hlayout, ← hvalues, decodeWrites_of_values htype] at hhandle
    apply hsends.run_confirmed rfl (by decide)
    · rw [handleMachineRequest_writeMultipleRegisters, hlayout, hhandle, map_ok]
    · rfl
    · simp [WriteMultipleRegistersResponse.encode]
  · right
    have hnone : ¬∃ rs, WriteTiles machine.registers address values.length rs := by
      rintro ⟨rs, htiles⟩
      have hfound : ∀ a r, findReadWriteRegister machine.registers a = some r →
          findRegister machine.registers a = some r := by
        intro a r hfind
        have haddress := List.find?_some hfind
        simp only [Bool.and_eq_true, beq_iff_eq] at haddress
        have hrmem := List.mem_of_find?_eq_some hfind
        rw [hregisters] at hrmem ⊢
        rw [← haddress.1, hflat.findRegister_eq hrmem]
      have hsame := (htiles.imp hfound).unique (fun _ r _ => width_pos r) hreads
      apply hwritable
      intro entry hentry
      exact (htiles.mem (hsame ▸ List.mem_map_of_mem hentry)).2.1
    apply hsends.run_refused rfl (by decide)
    rw [handleMachineRequest_writeMultipleRegisters, handleWriteMultipleRegisters_of_not_tiles hdec hnone, map_ok]

/-- A masked write puts some value into its register, or is refused. -/
theorem confirmMaskWrite_of_server (hflat : FlatDescription description)
    (hregisters : machine.registers = description.registers) (henabled : WritesEnabled serverOptions)
    {register : RegisterDescription} (hmem : register ∈ description.registers) (andMask orMask : UInt16)
    (s : RegisterStore) :
    ∃ value, WritesOrRefuses serverOptions tomlSource fc43BulkTransfer unitId machines
      (fun store => { machine with store := store }) (confirmMaskWrite register andMask orMask) s
      (s.set register.name value) := by
  have hsends : Sends serverOptions (confirmMaskWrite register andMask orMask) functionCodeMaskWriteRegister _ :=
    ⟨rfl, rfl, henabled.maskRegister, by decide, by decide⟩
  have hdec : MaskWriteRegisterRequest.decode
      (MaskWriteRegisterRequest.encode ⟨register.address, andMask, orMask⟩) =
        .ok ⟨register.address, andMask, orMask⟩ := by
    rw [MaskWriteRegisterRequest.decode, MaskWriteRegisterRequest.encode, decodeMaskWriteRegister_encode, map_ok]
  cases hfind : findSingleWordReadWriteRegister machine.registers register.address with
  | none =>
    refine ⟨defaultRegisterValue register.dataType, .inr ?_⟩
    apply hsends.run_refused rfl (by decide)
    rw [handleMachineRequest_maskWriteRegister, handleMaskWriteRegister_of_none hdec hfind, map_ok]
  | some found =>
    have hsame : found = register := by
      obtain ⟨hfound, -, haddress⟩ := findSingleWordReadWriteRegister_eq_some hfind
      have hself := hflat.findRegister_eq (hregisters ▸ hfound)
      rw [haddress, hflat.findRegister_eq hmem] at hself
      exact (Option.some.inj hself).symm
    obtain ⟨word, value, -, -, hhandle⟩ := @handleMaskWriteRegister_of_some _ _ s machine.memLayout _ hdec _ hfind
    refine ⟨value, .inl ?_⟩
    apply hsends.run_confirmed rfl (by decide)
    · rw [handleMachineRequest_maskWriteRegister, hhandle, map_ok, hsame]
    · rfl
    · simp [MaskWriteRegisterResponse.encode, encodeMaskWriteRegister]

/-! ### Coils -/

theorem confirmCoilWrite_of_server (hflat : FlatDescription description) (hcoils : machine.coils = description.coils)
    (henabled : WritesEnabled serverOptions) {coil : CoilDescription} (hmem : coil ∈ description.coils)
    (value : Bool) (s : CoilStore) :
    WritesOrRefuses serverOptions tomlSource fc43BulkTransfer unitId machines
      (fun coilStore => { machine with coilStore := coilStore }) (confirmCoilWrite coil ⟨value⟩) s
      (s.set coil.name ⟨value⟩) := by
  left
  have hsends : Sends serverOptions (confirmCoilWrite coil ⟨value⟩) functionCodeWriteSingleCoil
      (WriteSingleCoilRequest.encode ⟨coil.address, value⟩) := ⟨rfl, rfl, henabled.singleCoil, by decide, by decide⟩
  have hdec : WriteSingleCoilRequest.decode (WriteSingleCoilRequest.encode ⟨coil.address, value⟩) =
      .ok ⟨coil.address, value⟩ := by
    rw [WriteSingleCoilRequest.decode, WriteSingleCoilRequest.encode, decodeWriteSingleCoil_encode, map_ok]
  have hfind : findCoil machine.coils coil.address = some coil := by
    rw [hcoils]
    exact hflat.findCoil_eq hmem
  have hhandle := @handleWriteSingleCoil_of_some _ _ s _ hdec _ hfind
  apply hsends.run_confirmed rfl (by decide)
  · rw [handleMachineRequest_writeSingleCoil]
    dsimp only
    rw [hhandle, map_ok]
  · rfl
  · simp [WriteSingleCoilResponse.encode, encodeWriteSingleCoil]

/-- The values of neighbouring coils are resolved to these coils. -/
theorem resolvedFrom_of_contiguous {coils : List CoilDescription} {address : UInt16} {offset : ℕ}
    {items : List (CoilDescription × Bool)} (hfind : ∀ entry ∈ items, findCoil coils entry.1.address = some entry.1)
    (h : Contiguous CoilDescription.address (fun _ => 1) (advance address offset) (items.map Prod.fst)) :
    ResolvedFrom coils address (items.map Prod.snd) offset items := by
  induction items generalizing offset with
  | nil => rfl
  | cons entry items ih =>
    obtain ⟨haddress, hrest⟩ := h
    refine ⟨entry.1, items, ?_, rfl, ?_⟩
    · rw [← haddress]
      exact hfind entry List.mem_cons_self
    · apply ih
      · exact fun other hother => hfind other (List.mem_cons_of_mem _ hother)
      · rw [advance_add]
        exact hrest

theorem confirmCoilWriteMultiple_of_server (hflat : FlatDescription description)
    (hcoils : machine.coils = description.coils) (henabled : WritesEnabled serverOptions) {address : UInt16}
    {items : List (CoilDescription × Bool)} (hmem : ∀ entry ∈ items, entry.1 ∈ description.coils)
    (hcontiguous : Contiguous CoilDescription.address (fun _ => 1) address (items.map Prod.fst))
    (hlength : items.length ≤ 1968) (s : CoilStore) :
    WritesOrRefuses serverOptions tomlSource fc43BulkTransfer unitId machines
      (fun coilStore => { machine with coilStore := coilStore })
      (confirmCoilWriteMultiple address (items.map Prod.snd)) s (s.setAll (storeCoils items)) := by
  left
  have hsends : Sends serverOptions (confirmCoilWriteMultiple address (items.map Prod.snd))
      functionCodeWriteMultipleCoils (WriteMultipleCoilsRequest.encode ⟨address, items.map Prod.snd⟩) :=
    ⟨rfl, rfl, henabled.multipleCoils, by decide, by decide⟩
  have hdec : WriteMultipleCoilsRequest.decode (WriteMultipleCoilsRequest.encode ⟨address, items.map Prod.snd⟩) =
      .ok ⟨address, items.map Prod.snd⟩ := by
    apply WriteMultipleCoilsRequest.decode_encode
    rw [List.length_map, divCeil]
    omega
  have hresolved : resolveCoils machine.coils address (items.map Prod.snd) 0 = some items := by
    rw [resolveCoils_eq_some]
    apply resolvedFrom_of_contiguous
    · intro entry hentry
      rw [hcoils]
      exact hflat.findCoil_eq (hmem entry hentry)
    · rwa [advance_zero]
  apply hsends.run_confirmed rfl (by decide)
  · rw [handleMachineRequest_writeMultipleCoils, handleWriteMultipleCoils, hdec, letOk_ok]
    dsimp only
    rw [hresolved]
    rfl
  · rfl
  · simp [WriteMultipleCoilsResponse.encode]

/-! ### File records -/

/-- The echo of what was sent is a success. -/
theorem interpretWriteFileRecordResponse_of_echo {sent : List WriteFileRecordSubRequest} {response : Bytes}
    (hhead : response.head? = some functionCodeWriteFileRecord) (hlen : 1 < response.length)
    (hdec : WriteFileRecordResponse.decode response = .ok ⟨sent⟩) :
    interpretWriteFileRecordResponse sent response = .ok .ok := by
  obtain ⟨rest, rfl⟩ := List.head?_eq_some_iff.mp hhead
  obtain ⟨byte, rest, rfl⟩ := List.exists_cons_of_length_pos (Nat.lt_of_succ_lt_succ hlen)
  rw [interpretWriteFileRecordResponse, ExceptionResponse.decode_cons, if_pos (by decide), hdec]
  exact if_pos rfl

/-- A record of the declared length is always written. -/
theorem confirmFileRecordWrite_of_server (hflat : FlatDescription description)
    (hrecords : machine.fileRecords = description.fileRecords) (henabled : WritesEnabled serverOptions)
    {fileRecord : FileRecordDescription} (hmem : fileRecord ∈ description.fileRecords) {value : Bytes}
    (hlength : value.length = fileRecord.recordLength.toNat * 2) (s : FileRecordStore) :
    WritesOrRefuses serverOptions tomlSource fc43BulkTransfer unitId machines
      (fun fileRecordStore => { machine with fileRecordStore := fileRecordStore })
      (confirmFileRecordWrite fileRecord.fileNumber fileRecord.recordNumber value) s
      (s.set (recordKey fileRecord) value) := by
  left
  have hbound := fileRecord.recordLength.toNat_lt
  obtain ⟨pdu, hencode⟩ : ∃ pdu, encodeWriteFileRecord functionCodeWriteFileRecord
      [⟨fileRecord.fileNumber, fileRecord.recordNumber, value⟩] = .ok pdu := by
    refine ⟨_, encodeWriteFileRecord_eq_ok.mpr ⟨?_, rfl⟩⟩
    intro sub hsub
    obtain rfl := List.mem_singleton.mp hsub
    dsimp only
    omega
  have hpdu := (encodeWriteFileRecord_eq_ok.mp hencode).2
  have hdec := decodeWriteFileRecord_encode_single hencode (by dsimp only; omega)
  have hsends : Sends serverOptions (confirmFileRecordWrite fileRecord.fileNumber fileRecord.recordNumber value)
      functionCodeWriteFileRecord pdu := by
    refine ⟨?_, by rw [hpdu]; rfl, henabled.fileRecord, by decide, by decide⟩
    rw [confirmFileRecordWrite, WriteFileRecordRequest.encode, hencode]
    rfl
  have hcheck : checkFileWrites machine.fileRecords [⟨fileRecord.fileNumber, fileRecord.recordNumber, value⟩] =
      none := by
    rw [checkFileWrites_eq_none]
    intro sub hsub
    obtain rfl := List.mem_singleton.mp hsub
    exact ⟨fileRecord, hrecords ▸ hflat.findFileRecord_eq hmem, hlength⟩
  apply hsends.run_eq
  · rw [handleMachineRequest_writeFileRecord, handleWriteFileRecord, WriteFileRecordRequest.decode, hdec, map_ok,
      letOk_ok]
    dsimp only
    rw [hcheck]
    dsimp only
    rw [WriteFileRecordResponse.encode, hencode]
    rfl
  · apply interpretWriteFileRecordResponse_of_echo
    · rw [hpdu]
      rfl
    · rw [hpdu]
      simp
    · rw [WriteFileRecordResponse.decode, hdec]
      rfl

/-! ### The rounds -/

section Jobs

variable {β κ ν : Type} [DecidableEq κ] {put : Store κ ν → ServerMachineState} {keys : β → List κ}
  {entries : β → List (κ × ν)} {write : β} {s s' : Store κ ν}

omit [DecidableEq κ] in
/-- A write that is confirmed or refused is a job. -/
theorem WritesOrRefuses.jobStep
    (h : WritesOrRefuses serverOptions tomlSource fc43BulkTransfer unitId machines put confirmation s s')
    (hdone : ∀ status, status = WriteStatus.ok → JobStep keys entries (· = WriteStatus.ok) write status s s') :
    ∃ status s', confirmation.run (serverExchange serverOptions tomlSource fc43BulkTransfer) unitId
        (machines.set unitId (put s)) = (.ok status, machines.set unitId (put s')) ∧
      JobStep keys entries (· = WriteStatus.ok) write status s s' := by
  rcases h with hrun | ⟨reason, hrun⟩
  · exact ⟨.ok, s', hrun, hdone _ rfl⟩
  · refine ⟨.failed reason, s, hrun, ?_⟩
    apply jobStep_self
    simp

end Jobs

/-- The names of a batch and what it stages for them. -/
abbrev batchNames {ρ ν : Type} (name : ρ → String) (batch : Batch (ρ × ν)) : List String :=
  batch.items.map fun entry => name entry.1

/-- Every batch of registers is a job on the register store. -/
theorem job_of_registerBatch (hflat : FlatDescription description)
    (hregisters : machine.registers = description.registers) (hlayout : machine.memLayout = description.memLayout)
    (henabled : WritesEnabled serverOptions) {entries : List (RegisterDescription × RegisterValue)}
    (hmem : ∀ entry ∈ entries, entry.1 ∈ description.registers ∧ entry.1.dataType = entry.2.dataType)
    (hnames : (entries.map fun entry => entry.1.name).Nodup) {batch : Batch (RegisterDescription × RegisterValue)}
    (hbatch : batch ∈ buildRegisterWriteBatches entries) :
    ∃ confirming, confirmRegisterBatch description.memLayout batch = .ok confirming ∧ ∀ s, ∃ status s',
      confirming.run (serverExchange serverOptions tomlSource fc43BulkTransfer) unitId
          (machines.set unitId { machine with store := s }) =
        (.ok status, machines.set unitId { machine with store := s' }) ∧
      JobStep (batchNames RegisterDescription.name) (fun batch => storeWrites batch.items) (· = WriteStatus.ok) batch
        status s s' := by
  have hsound := sound_of_mem_buildBatches
    (fun entry _ => ⟨(fitsBatch_wordsOf (by decide) (by decide) entry.1).le,
      (fitsBatch_wordsOf (by decide) (by decide) entry.1).noOverflow⟩) batch hbatch
  have hitems : ∀ entry ∈ batch.items, entry.1 ∈ description.registers ∧ entry.1.dataType = entry.2.dataType := by
    intro entry hentry
    exact hmem entry (exists_batch_iff.mp ⟨batch, hbatch, hentry⟩)
  have hnodup : (batchNames RegisterDescription.name batch).Nodup := nodup_of_mem_buildBatches hnames hbatch
  have hkeys : (storeWrites batch.items).map Prod.fst = batchNames RegisterDescription.name batch := by
    rw [storeWrites, List.map_map]
    rfl
  have hdone : ∀ s status, status = WriteStatus.ok →
      JobStep (batchNames RegisterDescription.name) (fun batch => storeWrites batch.items) (· = WriteStatus.ok) batch
        status s (s.setAll (storeWrites batch.items)) := by
    intro s status hstatus
    apply jobStep_setAll
    · exact hstatus
    · exact hkeys
    · exact hnodup
  by_cases hone : batch.quantity = 1
  · have hslots := hsound.quantity_eq
    rw [hone] at hslots
    obtain ⟨register, value, hsingle, hcount⟩ := items_of_quantity_one hslots.symm
    have hentry := hitems (register, value) (by rw [hsingle]; exact List.mem_singleton_self _)
    refine ⟨confirmWrite register value description.memLayout, ?_, fun s => ?_⟩
    · rw [confirmRegisterBatch, if_pos hone, hsingle]
      rfl
    · apply (confirmWrite_of_server hflat hregisters hlayout henabled hentry.1 hcount hentry.2 s).jobStep
      have hsame : s.set register.name value = s.setAll (storeWrites batch.items) := by
        rw [hsingle]
        rfl
      rw [hsame]
      exact hdone s
  · refine ⟨_, if_neg hone, fun s => ?_⟩
    apply (confirmWriteMultiple_of_server hflat hregisters hlayout henabled (fun entry hentry => (hitems entry hentry).1)
      (fun entry hentry => (hitems entry hentry).2) hsound.contiguous.map _ s).jobStep
    · exact hdone s
    · rw [slots_map, ← hsound.quantity_eq]
      exact UInt16.le_iff_toNat_le.mp hsound.quantity_le

/-- Every batch of coils is a job on the coil store. -/
theorem job_of_coilBatch (hflat : FlatDescription description) (hcoils : machine.coils = description.coils)
    (henabled : WritesEnabled serverOptions) {entries : List (CoilDescription × Bool)}
    (hmem : ∀ entry ∈ entries, entry.1 ∈ description.coils) (hnames : (entries.map fun entry => entry.1.name).Nodup)
    {batch : Batch (CoilDescription × Bool)} (hbatch : batch ∈ buildCoilWriteBatches entries) :
    ∃ confirming, confirmCoilBatch batch = .ok confirming ∧ ∀ s, ∃ status s',
      confirming.run (serverExchange serverOptions tomlSource fc43BulkTransfer) unitId
          (machines.set unitId { machine with coilStore := s }) =
        (.ok status, machines.set unitId { machine with coilStore := s' }) ∧
      JobStep (batchNames CoilDescription.name) (fun batch => storeCoils batch.items) (· = WriteStatus.ok) batch
        status s s' := by
  have hsound := sound_of_mem_buildBatches (fun entry _ => fitsBatch_bit (by decide) (by decide) entry) batch hbatch
  have hitems : ∀ entry ∈ batch.items, entry.1 ∈ description.coils := by
    intro entry hentry
    exact hmem entry (exists_batch_iff.mp ⟨batch, hbatch, hentry⟩)
  have hnodup : (batchNames CoilDescription.name batch).Nodup := nodup_of_mem_buildBatches hnames hbatch
  have hkeys : (storeCoils batch.items).map Prod.fst = batchNames CoilDescription.name batch := by
    rw [storeCoils, List.map_map]
    rfl
  have hdone : ∀ s status, status = WriteStatus.ok →
      JobStep (batchNames CoilDescription.name) (fun batch => storeCoils batch.items) (· = WriteStatus.ok) batch
        status s (s.setAll (storeCoils batch.items)) := by
    intro s status hstatus
    apply jobStep_setAll
    · exact hstatus
    · exact hkeys
    · exact hnodup
  have hlength : batch.items.length ≤ 1968 := by
    have hquantity := UInt16.le_iff_toNat_le.mp hsound.quantity_le
    rw [hsound.quantity_eq] at hquantity
    simpa [slots, maxCoilWriteBatchSize] using hquantity
  unfold confirmCoilBatch
  split
  · next coil value hsingle =>
    refine ⟨_, rfl, fun s => ?_⟩
    have hcoil := hitems (coil, value) (by rw [hsingle]; exact List.mem_singleton_self _)
    apply (confirmCoilWrite_of_server hflat hcoils henabled hcoil value s).jobStep
    have hsame : s.set coil.name ⟨value⟩ = s.setAll (storeCoils batch.items) := by
      rw [hsingle]
      rfl
    rw [hsame]
    exact hdone s
  · refine ⟨_, rfl, fun s => ?_⟩
    apply (confirmCoilWriteMultiple_of_server hflat hcoils henabled hitems hsound.contiguous.map hlength s).jobStep
    exact hdone s

/-- Every masked write is a job on the register store; what it writes is not staged. -/
theorem job_of_maskedRegister (hflat : FlatDescription description)
    (hregisters : machine.registers = description.registers) (henabled : WritesEnabled serverOptions)
    {entry : RegisterDescription × UInt16 × UInt16} (hmem : entry.1 ∈ description.registers) (s : RegisterStore) :
    ∃ status s', (confirmMaskWrite entry.1 entry.2.1 entry.2.2).run
          (serverExchange serverOptions tomlSource fc43BulkTransfer) unitId
          (machines.set unitId { machine with store := s }) =
        (.ok status, machines.set unitId { machine with store := s' }) ∧
      JobStep (fun entry => [entry.1.name]) (fun _ => []) (· = WriteStatus.ok) entry status s s' := by
  obtain ⟨value, hwrites⟩ := confirmMaskWrite_of_server hflat hregisters henabled hmem entry.2.1 entry.2.2 s
  apply hwrites.jobStep
  intro status hstatus
  apply jobStep_set
  · exact hstatus
  · rfl
  · rfl

/-- Every write of a file record is a job on the store of records. -/
theorem job_of_fileRecord (hflat : FlatDescription description)
    (hrecords : machine.fileRecords = description.fileRecords) (henabled : WritesEnabled serverOptions)
    {entry : String × UInt16 × UInt16 × Bytes} {fileRecord : FileRecordDescription}
    (hmem : fileRecord ∈ description.fileRecords) (hkey : recordKey fileRecord = (entry.2.1, entry.2.2.1))
    (hlength : entry.2.2.2.length = fileRecord.recordLength.toNat * 2) (s : FileRecordStore) :
    ∃ status s', (confirmFileRecordWrite entry.2.1 entry.2.2.1 entry.2.2.2).run
          (serverExchange serverOptions tomlSource fc43BulkTransfer) unitId
          (machines.set unitId { machine with fileRecordStore := s }) =
        (.ok status, machines.set unitId { machine with fileRecordStore := s' }) ∧
      JobStep (fun entry : String × UInt16 × UInt16 × Bytes => [(entry.2.1, entry.2.2.1)])
        (fun entry => [((entry.2.1, entry.2.2.1), entry.2.2.2)]) (· = WriteStatus.ok) entry status s s' := by
  have hwrites := @confirmFileRecordWrite_of_server serverOptions tomlSource fc43BulkTransfer description machine
    machines unitId hflat hrecords henabled fileRecord hmem entry.2.2.2 hlength s
  obtain ⟨hfile, hrecord⟩ := Prod.ext_iff.mp hkey
  simp only [recordKey] at hfile hrecord
  rw [hkey, hfile, hrecord] at hwrites
  apply hwrites.jobStep
  intro status hstatus
  apply jobStep_setAll
  · exact hstatus
  · rfl
  · exact List.nodup_singleton _

end Requests

end InfusedModbus.Client
