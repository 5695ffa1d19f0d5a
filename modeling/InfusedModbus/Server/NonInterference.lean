import InfusedModbus.Server.Process

/-! What disabled function codes hide. Two servers that are configured alike, and hold
the same values in every store that some enabled function code reads, answer every
run of requests alike. Reading handlers only run when their store is among those;
writing handlers answer without looking at the store at all. -/

namespace InfusedModbus.Server

open Foundation Foundation.Outcome Protocol Datafs

/-- Two machines configured alike that agree on every store an enabled function code reads. -/
structure AgreeOnReadable (options : ServerOptions) (machine machine' : ServerMachineState) : Prop where
  unset : machine.unset = machine'.unset
  store : options.readHoldingRegisters = true ∨ options.readWriteMultipleRegisters = true →
    machine.store = machine'.store
  coilStore : options.readCoils = true → machine.coilStore = machine'.coilStore
  discreteInputStore : options.readDiscreteInputs = true → machine.discreteInputStore = machine'.discreteInputStore
  inputRegisterStore : options.readInputRegisters = true → machine.inputRegisterStore = machine'.inputRegisterStore
  fileRecordStore : options.readFileRecord = true → machine.fileRecordStore = machine'.fileRecordStore

/-- Machines configured alike differ in their stores only. -/
theorem AgreeOnReadable.eq_with {options : ServerOptions} {machine machine' : ServerMachineState}
    (h : AgreeOnReadable options machine machine') :
    ∃ store coilStore discreteInputStore inputRegisterStore fileRecordStore,
      machine' = { machine with
        store := store, coilStore := coilStore, discreteInputStore := discreteInputStore,
        inputRegisterStore := inputRegisterStore, fileRecordStore := fileRecordStore } := by
  refine ⟨machine'.store, machine'.coilStore, machine'.discreteInputStore, machine'.inputRegisterStore,
    machine'.fileRecordStore, ?_⟩
  have hunset := h.unset
  simp only [ServerMachineState.unset, ServerMachineState.mk.injEq, true_and] at hunset
  obtain ⟨hregisters, hcoils, hinputs, hinputRegisters, hfiles, hlayout, hinputLayout, hserverId⟩ := hunset
  simp only [hregisters, hcoils, hinputs, hinputRegisters, hfiles, hlayout, hinputLayout, hserverId]

/-! ### Writing without looking -/

/-- A handler whose answer does not depend on the store. -/
def Blind {τ : Type} (handler : τ → Handled (Bytes × τ)) : Prop :=
  ∃ response, ∀ store, ∃ store', handler store = .ok (response, store')

section Blind

variable (pdu : Bytes) (registers : List RegisterDescription) (memLayout : MemLayout)
  (coils : List CoilDescription) (fileRecords : List FileRecordDescription)

theorem blind_handleWriteSingle : Blind fun store => handleWriteSingle pdu registers store memLayout := by
  cases hdec : WriteSingleRegisterRequest.decode pdu with
  | panic => exact absurd hdec (map_ne_panic.mpr (decodeAddressAndQuantity_ne_panic _ _))
  | err e => exact ⟨_, fun store => ⟨_, handleWriteSingle_of_err hdec⟩⟩
  | ok request =>
    cases hfind : findSingleWordReadWriteRegister registers request.registerAddress with
    | none => exact ⟨_, fun store => ⟨_, handleWriteSingle_of_none hdec hfind⟩⟩
    | some register =>
      refine ⟨(WriteSingleRegisterResponse.mk request.registerAddress request.registerValue).encode,
        fun store => ?_⟩
      obtain ⟨value, -, heq⟩ := handleWriteSingle_of_some hdec hfind
      exact ⟨_, heq⟩

theorem blind_handleMaskWriteRegister :
    Blind fun store => handleMaskWriteRegister pdu registers store memLayout := by
  cases hdec : MaskWriteRegisterRequest.decode pdu with
  | panic => exact absurd hdec (map_ne_panic.mpr (decodeMaskWriteRegister_ne_panic _))
  | err e => exact ⟨_, fun store => ⟨_, handleMaskWriteRegister_of_err hdec⟩⟩
  | ok request =>
    cases hfind : findSingleWordReadWriteRegister registers request.referenceAddress with
    | none => exact ⟨_, fun store => ⟨_, handleMaskWriteRegister_of_none hdec hfind⟩⟩
    | some register =>
      refine ⟨(MaskWriteRegisterResponse.mk request.referenceAddress request.andMask request.orMask).encode,
        fun store => ?_⟩
      obtain ⟨word, value, -, -, heq⟩ := handleMaskWriteRegister_of_some hdec hfind
      exact ⟨_, heq⟩

theorem blind_handleWriteMultipleRegisters :
    Blind fun store => handleWriteMultipleRegisters pdu registers store memLayout := by
  cases hdec : WriteMultipleRegistersRequest.decode pdu with
  | panic => exact absurd hdec (WriteMultipleRegistersRequest.decode_ne_panic pdu)
  | err e => exact ⟨_, fun store => ⟨_, handleWriteMultipleRegisters_of_err hdec⟩⟩
  | ok request =>
    by_cases h : ∃ rs, WriteTiles registers request.startingAddress request.registerValues.length rs
    · obtain ⟨rs, hrs⟩ := h
      exact ⟨_, fun store => ⟨_, handleWriteMultipleRegisters_of_tiles hdec hrs⟩⟩
    · exact ⟨_, fun store => ⟨_, handleWriteMultipleRegisters_of_not_tiles hdec h⟩⟩

theorem blind_handleWriteSingleCoil : Blind fun store => handleWriteSingleCoil pdu coils store := by
  cases hdec : WriteSingleCoilRequest.decode pdu with
  | panic => exact absurd hdec (map_ne_panic.mpr (decodeWriteSingleCoil_ne_panic _))
  | err e => exact ⟨_, fun store => ⟨_, handleWriteSingleCoil_of_err hdec⟩⟩
  | ok request =>
    cases hfind : findCoil coils request.coilAddress with
    | none => exact ⟨_, fun store => ⟨_, handleWriteSingleCoil_of_none hdec hfind⟩⟩
    | some coil => exact ⟨_, fun store => ⟨_, handleWriteSingleCoil_of_some hdec hfind⟩⟩

theorem blind_handleWriteMultipleCoils : Blind fun store => handleWriteMultipleCoils pdu coils store := by
  cases hdec : WriteMultipleCoilsRequest.decode pdu with
  | panic => exact absurd hdec (WriteMultipleCoilsRequest.decode_ne_panic pdu)
  | err e => exact ⟨_, fun store => ⟨_, handleWriteMultipleCoils_of_err hdec⟩⟩
  | ok request =>
    by_cases h : Configured (findCoil coils) request.startingAddress request.coilValues.length
    · refine ⟨(WriteMultipleCoilsResponse.mk request.startingAddress
        (UInt16.ofNat request.coilValues.length)).encode, fun store => ?_⟩
      obtain ⟨resolved, -, heq⟩ := handleWriteMultipleCoils_of_configured hdec h
      exact ⟨_, heq⟩
    · exact ⟨_, fun store => ⟨_, handleWriteMultipleCoils_of_not_configured hdec h⟩⟩

theorem blind_handleWriteFileRecord : Blind fun store => handleWriteFileRecord pdu fileRecords store := by
  unfold handleWriteFileRecord
  cases hdec : WriteFileRecordRequest.decode pdu with
  | panic => exact absurd hdec (map_ne_panic.mpr (decodeWriteFileRecord_ne_panic pdu _))
  | err e => exact ⟨_, fun store => ⟨_, rfl⟩⟩
  | ok request =>
    simp only [letOk_ok]
    cases hcheck : checkFileWrites fileRecords request.subRequests with
    | some code => exact ⟨_, fun store => ⟨_, rfl⟩⟩
    | none =>
      obtain ⟨response, hencode⟩ := encode_of_checked hcheck
      refine ⟨response, fun store => ⟨store.setAll (storeRecords request.subRequests), ?_⟩⟩
      simp only [hencode, unwrap_ok, ok_bind, pure_eq]

end Blind

/-! ### Two runs -/

/-- Two machines give one answer to a request and agree afterwards. -/
def AnswerAlike (options : ServerOptions) (handled handled' : Handled (Bytes × ServerMachineState)) : Prop :=
  ∃ response machine machine', handled = .ok (response, machine) ∧ handled' = .ok (response, machine') ∧
    AgreeOnReadable options machine machine'

section Step

variable {options : ServerOptions} {machine machine' : ServerMachineState}

theorem answerAlike_read (h : AgreeOnReadable options machine machine') {handled : Handled Bytes}
    (hok : ∃ response, handled = .ok response) :
    AnswerAlike options (handled.map fun r => (r, machine)) (handled.map fun r => (r, machine')) := by
  obtain ⟨response, rfl⟩ := hok
  exact ⟨response, machine, machine', rfl, rfl, h⟩

/-- A blind write answers alike; if the store was readable, it also stores alike. -/
theorem answerAlike_write {τ : Type} {handler : τ → Handled (Bytes × τ)} (hblind : Blind handler)
    {store store' : τ} {readable : Prop} (hstore : readable → store = store') {update update' : τ → ServerMachineState}
    (hupdate : ∀ s s', (readable → s = s') → AgreeOnReadable options (update s) (update' s')) :
    AnswerAlike options ((handler store).map fun r => (r.1, update r.2))
      ((handler store').map fun r => (r.1, update' r.2)) := by
  obtain ⟨response, hall⟩ := hblind
  obtain ⟨s, hs⟩ := hall store
  obtain ⟨s', hs'⟩ := hall store'
  refine ⟨response, update s, update' s', by rw [hs, map_ok], by rw [hs', map_ok], hupdate s s' ?_⟩
  intro hreadable
  rw [hstore hreadable, hs'] at hs
  exact (Prod.mk.inj (ok.inj hs)).2.symm

theorem answerAlike_ite {functionCode code : UInt8} (henabled : options.isEnabled functionCode = true)
    {x y x' y' : Handled (Bytes × ServerMachineState)}
    (hx : options.isEnabled code = true → AnswerAlike options x x') (hy : AnswerAlike options y y') :
    AnswerAlike options (if functionCode = code then x else y) (if functionCode = code then x' else y') := by
  by_cases h : functionCode = code
  · rw [if_pos h, if_pos h]
    exact hx (h ▸ henabled)
  · rw [if_neg h, if_neg h]
    exact hy

variable (pdu : Bytes)

/-- One request to two machines that agree on everything readable. -/
theorem AgreeOnReadable.step (h : AgreeOnReadable options machine machine') {functionCode : UInt8}
    (henabled : options.isEnabled functionCode = true) :
    AnswerAlike options (handleMachineRequest functionCode pdu machine)
      (handleMachineRequest functionCode pdu machine') := by
  obtain ⟨store, coilStore, discreteInputStore, inputRegisterStore, fileRecordStore, rfl⟩ := h.eq_with
  have hwrite : ∀ s s', (options.readHoldingRegisters = true ∨ options.readWriteMultipleRegisters = true → s = s') →
      AgreeOnReadable options { machine with store := s }
        ⟨machine.registers, s', machine.coils, coilStore, machine.discreteInputs, discreteInputStore,
          machine.inputRegisters, inputRegisterStore, machine.fileRecords, fileRecordStore, machine.memLayout,
          machine.inputRegisterMemLayout, machine.serverId⟩ := fun s s' hs =>
    ⟨rfl, hs, h.coilStore, h.discreteInputStore, h.inputRegisterStore, h.fileRecordStore⟩
  have hwriteCoils : ∀ s s', (options.readCoils = true → s = s') →
      AgreeOnReadable options { machine with coilStore := s }
        ⟨machine.registers, store, machine.coils, s', machine.discreteInputs, discreteInputStore,
          machine.inputRegisters, inputRegisterStore, machine.fileRecords, fileRecordStore, machine.memLayout,
          machine.inputRegisterMemLayout, machine.serverId⟩ := fun s s' hs =>
    ⟨rfl, h.store, hs, h.discreteInputStore, h.inputRegisterStore, h.fileRecordStore⟩
  have hwriteFiles : ∀ s s', (options.readFileRecord = true → s = s') →
      AgreeOnReadable options { machine with fileRecordStore := s }
        ⟨machine.registers, store, machine.coils, coilStore, machine.discreteInputs, discreteInputStore,
          machine.inputRegisters, inputRegisterStore, machine.fileRecords, s', machine.memLayout,
          machine.inputRegisterMemLayout, machine.serverId⟩ := fun s s' hs =>
    ⟨rfl, h.store, h.coilStore, h.discreteInputStore, h.inputRegisterStore, hs⟩
  unfold handleMachineRequest
  refine answerAlike_ite henabled (fun hread => ?_) ?_
  · obtain rfl : store = machine.store := (h.store (.inl hread)).symm
    obtain ⟨response, heq, -⟩ := served_handleRead pdu machine
    exact answerAlike_read h ⟨response, heq⟩
  refine answerAlike_ite henabled (fun _ =>
    answerAlike_write (blind_handleWriteSingle pdu machine.registers machine.memLayout) h.store hwrite) ?_
  refine answerAlike_ite henabled (fun _ =>
    answerAlike_write (blind_handleWriteMultipleRegisters pdu machine.registers machine.memLayout) h.store hwrite) ?_
  refine answerAlike_ite henabled (fun _ =>
    answerAlike_write (blind_handleMaskWriteRegister pdu machine.registers machine.memLayout) h.store hwrite) ?_
  refine answerAlike_ite henabled (fun hread => ?_) ?_
  · obtain rfl : store = machine.store := (h.store (.inr hread)).symm
    obtain ⟨response, stored, heq, -⟩ := served_handleReadWriteMultipleRegisters pdu machine
    rw [heq, map_ok, map_ok]
    exact ⟨response, _, _, rfl, rfl, hwrite stored stored fun _ => rfl⟩
  refine answerAlike_ite henabled (fun _ => ?_) ?_
  · obtain ⟨response, heq, -⟩ := served_handleReportServerId pdu machine
    exact answerAlike_read h ⟨response, heq⟩
  refine answerAlike_ite henabled (fun hread => ?_) ?_
  · obtain rfl : coilStore = machine.coilStore := (h.coilStore hread).symm
    obtain ⟨response, heq, -⟩ := served_handleReadCoils pdu machine
    exact answerAlike_read h ⟨response, heq⟩
  refine answerAlike_ite henabled (fun _ =>
    answerAlike_write (blind_handleWriteSingleCoil pdu machine.coils) h.coilStore hwriteCoils) ?_
  refine answerAlike_ite henabled (fun _ =>
    answerAlike_write (blind_handleWriteMultipleCoils pdu machine.coils) h.coilStore hwriteCoils) ?_
  refine answerAlike_ite henabled (fun hread => ?_) ?_
  · obtain rfl : discreteInputStore = machine.discreteInputStore := (h.discreteInputStore hread).symm
    obtain ⟨response, heq, -⟩ := served_handleReadDiscreteInputs pdu machine
    exact answerAlike_read h ⟨response, heq⟩
  refine answerAlike_ite henabled (fun hread => ?_) ?_
  · obtain rfl : inputRegisterStore = machine.inputRegisterStore := (h.inputRegisterStore hread).symm
    obtain ⟨response, heq, -⟩ := served_handleReadInputRegisters pdu machine
    exact answerAlike_read h ⟨response, heq⟩
  refine answerAlike_ite henabled (fun hread => ?_) ?_
  · obtain rfl : fileRecordStore = machine.fileRecordStore := (h.fileRecordStore hread).symm
    obtain ⟨response, heq, -⟩ := served_handleReadFileRecord pdu machine
    exact answerAlike_read h ⟨response, heq⟩
  refine answerAlike_ite henabled (fun _ =>
    answerAlike_write (blind_handleWriteFileRecord pdu machine.fileRecords) h.fileRecordStore hwriteFiles) ?_
  exact ⟨_, machine, _, rfl, rfl, h⟩

end Step

section Server

variable {options : ServerOptions} {machines machines' : Machines}

/-- The same unit ids are configured, and the machines under them agree. -/
def MachinesAgree (options : ServerOptions) (machines machines' : Machines) : Prop :=
  ∀ unitId, Option.Rel (AgreeOnReadable options) (machines.get unitId) (machines'.get unitId)

theorem MachinesAgree.set (h : MachinesAgree options machines machines') (unitId : UInt8)
    {machine machine' : ServerMachineState} (hmachine : AgreeOnReadable options machine machine') :
    MachinesAgree options (machines.set unitId machine) (machines'.set unitId machine') := by
  intro other
  rw [Store.get_set, Store.get_set]
  split
  · exact .some hmachine
  · exact h other

variable (tomlSource : String) (fc43BulkTransfer : Fc43BulkTransfer)

/-- The server as it answers requests to any of its units. -/
def unitServer (serverOptions : ServerOptions) (machines : Machines) (request : UInt8 × Bytes) :
    Machines × Handled (Option Bytes) :=
  serverStep request.1 serverOptions tomlSource fc43BulkTransfer machines request.2

theorem unitServer_of_eq {unitId : UInt8} {pdu : Bytes} {response : Option Bytes} {after : Machines}
    (h : handleRequest unitId pdu options machines tomlSource fc43BulkTransfer = .ok (response, after)) :
    unitServer tomlSource fc43BulkTransfer options machines (unitId, pdu) = (after, .ok response) := by
  rw [unitServer, serverStep, h]

variable {tomlSource fc43BulkTransfer}

/-- A request that reaches its machine. -/
theorem MachinesAgree.unitRequest (h : MachinesAgree options machines machines') (unitId : UInt8) {functionCode : UInt8}
    (pdu : Bytes) (henabled : options.isEnabled functionCode = true) : ∃ response after after',
      handleUnitRequest unitId functionCode pdu machines = .ok (response, after) ∧
        handleUnitRequest unitId functionCode pdu machines' = .ok (response, after') ∧
        MachinesAgree options after after' := by
  unfold handleUnitRequest
  have hunit := h unitId
  cases hget : machines.get unitId with
  | none =>
    rw [hget] at hunit
    cases hget' : machines'.get unitId with
    | none => exact ⟨none, machines, machines', rfl, rfl, h⟩
    | some machine' =>
      rw [hget'] at hunit
      cases hunit
  | some machine =>
    rw [hget] at hunit
    cases hget' : machines'.get unitId with
    | none =>
      rw [hget'] at hunit
      cases hunit
    | some machine' =>
      rw [hget'] at hunit
      cases hunit with
      | some hmachine =>
        obtain ⟨response, after, after', heq, heq', hagree⟩ := hmachine.step pdu henabled
        refine ⟨some response, machines.set unitId after, machines'.set unitId after', ?_, ?_, h.set unitId hagree⟩
        · simp only [heq, map_ok]
        · simp only [heq', map_ok]

/-- One request to two servers that agree on everything readable. -/
theorem MachinesAgree.request (h : MachinesAgree options machines machines') (unitId : UInt8) (pdu : Bytes) :
    ∃ response after after',
      handleRequest unitId pdu options machines tomlSource fc43BulkTransfer = .ok (response, after) ∧
        handleRequest unitId pdu options machines' tomlSource fc43BulkTransfer = .ok (response, after') ∧
        MachinesAgree options after after' := by
  unfold handleRequest
  cases hhead : pdu.head? with
  | none => exact ⟨_, machines, machines', rfl, rfl, h⟩
  | some functionCode =>
    dsimp only
    by_cases hdisabled : options.isEnabled functionCode = false
    · rw [if_pos hdisabled, if_pos hdisabled]
      exact ⟨_, machines, machines', rfl, rfl, h⟩
    rw [if_neg hdisabled, if_neg hdisabled]
    have hunit := h.unitRequest unitId pdu (Bool.not_eq_false _ ▸ hdisabled)
    by_cases hidentification : functionCode = functionCodeEncapsulatedInterfaceTransport
    · rw [if_pos hidentification, if_pos hidentification]
      obtain ⟨response, heq, -⟩ := @handleEncapsulatedInterfaceTransport_answered unitId pdu options machines
        tomlSource options.detectMachineLayout fc43BulkTransfer
      exact ⟨some response, machines, machines', by rw [heq, map_ok], by rw [heq, map_ok], h⟩
    rw [if_neg hidentification, if_neg hidentification]
    by_cases hfile : functionCode = functionCodeReadFileRecord ∧ options.detectMachineLayout
    · rw [if_pos hfile, if_pos hfile]
      cases hdec : ReadFileRecordRequest.decode pdu with
      | panic => exact absurd hdec (ReadFileRecordRequest.decode_ne_panic pdu)
      | err e => exact hunit
      | ok request =>
        rw [letOk_ok, letOk_ok]
        by_cases hbulk : IsBulkTransfer request
        · rw [if_pos hbulk, if_pos hbulk]
          rcases handleReadDeviceDescriptionBulkTransfer_cases request fc43BulkTransfer.compressedToml with
            ⟨code, heq⟩ | ⟨records, -, -, heq⟩
          · exact ⟨_, machines, machines', by rw [heq, map_ok], by rw [heq, map_ok], h⟩
          · exact ⟨_, machines, machines', by rw [heq, map_ok], by rw [heq, map_ok], h⟩
        · rw [if_neg hbulk, if_neg hbulk]
          exact hunit
    · rw [if_neg hfile, if_neg hfile]
      exact hunit

/-- What no enabled function code reads has no influence on any answer. -/
theorem disabled_stores_leak_nothing (h : MachinesAgree options machines machines')
    (requests : List (UInt8 × Bytes)) :
    (run (unitServer tomlSource fc43BulkTransfer options) machines requests).2 =
      (run (unitServer tomlSource fc43BulkTransfer options) machines' requests).2 := by
  refine (@run_simulation _ _ _ _ _ _ (MachinesAgree options) (fun _ => True) ?_ _ _ h requests
    fun _ _ => trivial).1
  rintro machines machines' ⟨unitId, pdu⟩ hagree -
  obtain ⟨response, after, after', heq, heq', hafter⟩ := hagree.request unitId pdu
  rw [unitServer_of_eq tomlSource fc43BulkTransfer heq, unitServer_of_eq tomlSource fc43BulkTransfer heq']
  exact ⟨rfl, hafter⟩

end Server

/-! ### A register that can be masked but not read -/

/-- A machine with one hidden register. -/
def vault (store : RegisterStore) : ServerMachineState where
  registers := [⟨"code", 0, .u16, .readWrite, none⟩]
  store := store
  coils := []
  coilStore := .empty
  discreteInputs := []
  discreteInputStore := .empty
  inputRegisters := []
  inputRegisterStore := .empty
  fileRecords := []
  fileRecordStore := .empty
  memLayout := .abcd
  inputRegisterMemLayout := .abcd
  serverId := none

/-- Clear bits of the hidden register, then try to read it. -/
def vaultRequests : List (UInt8 × Bytes) :=
  [(1, [functionCodeMaskWriteRegister, 0, 0, 0, 1, 0, 0]), (1, [functionCodeReadHoldingRegisters, 0, 0, 0, 1])]

theorem disabled_stores_leak_nothing_vault :
    (run (unitServer "" ⟨[], ""⟩ { maskWriteRegister := true }) (Store.empty.set 1 (vault .empty)) vaultRequests).2 =
      (run (unitServer "" ⟨[], ""⟩ { maskWriteRegister := true })
        (Store.empty.set 1 (vault (Store.empty.set "code" (.u16 4711)))) vaultRequests).2 := by
  refine disabled_stores_leak_nothing ?_ _
  refine @MachinesAgree.set _ .empty .empty ?_ 1 _ _ ?_
  · intro unitId
    exact .none
  · exact ⟨rfl, fun h => absurd h (by decide), fun _ => rfl, fun _ => rfl, fun _ => rfl, fun _ => rfl⟩

end InfusedModbus.Server
