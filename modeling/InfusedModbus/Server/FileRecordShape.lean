import InfusedModbus.Server.Process

/-! The shape of file record answers. A write from the wire must carry as many bytes as
the description declares; a local write may carry any number, and a read sends what is
stored. As long as local writes keep to the declared length, every successful read
carries the records asked for, each of the length asked for. -/

namespace InfusedModbus.Server

open Foundation Foundation.Outcome Protocol Datafs

/-- A record is of its declared length, if it has one. -/
def OfDeclaredLength (fileRecords : List FileRecordDescription) (fileNumber recordNumber : UInt16) (value : Bytes) :
    Prop :=
  ∀ description, findFileRecord fileRecords fileNumber recordNumber = some description →
    value.length = description.recordLength.toNat * 2

/-- A local write that reaches a file record carries a record of the declared length. -/
def ServerProcess.KeepsRecordLength (process : ServerProcess) : Event → Prop
  | .request _ _ => True
  | .set machineName pointName rawValue => ∀ description ∈ process.description.machines,
      description.name = machineName → ∀ fileNumber recordNumber value,
      ServerHandle.NamesFileRecord (.fresh description) pointName fileNumber recordNumber →
      parseFileRecordValue rawValue = .ok value →
      OfDeclaredLength description.fileRecords fileNumber recordNumber value
  | .setFileRecord machineName fileNumber recordNumber value => ∀ description ∈ process.description.machines,
      description.name = machineName → OfDeclaredLength description.fileRecords fileNumber recordNumber value

/-- Every stored record is of its declared length. -/
def RecordInvariant (machine : ServerMachineState) : Prop :=
  ∀ fileNumber recordNumber value, machine.fileRecordStore.get (fileNumber, recordNumber) = some value →
    OfDeclaredLength machine.fileRecords fileNumber recordNumber value

theorem recordInvariant_fresh (description : MachineDescription) : RecordInvariant (.fresh description) :=
  fun _ _ _ hget => nomatch hget

theorem RecordInvariant.set {machine : ServerMachineState} (hinv : RecordInvariant machine)
    {fileNumber recordNumber : UInt16} {value : Bytes}
    (h : OfDeclaredLength machine.fileRecords fileNumber recordNumber value) :
    RecordInvariant
      { machine with fileRecordStore := machine.fileRecordStore.set (fileNumber, recordNumber) value } := by
  intro file record stored hget
  rw [Store.get_set] at hget
  split at hget
  · next heq =>
    obtain ⟨rfl, rfl⟩ := Prod.mk.inj heq
    obtain rfl := Option.some.inj hget
    exact h
  · exact hinv file record stored hget

/-- Requests store only records of the declared length. -/
theorem RecordInvariant.served {pdu : Bytes} {machine machine' : ServerMachineState} {functionCode : UInt8}
    {response : Bytes} (hinv : RecordInvariant machine)
    (h : Served pdu machine functionCode response machine') : RecordInvariant machine' := by
  cases h with
  | writeFileRecord request response hdec hall henc =>
    intro file record stored hget
    rcases Store.get_setAll_cases machine.fileRecordStore (storeRecords request.subRequests) (file, record) with
      ⟨v, hmem, heq⟩ | heq
    · obtain rfl := Option.some.inj (heq.symm.trans hget)
      obtain ⟨subRequest, hsub, hpair⟩ := List.mem_map.mp hmem
      obtain ⟨hkey, rfl⟩ := Prod.mk.inj hpair
      obtain ⟨rfl, rfl⟩ := Prod.mk.inj hkey
      obtain ⟨description, hfind, hlen⟩ := hall subRequest hsub
      intro description' hfind'
      obtain rfl := Option.some.inj (hfind.symm.trans hfind')
      exact hlen
    · exact hinv file record stored (heq.symm.trans hget)
  | _ => exact hinv

theorem everyMachine_recordInvariant_step {process : ServerProcess} {handle : ServerHandle} {event : Event}
    (h : process.EveryMachine (fun _ => RecordInvariant) handle) (hevent : process.KeepsRecordLength event) :
    process.EveryMachine (fun _ => RecordInvariant) (process.step handle event).1 := by
  cases event with
  | request unitId pdu =>
    exact ServerProcess.everyMachine_request h fun _ _ _ _ _ _ _ _ _ hserved hinv => hinv.served hserved
  | set machineName pointName rawValue =>
    refine ServerProcess.everyMachine_set h fun description machine machine' hmem hname hunset hset hinv => ?_
    cases hset with
    | fileRecord fileNumber recordNumber value hpoint hparse =>
      refine hinv.set ?_
      have hfileRecords : machine.fileRecords = description.fileRecords :=
        congrArg ServerMachineState.fileRecords hunset
      rw [hfileRecords]
      refine hevent description hmem hname fileNumber recordNumber value ?_ hparse
      rw [← hunset]
      exact hpoint
    | _ => exact hinv
  | setFileRecord machineName fileNumber recordNumber value =>
    refine ServerProcess.everyMachine_setFileRecord h fun description machine hmem hname hunset hinv => hinv.set ?_
    have hfileRecords : machine.fileRecords = description.fileRecords :=
      congrArg ServerMachineState.fileRecords hunset
    rw [hfileRecords]
    exact hevent description hmem hname

/-! ### Reads -/

/-- A response carries one record for each sub-request, in order: what is stored, or
zeros, of the length asked for. -/
def CarriesRecords (fileRecordStore : FileRecordStore) (pdu response : Bytes) : Prop :=
  ∃ request records, ReadFileRecordRequest.decode pdu = .ok request ∧
    ReadFileRecordResponse.decode response = .ok ⟨records⟩ ∧
    List.Forall₂ (fun subRequest record => record.length = 2 * subRequest.recordLength.toNat ∧
      record = (fileRecordStore.get (subRequest.fileNumber, subRequest.recordNumber)).getD
        (List.replicate (2 * subRequest.recordLength.toNat) 0)) request.subRequests records

/-- When all stored records are of the declared length, a read that is not refused
carries the records asked for. -/
theorem RecordInvariant.carriesRecords {machine : ServerMachineState} (hinv : RecordInvariant machine)
    {pdu response : Bytes}
    (hanswer : handleReadFileRecord pdu machine.fileRecords machine.fileRecordStore = .ok response)
    (hsuccess : ¬IsException response) : CarriesRecords machine.fileRecordStore pdu response := by
  rcases handleReadFileRecord_cases pdu machine.fileRecords machine.fileRecordStore with
    ⟨code, heq⟩ | ⟨request, resolved, hdec, hresolved, hlen, heq⟩
  · obtain rfl := Outcome.ok.inj (heq.symm.trans hanswer)
    exact absurd (isException_exception _ _) hsuccess
  · obtain rfl := Outcome.ok.inj (heq.symm.trans hanswer)
    refine ⟨request, resolved.map (storedRecord machine.fileRecordStore), hdec,
      decode_readFileRecordResponse_encode hlen, ?_⟩
    rw [List.forall₂_map_right_iff]
    refine hresolved.imp fun subRequest description hdescribed => ?_
    obtain ⟨hfind, hlength⟩ := hdescribed
    obtain ⟨_, hfile, hrecord⟩ := findFileRecord_eq_some hfind
    rw [storedRecord, hfile, hrecord, hlength, Nat.mul_comm 2]
    refine ⟨?_, rfl⟩
    cases hget : machine.fileRecordStore.get (subRequest.fileNumber, subRequest.recordNumber) with
    | none => simp
    | some value =>
      rw [Option.getD_some, hinv _ _ value hget description hfind, hlength]

/-- After any events whose local writes keep to the declared lengths, every file record
read that is not refused carries one record of the length asked for for each
sub-request, in order. -/
theorem file_reads_shaped (process : ServerProcess) {events : List Event}
    (hevents : ∀ event ∈ events, process.KeepsRecordLength event) {name : String} {machine : ServerMachineState}
    (hget : Store.get (process.after events) name = some machine) {pdu response : Bytes}
    (hanswer : handleReadFileRecord pdu machine.fileRecords machine.fileRecordStore = .ok response)
    (hsuccess : ¬IsException response) : CarriesRecords machine.fileRecordStore pdu response := by
  obtain ⟨_, _, _, _, hinv⟩ := ServerProcess.everyMachine_after (P := fun _ => RecordInvariant)
    (fun description _ => recordInvariant_fresh description)
    (fun _ _ => everyMachine_recordInvariant_step) hevents name machine hget
  exact hinv.carriesRecords hanswer hsuccess

/-! ### A record of two words -/

/-- A machine with one file record. -/
def recorderMachine : MachineDescription :=
  ⟨"recorder", 1, [], [], [], [], [⟨4, 1, 2⟩], .abcd, .abcd, none⟩

def recorderProcess : ServerProcess where
  description := ⟨[recorderMachine], by decide⟩
  serverOptions := .allowAll
  tomlSource := ""
  fc43BulkTransfer := ⟨[], ""⟩
  floats := ⟨fun _ => none, fun _ => none⟩

/-- The machine after a local write of its record. -/
def recorded (value : Bytes) : ServerMachineState :=
  { ServerMachineState.fresh recorderMachine with fileRecordStore := Store.empty.set (4, 1) value }

theorem after_setFileRecord (value : Bytes) :
    Store.get (recorderProcess.after [.setFileRecord "recorder" 4 1 value]) "recorder" = some (recorded value) :=
  rfl

/-- Read File Record for the two words of the record. -/
def readRecordPdu : Bytes := [functionCodeReadFileRecord, 7, 6, 0, 4, 0, 1, 0, 2]

theorem decode_readRecordPdu : ReadFileRecordRequest.decode readRecordPdu = .ok ⟨[⟨4, 1, 2⟩]⟩ := rfl

/-- The record is sent as it is stored. -/
theorem handleReadFileRecord_recorded {value : Bytes} (h : value.length < 200) :
    handleReadFileRecord readRecordPdu (recorded value).fileRecords (recorded value).fileRecordStore =
      .ok (ReadFileRecordResponse.mk [value]).encode := by
  have hmax : maxPduLen = 253 := rfl
  have hlen : (ReadFileRecordResponse.mk [value]).encode.length = 4 + value.length := by
    rw [ReadFileRecordResponse.length_encode]
    simp
    omega
  rw [handleReadFileRecord, decode_readRecordPdu, letOk_ok]
  have hresolved : resolveFileReads (recorded value).fileRecords [⟨4, 1, 2⟩] = .ok [⟨4, 1, 2⟩] := rfl
  have hstored : storedRecord (recorded value).fileRecordStore ⟨4, 1, 2⟩ = value := rfl
  simp only [hresolved, List.map_cons, List.map_nil, hstored, hlen]
  rw [if_neg (by omega)]

/-- A record of two words is read back as written. -/
theorem file_reads_shaped_recorder :
    CarriesRecords (recorded [1, 2, 3, 4]).fileRecordStore readRecordPdu
      (ReadFileRecordResponse.mk [[1, 2, 3, 4]]).encode := by
  refine @file_reads_shaped recorderProcess [.setFileRecord "recorder" 4 1 [1, 2, 3, 4]] ?_ _ _
    (after_setFileRecord _) _ _ (handleReadFileRecord_recorded (by decide)) (not_isException_of_head rfl (by decide))
  have hdeclared : ∀ description ∈ [recorderMachine], description.name = "recorder" →
      OfDeclaredLength description.fileRecords 4 1 [1, 2, 3, 4] := by
    rintro description hmem - record hfind
    obtain rfl := List.mem_singleton.mp hmem
    obtain rfl : (⟨4, 1, 2⟩ : FileRecordDescription) = record := Option.some.inj hfind
    rfl
  exact List.forall_mem_singleton.mpr hdeclared

/-- Three bytes stored for the two words are answered with a record of three bytes. -/
theorem file_read_misshaped :
    ∃ machine response, Store.get (recorderProcess.after [.setFileRecord "recorder" 4 1 [1, 2, 3]]) "recorder" =
        some machine ∧
      handleReadFileRecord readRecordPdu machine.fileRecords machine.fileRecordStore = .ok response ∧
      ¬IsException response ∧ ¬CarriesRecords machine.fileRecordStore readRecordPdu response := by
  refine ⟨recorded [1, 2, 3], _, after_setFileRecord _, handleReadFileRecord_recorded (by decide),
    not_isException_of_head rfl (by decide), ?_⟩
  rintro ⟨request, records, hdec, hresponse, hshape⟩
  obtain rfl := Outcome.ok.inj (decode_readRecordPdu.symm.trans hdec)
  rw [decode_readFileRecordResponse_encode (by decide)] at hresponse
  obtain rfl : [[1, 2, 3]] = records := ReadFileRecordResponse.mk.inj (Outcome.ok.inj hresponse)
  have hlen := (List.forall₂_cons.mp hshape).1.1
  exact absurd hlen (by decide)

end InfusedModbus.Server
