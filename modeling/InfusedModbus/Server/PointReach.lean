import InfusedModbus.Server.PointRead
import InfusedModbus.Server.ResponseSize
import Mathlib.Data.Set.Finite.Basic
import Mathlib.Data.Set.Finite.Range

/-! Which points of a machine are within reach, one by one. A request that always brings the
value of a file record exists only for a record that fits a response; a line that always
brings the value of a point must name it by a word that the point is resolved from. -/

namespace InfusedModbus.Server

open Foundation Foundation.Outcome Protocol Datafs

/-! ### What a machine holds -/

/-- A machine of a description, with values of its registers' types and its records' lengths. -/
structure StateOf (description : MachineDescription) (machine : ServerMachineState) : Prop where
  unset : machine.unset = .fresh description
  typed : TypedRegisters machine
  records : ∀ entry ∈ description.fileRecords, ∀ value, machine.fileRecordStore.get (recordKey entry) = some value →
    value.length = entry.recordLength.toNat * 2

theorem stateOf_fresh (description : MachineDescription) : StateOf description (.fresh description) where
  unset := rfl
  typed := typedRegisters_fresh description
  records := fun _ _ _ hget => (nomatch hget)

section State

variable {description : MachineDescription} {machine : ServerMachineState} {point : DataPoint}

/-- A point that is no record can be given any value of its type. -/
theorem StateOf.write (h : StateOf description machine) (hpoint : point.Of description)
    (hregister : ∀ entry, point ≠ .fileRecord entry) {value : point.Value} (htyped : point.Typed value) :
    StateOf description (point.write machine value) where
  unset := (DataPoint.unset_write value).trans h.unset
  typed := h.typed.write h.unset hpoint htyped
  records := by
    cases point with
    | fileRecord entry => exact absurd rfl (hregister entry)
    | register | coil | discreteInput | inputRegister => exact h.records

theorem StateOf.length_response (h : StateOf description machine) (hpoint : point.Of description)
    (hlength : ∀ entry, point = .fileRecord entry → entry.recordLength.toNat ≤ 124) :
    (point.response description (point.read machine)).length ≤ maxPduLen := by
  have hmax : maxPduLen = 253 := rfl
  cases point with
  | register entry | inputRegister entry =>
    rw [DataPoint.response]
    generalize DataPoint.read machine _ = value
    have hcount := (RegisterValue.dataType value).registerCount_le
    simp only [ReadHoldingRegistersResponse.encode, ReadInputRegistersResponse.encode,
      length_encodeRegisterArrayResponse, length_registerValueToWords]
    omega
  | coil entry | discreteInput entry =>
    simp only [DataPoint.response, ReadCoilsResponse.encode, ReadDiscreteInputsResponse.encode,
      length_encodeBitfieldResponse, List.length_singleton, divCeil_eight]
    omega
  | fileRecord entry =>
    have hstored := length_storedRecord (h.records entry hpoint)
    have hshort := hlength entry rfl
    simp only [DataPoint.response, DataPoint.read, ReadFileRecordResponse.length_encode, List.map_cons, List.map_nil,
      List.sum_cons, List.sum_nil, hstored]
    omega

end State

/-! ### Reach -/

/-- Some request is answered with the value of the point and nothing else, whatever its machine
holds. -/
def WireReadable (process : ServerProcess) (description : MachineDescription) (point : DataPoint) : Prop :=
  ∃ pdu, ∀ handle machine, Store.get handle description.name = some machine → StateOf description machine →
    process.step handle (.request description.unitId pdu) =
      (handle, .response (.ok (some (point.response description (point.read machine)))))

/-- Some line gets the point by its name, whatever its machine holds. -/
def SocketReadable (process : ServerProcess) (text : SocketText) (description : MachineDescription)
    (point : DataPoint) : Prop :=
  ∃ line pointName, point.IsNamed pointName ∧
    DataCommand.parse text.debugStr (trimEnd line.toList) = .ok (.get description.name pointName) ∧
    ∀ handle machine, Store.get handle description.name = some machine → StateOf description machine →
      handleLine process.floats text handle line = (handle, .ok ("OK GET " ++ description.name ++ " " ++ pointName ++
        " " ++ point.text text.floats (point.read machine)))

section Reach

variable {process : ServerProcess} {text : SocketText} {description : MachineDescription} {point : DataPoint}

/-- The request for one point, if the machine is routed to and the value fits. -/
theorem wireReadable (hat : process.machineAt description.unitId = some description)
    (henabled : process.serverOptions.isEnabled point.readFunctionCode) (hflat : FlatDescription description)
    (hunreserved : ∀ entry ∈ description.fileRecords, entry.fileNumber ≠ reservedDeviceDescriptionFileNumber)
    (hpoint : point.Of description)
    (hlength : ∀ entry, point = .fileRecord entry → entry.recordLength.toNat ≤ 124) :
    WireReadable process description point := by
  refine ⟨point.readRequest, ?_⟩
  intro handle machine hget hstate
  have htyped := hstate.typed.typed_read hstate.unset hflat hpoint
  have hfits := hstate.length_response hpoint hlength
  exact ServerProcess.step_readRequest hget hstate.unset hflat hpoint htyped ⟨hat, henabled, hfits, hunreserved⟩

/-- A point has a name that is a word and resolves to it: a record has a spelling that is no
other point's name. -/
theorem exists_name (hflat : FlatDescription description) (hnames : (DataPoint.pointNames description).Nodup)
    (hwords : ∀ name ∈ DataPoint.pointNames description, IsWord name) (hpoint : point.Of description) :
    ∃ pointName, point.IsNamed pointName ∧ IsWord pointName ∧
      DataPoint.resolve (.fresh description) pointName = some point := by
  have hresolved : ∀ pointName, point.IsNamed pointName → pointName ∈ DataPoint.pointNames description →
      (∀ entry, point ≠ .fileRecord entry) → ∃ pointName, point.IsNamed pointName ∧ IsWord pointName ∧
        DataPoint.resolve (.fresh description) pointName = some point := by
    intro pointName hnamed hmem hregister
    refine ⟨pointName, hnamed, hwords pointName hmem, DataPoint.resolve_of_named hflat hnames hpoint hnamed ?_⟩
    intro entry hrecord
    exact absurd hrecord (hregister entry)
  simp only [DataPoint.pointNames, List.mem_append] at hresolved
  cases point with
  | register entry =>
    refine hresolved entry.name rfl (.inl (List.mem_map_of_mem hpoint)) ?_
    intro record heq
    cases heq
  | coil entry =>
    refine hresolved entry.name rfl (.inr (.inl (List.mem_map_of_mem hpoint))) ?_
    intro record heq
    cases heq
  | discreteInput entry =>
    refine hresolved entry.name rfl (.inr (.inr (.inl (List.mem_map_of_mem hpoint)))) ?_
    intro record heq
    cases heq
  | inputRegister entry =>
    refine hresolved entry.name rfl (.inr (.inr (.inr (List.mem_map_of_mem hpoint)))) ?_
    intro record heq
    cases heq
  | fileRecord entry =>
    have hinfinite := Set.infinite_range_of_injective (recordSpelling_injective entry.fileNumber entry.recordNumber)
    obtain ⟨pointName, ⟨zeros, rfl⟩, hfree⟩ := hinfinite.exists_notMem_finset (DataPoint.pointNames description).toFinset
    have hnamed : (DataPoint.fileRecord entry).IsNamed (recordSpelling zeros entry.fileNumber entry.recordNumber) :=
      parseFileRecordName_recordSpelling zeros entry.fileNumber entry.recordNumber
    obtain ⟨hne, hplain⟩ := plain_of_parseFileRecordName hnamed
    refine ⟨_, hnamed, ⟨hne, hplain⟩, DataPoint.resolve_of_named hflat hnames hpoint hnamed ?_⟩
    intro _ _
    exact fun hmem => hfree (List.mem_toFinset.mpr hmem)

theorem StateOf.resolve_eq {machine : ServerMachineState} (h : StateOf description machine) (pointName : String) :
    DataPoint.resolve machine pointName = DataPoint.resolve (.fresh description) pointName := by
  rw [← h.unset]
  rfl

/-- The line that gets the point by such a name. -/
theorem socketReadable (hname : IsWord description.name) (hflat : FlatDescription description)
    (hnames : (DataPoint.pointNames description).Nodup)
    (hwords : ∀ name ∈ DataPoint.pointNames description, IsWord name) (hpoint : point.Of description) :
    SocketReadable process text description point := by
  obtain ⟨pointName, hnamed, hword, hresolve⟩ := exists_name hflat hnames hwords hpoint
  have hparse := parse_getLine text.debugStr hname hword
  refine ⟨getLine description.name pointName, pointName, hnamed, hparse, ?_⟩
  intro handle machine hget hstate
  rw [handleLine_get hparse hget, hstate.resolve_eq, hresolve]

/-! ### Out of reach -/

/-- A response to a read of file records fits a PDU. -/
theorem Served.length_readFileRecord {pdu : Bytes} {machine machine' : ServerMachineState} {functionCode : UInt8}
    {response : Bytes} (h : Served pdu machine functionCode response machine')
    (hhead : response.head? = some functionCodeReadFileRecord) : response.length ≤ maxPduLen := by
  cases h with
  | rejected functionCode exceptionCode =>
    rw [length_exception]
    decide
  | readFileRecord request resolved hdec hres hlen => exact hlen
  | writeFileRecord request response hdec hall henc =>
    obtain ⟨-, rfl⟩ := encodeWriteFileRecord_eq_ok.mp henc
    exact absurd (Option.some.inj hhead) (by decide)
  | _ => exact absurd (Option.some.inj hhead) (by decide)

theorem length_of_step_request {handle handle' : ServerHandle} {unitId : UInt8} {pdu response : Bytes}
    (h : process.step handle (.request unitId pdu) = (handle', .response (.ok (some response))))
    (hhead : response.head? = some functionCodeReadFileRecord) : response.length ≤ maxPduLen := by
  obtain ⟨answer, machines', heq, hanswered⟩ := handleRequest_answered unitId pdu process.serverOptions
    (process.machines handle) process.tomlSource process.fc43BulkTransfer
  rw [ServerProcess.step, heq] at h
  obtain ⟨-, hreply⟩ := Prod.mk.inj h
  cases hreply
  cases hanswered with
  | rejected functionCode exceptionCode =>
    rw [length_exception]
    decide
  | identification source request objects hobjects =>
    exact (wellFormed_handleReadDeviceIdentification request objects).fits
  | bulkTransfer records hlen => exact hlen
  | served functionCode machine response machine' hhead' henabled hget hserved =>
    exact hserved.length_readFileRecord hhead

/-- A record that outgrows a response is not read by any request. -/
theorem recordLength_le {entry : FileRecordDescription} (h : WireReadable process description (.fileRecord entry)) :
    entry.recordLength.toNat ≤ 124 := by
  obtain ⟨pdu, hread⟩ := h
  have hstep := hread (Store.set Store.empty description.name (.fresh description)) (.fresh description)
    (Store.get_set_self _ _ _) (stateOf_fresh description)
  have hlength := length_of_step_request hstep rfl
  have hstored : (storedRecord (ServerMachineState.fresh description).fileRecordStore entry).length =
      entry.recordLength.toNat * 2 := List.length_replicate
  have hmax : maxPduLen = 253 := rfl
  simp only [DataPoint.response, DataPoint.read, ReadFileRecordResponse.length_encode, List.map_cons, List.map_nil,
    List.sum_cons, List.sum_nil, hstored] at hlength
  omega

/-- Every data type has a value other than its default. -/
theorem exists_value_ne_default (dataType : DataType) : ∃ value : RegisterValue, value.dataType = dataType ∧
    value.InRange ∧ ¬value.IsNaN ∧ value ≠ defaultRegisterValue dataType := by
  cases dataType with
  | u8 => exact ⟨.u8 1, rfl, trivial, id, by decide⟩
  | i8 => exact ⟨.i8 1, rfl, trivial, id, by decide⟩
  | u16 => exact ⟨.u16 1, rfl, trivial, id, by decide⟩
  | i16 => exact ⟨.i16 1, rfl, trivial, id, by decide⟩
  | u24 => exact ⟨.u24 1, rfl, by rw [RegisterValue.InRange]; decide, id, by decide⟩
  | i24 => exact ⟨.i24 1, rfl, by rw [RegisterValue.InRange]; decide, id, by decide⟩
  | u32 => exact ⟨.u32 1, rfl, trivial, id, by decide⟩
  | i32 => exact ⟨.i32 1, rfl, trivial, id, by decide⟩
  | u64 => exact ⟨.u64 1, rfl, trivial, id, by decide⟩
  | i64 => exact ⟨.i64 1, rfl, trivial, id, by decide⟩
  | f32 => exact ⟨.f32 1, rfl, trivial, by rw [RegisterValue.IsNaN]; decide, by decide⟩
  | f64 => exact ⟨.f64 1, rfl, trivial, by rw [RegisterValue.IsNaN]; decide, by decide⟩

theorem printable_default (dataType : DataType) :
    (defaultRegisterValue dataType).InRange ∧ ¬(defaultRegisterValue dataType).IsNaN := by
  cases dataType <;> simp [defaultRegisterValue, RegisterValue.InRange, RegisterValue.IsNaN, i24Min, i24Max, u24Max]

/-- A point that is no record has a value whose text is not that of its default. -/
theorem exists_text_ne (description : MachineDescription) (hfloats : FloatRoundTrip process.floats text.floats)
    (hregister : ∀ entry, point ≠ .fileRecord entry) :
    ∃ value, point.Typed value ∧
      point.text text.floats value ≠ point.text text.floats (point.read (.fresh description)) := by
  have hne : ∀ value, point.Typed value → point.Printable value → point.Typed (point.read (.fresh description)) →
      point.Printable (point.read (.fresh description)) → value ≠ point.read (.fresh description) →
      ∃ value, point.Typed value ∧
        point.text text.floats value ≠ point.text text.floats (point.read (.fresh description)) := by
    intro value htyped hprint htyped' hprint' hvalue
    refine ⟨value, htyped, ?_⟩
    intro heq
    have hparsed := DataPoint.parse_text hfloats htyped hprint
    rw [heq, DataPoint.parse_text hfloats htyped' hprint'] at hparsed
    exact hvalue (Outcome.ok.inj hparsed).symm
  cases point with
  | register entry | inputRegister entry =>
    obtain ⟨value, htype, hrange, hnan, hvalue⟩ := exists_value_ne_default entry.dataType
    exact hne value htype ⟨hrange, hnan⟩ (dataType_defaultRegisterValue _) (printable_default _) hvalue
  | coil entry | discreteInput entry => exact hne ⟨true⟩ trivial trivial trivial trivial fun heq => nomatch CoilValue.mk.inj heq
  | fileRecord entry => exact absurd rfl (hregister entry)

/-- What a line says of every state of a machine it says of the point that its name resolves to. -/
theorem resolve_of_socketReadable (hflat : FlatDescription description)
    (hfloats : FloatRoundTrip process.floats text.floats) (hpoint : point.Of description)
    (h : SocketReadable process text description point) :
    ∃ pointName, point.IsNamed pointName ∧ IsWord pointName ∧
      DataPoint.resolve (.fresh description) pointName = some point := by
  obtain ⟨line, pointName, hnamed, hparse, hread⟩ := h
  refine ⟨pointName, hnamed, isWord_of_parse_get hparse, ?_⟩
  cases hresolve : DataPoint.resolve (.fresh description) pointName with
  | none =>
    have hget := Store.get_set_self Store.empty description.name (ServerMachineState.fresh description)
    have hline := hread _ _ hget (stateOf_fresh description)
    rw [handleLine_get hparse hget, hresolve] at hline
    have hhead := congrArg (fun reply => reply.toList.head?) (Outcome.ok.inj (Prod.mk.inj hline).2)
    simp [String.toList_append] at hhead
  | some other =>
    obtain ⟨hother, hnamed'⟩ := DataPoint.resolve_eq_some hresolve
    by_contra hne
    have hne : other ≠ point := fun heq => hne (congrArg some heq)
    have htext : ∀ machine, StateOf description machine →
        other.text text.floats (other.read machine) = point.text text.floats (point.read machine) := by
      intro machine hstate
      have hget := Store.get_set_self Store.empty description.name machine
      have hline := hread _ machine hget hstate
      rw [handleLine_get hparse hget, hstate.resolve_eq, hresolve] at hline
      exact (String.append_right_inj _).mp (Outcome.ok.inj (Prod.mk.inj hline).2)
    -- one of the two is no record; its text changes while the other's stays
    have hapart : ∀ p q : DataPoint, p.Of description → q.Of description → p ≠ q →
        (∀ machine, StateOf description machine →
          p.text text.floats (p.read machine) = q.text text.floats (q.read machine)) →
        ∃ entry, p = .fileRecord entry := by
      intro p q hp hq hpq hsame
      by_contra hregister
      have hregister : ∀ entry, p ≠ .fileRecord entry := fun entry heq => hregister ⟨entry, heq⟩
      obtain ⟨value, htyped, hvalue⟩ := exists_text_ne description hfloats hregister
      have hfresh := hsame _ (stateOf_fresh description)
      have hwritten := hsame _ ((stateOf_fresh description).write hp hregister htyped)
      rw [DataPoint.read_write_self, DataPoint.read_write_of_ne hflat hp hq hpq.symm] at hwritten
      exact hvalue (hwritten.trans hfresh.symm)
    obtain ⟨entry, rfl⟩ := hapart other point hother hpoint hne htext
    obtain ⟨entry', rfl⟩ := hapart point _ hpoint hother hne.symm fun machine hstate => (htext machine hstate).symm
    have hkey : recordKey entry = recordKey entry' := Option.some.inj (hnamed'.symm.trans hnamed)
    exact hne (congrArg DataPoint.fileRecord (List.inj_on_of_nodup_map hflat.fileRecords hother hpoint hkey))

end Reach

end InfusedModbus.Server
