import InfusedModbus.Server.DataPoint

/-! One point read on its own: as text under its name, and from the wire at its address. As
long as stored values have the types of their points, which every write keeps, the text is
read back as the value, and the answer from the wire is the encoding of the same value. -/

namespace InfusedModbus.Server

open Foundation Foundation.Outcome Protocol Datafs

namespace DataPoint

/-- The value of a register has the type of the register. -/
def Typed : (point : DataPoint) → point.Value → Prop
  | .register entry, value => RegisterValue.dataType value = entry.dataType
  | .inputRegister entry, value => RegisterValue.dataType value = entry.dataType
  | .coil _, _ | .discreteInput _, _ | .fileRecord _, _ => True

/-- A 24-bit value in its range, a float that is a number, a record with a byte in it. -/
def Printable : (point : DataPoint) → point.Value → Prop
  | .register _, value | .inputRegister _, value => RegisterValue.InRange value ∧ ¬RegisterValue.IsNaN value
  | .fileRecord _, value => value ≠ ([] : Bytes)
  | .coil _, _ | .discreteInput _, _ => True

theorem typed_of_parse {floats : FloatParser} {rawValue : String} {point : DataPoint} {value : point.Value}
    (h : point.parse floats rawValue = .ok value) : point.Typed value := by
  cases point with
  | register entry | inputRegister entry => exact dataType_of_parseRegisterValue (ServerHandle.parsed_eq_ok.mp h)
  | coil | discreteInput | fileRecord => trivial

/-- The text of a value is read back as the value. -/
theorem parse_text {floats : FloatParser} {display : FloatDisplay} (hfloats : FloatRoundTrip floats display)
    {point : DataPoint} {value : point.Value} (htyped : point.Typed value) (hprint : point.Printable value) :
    point.parse floats (point.text display value) = .ok value := by
  cases point with
  | register entry | inputRegister entry =>
    have htype : RegisterValue.dataType value = entry.dataType := htyped
    apply ServerHandle.parsed_eq_ok.mpr
    rw [← htype]
    exact parseRegisterValue_display hfloats hprint.1 hprint.2
  | coil entry | discreteInput entry => exact ServerHandle.parsed_eq_ok.mpr (parseCoilValue_display value)
  | fileRecord entry => exact mapErr_eq_ok.mpr (parseFileRecordValue_formatHex hprint)

end DataPoint

/-! ### Stored types -/

/-- Every stored register value is of the type of a register of its name. -/
structure TypedRegisters (machine : ServerMachineState) : Prop where
  store : ∀ name value, machine.store.get name = some value →
    ∃ register ∈ machine.registers, register.name = name ∧ value.dataType = register.dataType
  inputRegisterStore : ∀ name value, machine.inputRegisterStore.get name = some value →
    ∃ entry ∈ machine.inputRegisters, entry.name = name ∧ value.dataType = entry.dataType

theorem typedRegisters_fresh (description : MachineDescription) : TypedRegisters (.fresh description) :=
  ⟨fun _ _ hget => (nomatch hget), fun _ _ hget => (nomatch hget)⟩

section Typed

variable {ρ : Type} {name : ρ → String} {dataType : ρ → DataType} {entries : List ρ} {store : Store String RegisterValue}

theorem typed_set (hstore : ∀ point value, store.get point = some value →
      ∃ entry ∈ entries, name entry = point ∧ value.dataType = dataType entry)
    {entry : ρ} (hentry : entry ∈ entries) {value : RegisterValue} (htype : value.dataType = dataType entry) :
    ∀ point value', (store.set (name entry) value).get point = some value' →
      ∃ entry ∈ entries, name entry = point ∧ value'.dataType = dataType entry := by
  intro point value' hget
  rw [Store.get_set] at hget
  split at hget
  · next heq =>
    obtain rfl := Option.some.inj hget
    exact ⟨entry, hentry, heq.symm, htype⟩
  · exact hstore point value' hget

/-- The values that a request's words spell are of their registers' types. -/
theorem dataType_of_mem_decodeWrites {memLayout : MemLayout} {ws : List RegisterDescription} {words : List UInt16}
    {p : RegisterDescription × RegisterValue} (h : p ∈ decodeWrites memLayout ws words) :
    p.1 ∈ ws ∧ p.2.dataType = p.1.dataType := by
  induction ws generalizing words with
  | nil => cases h
  | cons register ws ih =>
    rw [decodeWrites] at h
    rcases List.mem_cons.mp h with rfl | h
    · refine ⟨List.mem_cons_self, ?_⟩
      dsimp only
      cases hvalue : registerValueFromWords register.dataType (words.take register.dataType.registerCount) memLayout with
      | none => exact dataType_defaultRegisterValue register.dataType
      | some value => exact dataType_of_registerValueFromWords hvalue
    · obtain ⟨hmem, htype⟩ := ih h
      exact ⟨List.mem_cons_of_mem _ hmem, htype⟩

theorem typed_setAll {registers : List RegisterDescription} {store : RegisterStore}
    (hstore : ∀ point value, store.get point = some value →
      ∃ register ∈ registers, register.name = point ∧ value.dataType = register.dataType)
    {memLayout : MemLayout} {ws : List RegisterDescription} {words : List UInt16} (hws : ∀ w ∈ ws, w ∈ registers) :
    ∀ point value, (store.setAll (storeWrites (decodeWrites memLayout ws words))).get point = some value →
      ∃ register ∈ registers, register.name = point ∧ value.dataType = register.dataType := by
  intro point value hget
  rcases Store.get_setAll_cases store (storeWrites (decodeWrites memLayout ws words)) point with ⟨v, hmem, heq⟩ | heq
  · obtain rfl := Option.some.inj (heq.symm.trans hget)
    obtain ⟨p, hp, hpair⟩ := List.mem_map.mp hmem
    obtain ⟨rfl, rfl⟩ := Prod.mk.inj hpair
    obtain ⟨hregister, htype⟩ := dataType_of_mem_decodeWrites hp
    exact ⟨p.1, hws p.1 hregister, rfl, htype⟩
  · exact hstore point value (heq.symm.trans hget)

/-- A stored value of a section told apart by names is of its own entry's type. -/
theorem dataType_of_typed (hnames : (entries.map name).Nodup) {entry : ρ} (hentry : entry ∈ entries)
    (hstore : ∀ point value, store.get point = some value →
      ∃ entry ∈ entries, name entry = point ∧ value.dataType = dataType entry) :
    ∀ value, store.get (name entry) = some value → value.dataType = dataType entry := by
  intro value hget
  obtain ⟨other, hother, hname, htype⟩ := hstore (name entry) value hget
  rw [htype, List.inj_on_of_nodup_map hnames hother hentry hname]

end Typed

/-- A served request stores values of their registers' types. -/
theorem TypedRegisters.served {pdu : Bytes} {machine machine' : ServerMachineState} {functionCode : UInt8}
    {response : Bytes} (hinv : TypedRegisters machine) (h : Served pdu machine functionCode response machine') :
    TypedRegisters machine' := by
  cases h with
  | writeSingle request register value hdec hfind hvalue =>
    have hmem := (findSingleWordReadWriteRegister_eq_some hfind).1
    exact ⟨typed_set hinv.store hmem (dataType_of_registerValueFromWords hvalue), hinv.inputRegisterStore⟩
  | maskWrite request register word value hdec hfind hword hvalue =>
    have hmem := (findSingleWordReadWriteRegister_eq_some hfind).1
    exact ⟨typed_set hinv.store hmem (dataType_of_registerValueFromWords hvalue), hinv.inputRegisterStore⟩
  | writeMultiple request ws hdec hws =>
    exact ⟨typed_setAll hinv.store fun w hw => (hws.mem hw).1, hinv.inputRegisterStore⟩
  | readWrite request ws rs store hdec hws hrs hstore =>
    subst hstore
    exact ⟨typed_setAll hinv.store fun w hw => (hws.mem hw).1, hinv.inputRegisterStore⟩
  | _ => exact ⟨hinv.store, hinv.inputRegisterStore⟩

section Machine

variable {description : MachineDescription} {machine : ServerMachineState}

/-- So does a write of a point of the machine. -/
theorem TypedRegisters.write (hinv : TypedRegisters machine) (hunset : machine.unset = .fresh description)
    {point : DataPoint} (hpoint : point.Of description) {value : point.Value} (htyped : point.Typed value) :
    TypedRegisters (point.write machine value) := by
  cases point with
  | register entry =>
    have hmem : entry ∈ machine.registers := by
      rw [show machine.registers = description.registers from congrArg ServerMachineState.registers hunset]
      exact hpoint
    exact ⟨typed_set hinv.store hmem htyped, hinv.inputRegisterStore⟩
  | inputRegister entry =>
    have hmem : entry ∈ machine.inputRegisters := by
      rw [show machine.inputRegisters = description.inputRegisters from
        congrArg ServerMachineState.inputRegisters hunset]
      exact hpoint
    exact ⟨hinv.store, typed_set hinv.inputRegisterStore hmem htyped⟩
  | coil | discreteInput | fileRecord => exact ⟨hinv.store, hinv.inputRegisterStore⟩

/-- What a point reads as has its type. -/
theorem TypedRegisters.typed_read (hinv : TypedRegisters machine) (hunset : machine.unset = .fresh description)
    (hflat : FlatDescription description) {point : DataPoint} (hpoint : point.Of description) :
    point.Typed (point.read machine) := by
  have hdefault : ∀ (store : Store String RegisterValue) name dataType,
      (∀ value, store.get name = some value → value.dataType = dataType) →
      ((store.get name).getD (defaultRegisterValue dataType)).dataType = dataType := by
    intro store name dataType hstore
    cases hget : store.get name with
    | none => exact dataType_defaultRegisterValue dataType
    | some value => exact hstore value hget
  cases point with
  | register entry =>
    apply hdefault
    apply dataType_of_typed hflat.registers.names hpoint
    rw [← show machine.registers = description.registers from congrArg ServerMachineState.registers hunset]
    exact hinv.store
  | inputRegister entry =>
    apply hdefault
    apply dataType_of_typed hflat.inputRegisters.names hpoint
    rw [← show machine.inputRegisters = description.inputRegisters from
      congrArg ServerMachineState.inputRegisters hunset]
    exact hinv.inputRegisterStore
  | coil | discreteInput | fileRecord => trivial

end Machine

/-! ### The wire -/

namespace DataPoint

def readFunctionCode : DataPoint → UInt8
  | .register _ => functionCodeReadHoldingRegisters
  | .coil _ => functionCodeReadCoils
  | .discreteInput _ => functionCodeReadDiscreteInputs
  | .inputRegister _ => functionCodeReadInputRegisters
  | .fileRecord _ => functionCodeReadFileRecord

/-- The request that reads the point and nothing else. -/
def readRequest : DataPoint → Bytes
  | .register entry => ReadHoldingRegistersRequest.encode ⟨entry.address, UInt16.ofNat entry.dataType.registerCount⟩
  | .coil entry => ReadCoilsRequest.encode ⟨entry.address, 1⟩
  | .discreteInput entry => ReadDiscreteInputsRequest.encode ⟨entry.address, 1⟩
  | .inputRegister entry => ReadInputRegistersRequest.encode ⟨entry.address, UInt16.ofNat entry.dataType.registerCount⟩
  | .fileRecord entry => ReadFileRecordRequest.encode ⟨[⟨entry.fileNumber, entry.recordNumber, entry.recordLength⟩]⟩

/-- The response that carries a value of the point and nothing else. -/
def response (description : MachineDescription) : (point : DataPoint) → point.Value → Bytes
  | .register _, value => (ReadHoldingRegistersResponse.mk (registerValueToWords value description.memLayout)).encode
  | .coil _, value => (ReadCoilsResponse.mk [CoilValue.value value]).encode
  | .discreteInput _, value => (ReadDiscreteInputsResponse.mk [CoilValue.value value]).encode
  | .inputRegister _, value =>
    (ReadInputRegistersResponse.mk (registerValueToWords value description.inputRegisterMemLayout)).encode
  | .fileRecord _, value => (ReadFileRecordResponse.mk [value]).encode

end DataPoint

/-- A request for the point reaches its machine, and its value fits into a response. -/
structure ServerProcess.Reads (process : ServerProcess) (description : MachineDescription) (point : DataPoint)
    (value : point.Value) : Prop where
  routed : process.machineAt description.unitId = some description
  enabled : process.serverOptions.isEnabled point.readFunctionCode
  fits : (point.response description value).length ≤ maxPduLen
  unreserved : ∀ entry ∈ description.fileRecords, entry.fileNumber ≠ reservedDeviceDescriptionFileNumber

section Wire

variable {description : MachineDescription} {machine : ServerMachineState}

/-- An entry of a flat section tiles the words of its own span. -/
theorem tiles_of_entry {ρ : Type} {name : ρ → String} {address : ρ → UInt16} {dataType : ρ → DataType} {entries : List ρ}
    (hflat : FlatSection name address (width dataType) entries) {entry : ρ} (hentry : entry ∈ entries) :
    Tiles (fun a => entries.find? fun other => address other == a) (width dataType) advance (address entry)
      (UInt16.ofNat (dataType entry).registerCount).toNat [entry] := by
  have hcount : (UInt16.ofNat (dataType entry).registerCount).toNat = width dataType entry := by
    have hle := (dataType entry).registerCount_le
    rw [UInt16.toNat_ofNat', width]
    omega
  rw [hcount, tiles_cons]
  exact ⟨hflat.find?_eq (fun r _ => width_pos r) hentry, le_rfl, Nat.sub_self _⟩

theorem handleRead_entry (hflat : FlatDescription description) {entry : RegisterDescription}
    (hentry : entry ∈ description.registers) (store : RegisterStore) (memLayout : MemLayout) :
    handleRead (DataPoint.register entry).readRequest description.registers store memLayout =
      .ok (ReadHoldingRegistersResponse.mk (holdingWords store memLayout entry)).encode := by
  have hdec : ReadHoldingRegistersRequest.decode (DataPoint.register entry).readRequest =
      .ok ⟨entry.address, UInt16.ofNat entry.dataType.registerCount⟩ := by
    simp [DataPoint.readRequest, ReadHoldingRegistersRequest.decode, ReadHoldingRegistersRequest.encode]
  rw [handleRead_of_tiles hdec (tiles_of_entry hflat.registers hentry), List.flatMap_singleton]

theorem handleReadInputRegisters_entry (hflat : FlatDescription description) {entry : InputRegisterDescription}
    (hentry : entry ∈ description.inputRegisters) (store : InputRegisterStore) (memLayout : MemLayout) :
    handleReadInputRegisters (DataPoint.inputRegister entry).readRequest description.inputRegisters store memLayout =
      .ok (ReadInputRegistersResponse.mk (inputWords store memLayout entry)).encode := by
  have hdec : ReadInputRegistersRequest.decode (DataPoint.inputRegister entry).readRequest =
      .ok ⟨entry.address, UInt16.ofNat entry.dataType.registerCount⟩ := by
    simp [DataPoint.readRequest, ReadInputRegistersRequest.decode, ReadInputRegistersRequest.encode]
  rw [handleReadInputRegisters_of_tiles hdec (tiles_of_entry hflat.inputRegisters hentry), List.flatMap_singleton]

/-- One address that an entry has is configured. -/
theorem configured_one {ρ : Type} {find : UInt16 → Option ρ} {address : UInt16} {entry : ρ}
    (hfind : find address = some entry) : Configured find address 1 := by
  intro i hi
  obtain rfl : i = 0 := by omega
  rw [advance_zero, hfind]
  rfl

theorem handleReadCoils_entry (hflat : FlatDescription description) {entry : CoilDescription}
    (hentry : entry ∈ description.coils) (store : CoilStore) :
    handleReadCoils (DataPoint.coil entry).readRequest description.coils store =
      .ok (ReadCoilsResponse.mk [storedBit CoilDescription.name store entry]).encode := by
  have hdec : ReadCoilsRequest.decode (DataPoint.coil entry).readRequest = .ok ⟨entry.address, 1⟩ := by
    simp [DataPoint.readRequest, ReadCoilsRequest.decode, ReadCoilsRequest.encode]
  have hfind := hflat.findCoil_eq hentry
  rw [handleReadCoils_of_configured hdec (configured_one hfind)]
  simp [bitAtAddress, hfind]

theorem handleReadDiscreteInputs_entry (hflat : FlatDescription description) {entry : DiscreteInputDescription}
    (hentry : entry ∈ description.discreteInputs) (store : DiscreteInputStore) :
    handleReadDiscreteInputs (DataPoint.discreteInput entry).readRequest description.discreteInputs store =
      .ok (ReadDiscreteInputsResponse.mk [storedBit DiscreteInputDescription.name store entry]).encode := by
  have hdec : ReadDiscreteInputsRequest.decode (DataPoint.discreteInput entry).readRequest = .ok ⟨entry.address, 1⟩ := by
    simp [DataPoint.readRequest, ReadDiscreteInputsRequest.decode, ReadDiscreteInputsRequest.encode]
  have hfind := hflat.findDiscreteInput_eq hentry
  rw [handleReadDiscreteInputs_of_configured hdec (configured_one hfind)]
  simp [bitAtAddress, hfind]

theorem decode_readFileRecordRequest (entry : FileRecordDescription) :
    ReadFileRecordRequest.decode (DataPoint.fileRecord entry).readRequest =
      .ok ⟨[⟨entry.fileNumber, entry.recordNumber, entry.recordLength⟩]⟩ :=
  ReadFileRecordRequest.decode_encode (by simp) (by simp [fileRecordSubRequestLen])

theorem handleReadFileRecord_entry (hflat : FlatDescription description) {entry : FileRecordDescription}
    (hentry : entry ∈ description.fileRecords) {store : FileRecordStore}
    (hfits : (ReadFileRecordResponse.mk [storedRecord store entry]).encode.length ≤ maxPduLen) :
    handleReadFileRecord (DataPoint.fileRecord entry).readRequest description.fileRecords store =
      .ok (ReadFileRecordResponse.mk [storedRecord store entry]).encode := by
  have hresolved : resolveFileReads description.fileRecords
      [⟨entry.fileNumber, entry.recordNumber, entry.recordLength⟩] = .ok [entry] :=
    resolveFileReads_eq_ok.mpr (.cons ⟨hflat.findFileRecord_eq hentry, rfl⟩ .nil)
  rw [handleReadFileRecord, decode_readFileRecordRequest, letOk_ok, hresolved]
  exact if_neg (by simpa using hfits)

/-- The words of a register whose value has its type are the words of the value. -/
theorem registerWords_of_typed {ρ : Type} {name : ρ → String} {dataType : ρ → DataType} {store : Store String RegisterValue}
    {entry : ρ}
    (h : ((store.get (name entry)).getD (defaultRegisterValue (dataType entry))).dataType = dataType entry)
    (memLayout : MemLayout) :
    registerWords name dataType store memLayout entry =
      registerValueToWords ((store.get (name entry)).getD (defaultRegisterValue (dataType entry))) memLayout := by
  have hstored : ∀ value, store.get (name entry) = some value → value.dataType = dataType entry := by
    intro value hget
    rw [hget] at h
    exact h
  rw [registerWords, storedValue_of_typed hstored]

/-- A machine of the description answers the request for one point with its value. -/
theorem handleMachineRequest_entry (hunset : machine.unset = .fresh description) (hflat : FlatDescription description)
    {point : DataPoint} (hpoint : point.Of description) (htyped : point.Typed (point.read machine))
    (hfits : (point.response description (point.read machine)).length ≤ maxPduLen) :
    handleMachineRequest point.readFunctionCode point.readRequest machine =
      .ok (point.response description (point.read machine), machine) := by
  cases point with
  | register entry =>
    have hsection : machine.registers = description.registers := congrArg ServerMachineState.registers hunset
    have hlayout : machine.memLayout = description.memLayout := congrArg ServerMachineState.memLayout hunset
    rw [DataPoint.readFunctionCode, handleMachineRequest_readHoldingRegisters, hsection, handleRead_entry hflat hpoint,
      hlayout, holdingWords, registerWords_of_typed htyped]
    rfl
  | inputRegister entry =>
    have hsection : machine.inputRegisters = description.inputRegisters :=
      congrArg ServerMachineState.inputRegisters hunset
    have hlayout : machine.inputRegisterMemLayout = description.inputRegisterMemLayout :=
      congrArg ServerMachineState.inputRegisterMemLayout hunset
    rw [DataPoint.readFunctionCode, handleMachineRequest_readInputRegisters, hsection,
      handleReadInputRegisters_entry hflat hpoint, hlayout, inputWords, registerWords_of_typed htyped]
    rfl
  | coil entry =>
    have hsection : machine.coils = description.coils := congrArg ServerMachineState.coils hunset
    have hbit : (⟨storedBit CoilDescription.name machine.coilStore entry⟩ : CoilValue) =
        (DataPoint.coil entry).read machine := storedBit_eq _ _ _
    rw [DataPoint.readFunctionCode, handleMachineRequest_readCoils, hsection, handleReadCoils_entry hflat hpoint, ← hbit]
    rfl
  | discreteInput entry =>
    have hsection : machine.discreteInputs = description.discreteInputs :=
      congrArg ServerMachineState.discreteInputs hunset
    have hbit : (⟨storedBit DiscreteInputDescription.name machine.discreteInputStore entry⟩ : CoilValue) =
        (DataPoint.discreteInput entry).read machine := storedBit_eq _ _ _
    rw [DataPoint.readFunctionCode, handleMachineRequest_readDiscreteInputs, hsection,
      handleReadDiscreteInputs_entry hflat hpoint, ← hbit]
    rfl
  | fileRecord entry =>
    have hsection : machine.fileRecords = description.fileRecords := congrArg ServerMachineState.fileRecords hunset
    rw [DataPoint.readFunctionCode, handleMachineRequest_readFileRecord, hsection,
      handleReadFileRecord_entry hflat hpoint hfits]
    rfl

theorem DataPoint.head?_readRequest (point : DataPoint) : point.readRequest.head? = some point.readFunctionCode := by
  cases point <;> rfl

/-- The wire's answer to the request for one point is the encoding of its value, and the read
leaves the server as it is. -/
theorem ServerProcess.step_readRequest {process : ServerProcess} {handle : ServerHandle}
    (hget : Store.get handle description.name = some machine) (hunset : machine.unset = .fresh description)
    (hflat : FlatDescription description) {point : DataPoint} (hpoint : point.Of description)
    (htyped : point.Typed (point.read machine)) (hreads : process.Reads description point (point.read machine)) :
    process.step handle (.request description.unitId point.readRequest) =
      (handle, .response (.ok (some (point.response description (point.read machine))))) := by
  have hview : (process.machines handle).get description.unitId = some machine := by
    rw [process.get_machines hreads.routed, hget]
  have hhandled := handleMachineRequest_entry hunset hflat hpoint htyped hreads.fits
  apply step_request_of_unchanged hreads.routed hget
  by_cases hfile : point.readFunctionCode = functionCodeReadFileRecord
  · obtain ⟨entry, rfl⟩ : ∃ entry, point = .fileRecord entry := by
      cases point with
      | fileRecord entry => exact ⟨entry, rfl⟩
      | register | coil | discreteInput | inputRegister =>
        dsimp only [DataPoint.readFunctionCode] at hfile
        exact absurd hfile (by decide)
    have hbulk : process.serverOptions.detectMachineLayout →
        ¬IsBulkTransfer ⟨[⟨entry.fileNumber, entry.recordNumber, entry.recordLength⟩]⟩ := by
      intro _ hreserved
      exact hreads.unreserved entry hpoint (hreserved.2 _ List.mem_cons_self)
    rw [handleRequest_readFileRecord rfl hreads.enabled hview (decode_readFileRecordRequest entry) hbulk]
    exact congrArg (Outcome.map _) hhandled
  · have hidentification : point.readFunctionCode ≠ functionCodeEncapsulatedInterfaceTransport := by
      cases point <;> dsimp only [DataPoint.readFunctionCode] <;> decide
    rw [handleRequest_of_machine point.head?_readRequest hreads.enabled hview hidentification hfile, hhandled, map_ok]

end Wire

end InfusedModbus.Server
