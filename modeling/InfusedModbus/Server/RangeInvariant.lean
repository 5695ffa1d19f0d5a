import InfusedModbus.Server.Process

/-! The range of the 24-bit types. Text is checked against it, and so is a value that
a local write stores; the words of a request are not, so a write of several registers
stores whatever four bytes it spells. As long as the words of every such write extend
24 bits, all stored values stay in range. -/

namespace InfusedModbus.Server

open Foundation Foundation.Outcome Protocol Datafs

/-- Cut along the registers, the words spell values that keep to 24 bits. -/
def WordsFit (memLayout : MemLayout) : List RegisterDescription → List UInt16 → Prop
  | [], _ => True
  | register :: registers, words =>
    FitsIn24 register.dataType (words.take register.dataType.registerCount) memLayout ∧
      WordsFit memLayout registers (words.drop register.dataType.registerCount)

/-- The register writes that a machine would carry out spell values in range. -/
structure KeepsRange (registers : List RegisterDescription) (memLayout : MemLayout) (pdu : Bytes) : Prop where
  writeMultiple : ∀ request ws, WriteMultipleRegistersRequest.decode pdu = .ok request →
    WriteTiles registers request.startingAddress request.registerValues.length ws →
    WordsFit memLayout ws request.registerValues
  readWrite : ∀ request ws rs, ReadWriteMultipleRegistersRequest.decode pdu = .ok request →
    WriteTiles registers request.writeStartingAddress request.writeValues.length ws →
    ReadTiles registers request.readStartingAddress request.readQuantity.toNat rs →
    WordsFit memLayout ws request.writeValues

/-- A request that the server lets through to a machine keeps the range there. -/
def ServerProcess.KeepsRange (process : ServerProcess) : Event → Prop
  | .request unitId pdu => ∀ functionCode description, pdu.head? = some functionCode →
      process.serverOptions.isEnabled functionCode → process.machineAt unitId = some description →
      Server.KeepsRange description.registers description.memLayout pdu
  | _ => True

/-- All stored register values of a machine are in range. -/
structure RangeInvariant (machine : ServerMachineState) : Prop where
  store : ∀ name value, machine.store.get name = some value → value.InRange
  inputRegisterStore : ∀ name value, machine.inputRegisterStore.get name = some value → value.InRange

theorem rangeInvariant_fresh (description : MachineDescription) : RangeInvariant (.fresh description) :=
  ⟨fun _ _ hget => (nomatch hget), fun _ _ hget => (nomatch hget)⟩

/-! ### Requests -/

section Request

/-- Along a tiling, the decoded values are in range exactly when the words fit. -/
theorem inRange_decodeWrites_iff {registers : List RegisterDescription} {memLayout : MemLayout} {address : UInt16}
    {words : List UInt16} {ws : List RegisterDescription} (h : WriteTiles registers address words.length ws) :
    (∀ p ∈ decodeWrites memLayout ws words, p.2.InRange) ↔ WordsFit memLayout ws words := by
  induction ws generalizing address words with
  | nil => simp [decodeWrites, WordsFit]
  | cons register ws ih =>
    obtain ⟨_, hfit, hrest⟩ := tiles_cons.mp h
    simp only [width] at hfit hrest
    have hlen : (words.take register.dataType.registerCount).length = register.dataType.registerCount := by
      rw [List.length_take]
      omega
    obtain ⟨value, hvalue⟩ := isSome_registerValueFromWords hlen memLayout
    rw [← List.length_drop] at hrest
    rw [decodeWrites, List.forall_mem_cons, WordsFit, ih hrest, hvalue, Option.getD_some,
      inRange_iff_fitsIn24 hvalue]

theorem store_inRange_setAll {store : RegisterStore} (hstore : ∀ name value, store.get name = some value → value.InRange)
    {writes : List (RegisterDescription × RegisterValue)} (h : ∀ p ∈ writes, p.2.InRange) :
    ∀ name value, (store.setAll (storeWrites writes)).get name = some value → value.InRange := by
  intro name value hget
  rcases Store.get_setAll_cases store (storeWrites writes) name with ⟨v, hmem, heq⟩ | heq
  · obtain rfl := Option.some.inj (heq.symm.trans hget)
    obtain ⟨p, hp, hpair⟩ := List.mem_map.mp hmem
    obtain ⟨rfl, rfl⟩ := Prod.mk.inj hpair
    exact h p hp
  · exact hstore name value (heq.symm.trans hget)

theorem store_inRange_set {store : Store String RegisterValue}
    (hstore : ∀ name value, store.get name = some value → value.InRange) {point : String} {new : RegisterValue}
    (h : new.InRange) : ∀ name value, (store.set point new).get name = some value → value.InRange := by
  intro name value hget
  rw [Store.get_set] at hget
  split at hget
  · obtain rfl := Option.some.inj hget
    exact h
  · exact hstore name value hget

/-- A value of one word has no range to keep. -/
theorem inRange_of_oneWord {dataType : DataType} {word : UInt16} {memLayout : MemLayout} {value : RegisterValue}
    (h : registerValueFromWords dataType [word] memLayout = some value) : value.InRange := by
  rw [inRange_iff_fitsIn24 h]
  have hlen : 1 = dataType.registerCount := length_of_registerValueFromWords h
  cases dataType <;> first | exact trivial | exact absurd hlen (by decide)

/-- A served request keeps the range when the writes it carries out do. -/
theorem RangeInvariant.served {pdu : Bytes} {machine machine' : ServerMachineState} {functionCode : UInt8}
    {response : Bytes} (hinv : RangeInvariant machine)
    (hkeeps : KeepsRange machine.registers machine.memLayout pdu)
    (h : Served pdu machine functionCode response machine') : RangeInvariant machine' := by
  cases h with
  | writeSingle request register value hdec hfind hvalue =>
    exact ⟨store_inRange_set hinv.store (inRange_of_oneWord hvalue), hinv.inputRegisterStore⟩
  | maskWrite request register word value hdec hfind hword hvalue =>
    exact ⟨store_inRange_set hinv.store (inRange_of_oneWord hvalue), hinv.inputRegisterStore⟩
  | writeMultiple request ws hdec hws =>
    have hfit := (inRange_decodeWrites_iff hws).mpr (hkeeps.writeMultiple request ws hdec hws)
    exact ⟨store_inRange_setAll hinv.store hfit, hinv.inputRegisterStore⟩
  | readWrite request ws rs store hdec hws hrs hstore =>
    subst hstore
    have hfit := (inRange_decodeWrites_iff hws).mpr (hkeeps.readWrite request ws rs hdec hws hrs)
    exact ⟨store_inRange_setAll hinv.store hfit, hinv.inputRegisterStore⟩
  | _ => exact ⟨hinv.store, hinv.inputRegisterStore⟩

end Request

/-- Text is checked, so a local write keeps the range. -/
theorem RangeInvariant.setText {floats : FloatParser} {pointName rawValue : String}
    {machine machine' : ServerMachineState} (hinv : RangeInvariant machine)
    (h : ServerHandle.SetText floats pointName rawValue machine machine') : RangeInvariant machine' := by
  cases h with
  | register register value hparse =>
    exact ⟨store_inRange_set hinv.store (inRange_of_parseRegisterValue hparse), hinv.inputRegisterStore⟩
  | inputRegister entry value hparse =>
    exact ⟨hinv.store, store_inRange_set hinv.inputRegisterStore (inRange_of_parseRegisterValue hparse)⟩
  | coil | discreteInput | fileRecord => exact ⟨hinv.store, hinv.inputRegisterStore⟩

/-! ### Runs -/

theorem everyMachine_rangeInvariant_step {process : ServerProcess} {handle : ServerHandle} {event : Event}
    (h : process.EveryMachine (fun _ => RangeInvariant) handle) (hevent : process.KeepsRange event) :
    process.EveryMachine (fun _ => RangeInvariant) (process.step handle event).1 := by
  cases event with
  | request unitId pdu =>
    refine ServerProcess.everyMachine_request h
      fun description functionCode machine response machine' hat hhead henabled hunset hserved hinv => ?_
    have hkeeps := hevent functionCode description hhead henabled hat
    obtain ⟨hregisters, hlayout⟩ : machine.registers = description.registers ∧
        machine.memLayout = description.memLayout :=
      ⟨congrArg ServerMachineState.registers hunset, congrArg ServerMachineState.memLayout hunset⟩
    rw [← hregisters, ← hlayout] at hkeeps
    exact hinv.served hkeeps hserved
  | set machineName pointName rawValue =>
    exact ServerProcess.everyMachine_set h fun _ _ _ _ _ _ hset hinv => hinv.setText hset
  | setFileRecord machineName fileNumber recordNumber value =>
    exact ServerProcess.everyMachine_setFileRecord h fun _ _ _ _ _ hinv => ⟨hinv.store, hinv.inputRegisterStore⟩

/-- After any events whose register writes keep the range, every stored 24-bit value
is in range. -/
theorem stored_values_inRange (process : ServerProcess) {events : List Event}
    (hevents : ∀ event ∈ events, process.KeepsRange event) {name : String} {machine : ServerMachineState}
    (hget : Store.get (process.after events) name = some machine) {pointName : String} {value : RegisterValue}
    (hstored : machine.store.get pointName = some value ∨ machine.inputRegisterStore.get pointName = some value) :
    value.InRange := by
  obtain ⟨_, _, _, _, hinv⟩ := ServerProcess.everyMachine_after (P := fun _ => RangeInvariant)
    (fun description _ => rangeInvariant_fresh description)
    (fun _ _ => everyMachine_rangeInvariant_step) hevents name machine hget
  rcases hstored with hstored | hstored
  · exact hinv.store pointName value hstored
  · exact hinv.inputRegisterStore pointName value hstored

/-! ### A level of 24 bits -/

/-- A machine with one 24-bit register. -/
def levelMachine : MachineDescription :=
  ⟨"tank", 1, [⟨"level", 0, .u24, .readWrite, none⟩], [], [], [], [], .abcd, .abcd, none⟩

def levelProcess : ServerProcess where
  description := ⟨[levelMachine], by decide⟩
  serverOptions := .allowAll
  tomlSource := ""
  fc43BulkTransfer := ⟨[], ""⟩
  floats := ⟨fun _ => none, fun _ => none⟩

/-- Write Multiple Registers with a four-byte value for the level. -/
def writeLevelPdu (extension level : UInt8) : Bytes :=
  [functionCodeWriteMultipleRegisters, 0, 0, 0, 2, 4, extension, 0, 0, level]

theorem decode_writeLevelPdu (extension level : UInt8) :
    WriteMultipleRegistersRequest.decode (writeLevelPdu extension level) =
      .ok ⟨0, [u16FromBeBytes extension 0, u16FromBeBytes 0 level]⟩ := by
  rw [writeLevelPdu, WriteMultipleRegistersRequest.decode_cons]
  rfl

theorem naturalBytes_writeLevel (extension level : UInt8) :
    naturalBytesFromWords [u16FromBeBytes extension 0, u16FromBeBytes 0 level] .abcd = [extension, 0, 0, level] := by
  simp only [naturalBytesFromWords, applyMemLayout, bytesOfWords_cons, hiByte_fromBeBytes, loByte_fromBeBytes]
  rfl

theorem writeTiles_level : WriteTiles levelMachine.registers 0 2 levelMachine.registers := ⟨rfl, by decide, rfl⟩

/-- The level stored is the value of all four bytes. -/
theorem after_writeLevel (extension level : UInt8) :
    ∃ machine, Store.get (levelProcess.after [.request 1 (writeLevelPdu extension level)]) "tank" = some machine ∧
      machine.store.get "level" = some (.u24 (UInt32.ofNat (beValue [extension, 0, 0, level]))) := by
  have hws : WriteTiles (ServerMachineState.fresh levelMachine).registers 0 2 levelMachine.registers :=
    writeTiles_level
  have hanswer := handleMachineRequest_writeMultipleRegisters (writeLevelPdu extension level) (.fresh levelMachine)
  rw [handleWriteMultipleRegisters_of_tiles (decode_writeLevelPdu extension level) hws, map_ok] at hanswer
  have hstep := @ServerProcess.step_request_of_machine levelProcess levelProcess.start 1
    _ _ _ _ _ _ rfl rfl rfl (by decide) (by decide) (by decide) hanswer
  rw [ServerProcess.after, run_cons, run_nil, hstep, ← naturalBytes_writeLevel]
  exact ⟨_, Store.get_set_self _ _ _, rfl⟩

/-- A write whose top byte is zero keeps the range. -/
theorem keepsRange_writeLevel (level : UInt8) : levelProcess.KeepsRange (.request 1 (writeLevelPdu 0 level)) := by
  intro functionCode description _ _ hat
  obtain rfl : levelMachine = description := Option.some.inj hat
  refine ⟨fun request ws hdec hws => ?_, fun request ws rs hdec => ?_⟩
  · obtain rfl := Outcome.ok.inj ((decode_writeLevelPdu 0 level).symm.trans hdec)
    obtain rfl := writeTiles_level.unique (fun _ register _ => width_pos register) hws
    exact ⟨rfl, trivial⟩
  · cases hdec

/-- A level of 200 under a zero byte is stored, in range. -/
theorem stored_values_inRange_level :
    ∃ machine, Store.get (levelProcess.after [.request 1 (writeLevelPdu 0 200)]) "tank" = some machine ∧
      machine.store.get "level" = some (.u24 200) ∧ (RegisterValue.u24 200).InRange := by
  obtain ⟨machine, hget, hstored⟩ := after_writeLevel 0 200
  exact ⟨machine, hget, hstored, stored_values_inRange levelProcess
    (List.forall_mem_singleton.mpr (keepsRange_writeLevel 200)) hget (.inl hstored)⟩

/-- A level under any other byte is stored out of range. -/
theorem level_out_of_range :
    ∃ machine, Store.get (levelProcess.after [.request 1 (writeLevelPdu 1 0)]) "tank" = some machine ∧
      ∃ value, machine.store.get "level" = some value ∧ ¬value.InRange := by
  obtain ⟨machine, hget, hstored⟩ := after_writeLevel 1 0
  exact ⟨machine, hget, _, hstored, by rw [RegisterValue.InRange]; decide⟩

end InfusedModbus.Server
