import InfusedModbus.Client.Peer
import InfusedModbus.Client.SparkplugCommand

/-! Values between registers and metrics, in both directions. Publishing a value and
writing it back is exact, down to the words on the wire. The other way round the casts to
the types below 24 bits drop whatever is above the width of the type, so a command value
is taken over exactly only if there is nothing there but zeros, or copies of the sign. -/

namespace InfusedModbus.Client

open Foundation Foundation.Outcome Protocol Datafs
open Sparkplug (MetricValue Metric Payload)

/-! ### Narrowing and widening -/

theorem toInt_toInt8 (x : UInt8) :
    x.toInt8.toInt = if x.toNat < 2 ^ 7 then (x.toNat : ℤ) else (x.toNat : ℤ) - 2 ^ 8 := by
  have hcond := BitVec.toInt_eq_toNat_cond x.toBitVec
  rw [show x.toInt8.toInt = x.toBitVec.toInt from rfl, hcond]
  simp only [UInt8.toNat_toBitVec]
  split <;> split <;> omega

theorem toInt_toInt16 (x : UInt16) :
    x.toInt16.toInt = if x.toNat < 2 ^ 15 then (x.toNat : ℤ) else (x.toNat : ℤ) - 2 ^ 16 := by
  have hcond := BitVec.toInt_eq_toNat_cond x.toBitVec
  rw [show x.toInt16.toInt = x.toBitVec.toInt from rfl, hcond]
  simp only [UInt16.toNat_toBitVec]
  split <;> split <;> omega

/-- Sign extension is undone by taking the low byte. -/
theorem narrow8_widen (x : Int8) : x.toInt32.toUInt32.toUInt8.toInt8 = x := by
  have hwide := toInt_toInt32 x.toInt32.toUInt32
  rw [show x.toInt32.toUInt32.toInt32 = x.toInt32 from rfl, Int8.toInt_toInt32] at hwide
  rw [← Int8.toInt_inj, toInt_toInt8, UInt32.toNat_toUInt8]
  have hlt := x.toInt_lt
  have hle := x.le_toInt
  split at hwide <;> split <;> omega

theorem narrow16_widen (x : Int16) : x.toInt32.toUInt32.toUInt16.toInt16 = x := by
  have hwide := toInt_toInt32 x.toInt32.toUInt32
  rw [show x.toInt32.toUInt32.toInt32 = x.toInt32 from rfl, Int16.toInt_toInt32] at hwide
  rw [← Int16.toInt_inj, toInt_toInt16, UInt32.toNat_toUInt16]
  have hlt := x.toInt_lt
  have hle := x.le_toInt
  split at hwide <;> split <;> omega

/-- Taking the low byte is undone by sign extension where the rest copies the sign. -/
theorem widen_narrow8_iff (x : UInt32) : x.toUInt8.toInt8.toInt32.toUInt32 = x ↔ x ≤ 0x7F ∨ 0xFFFFFF80 ≤ x := by
  have hwide := toInt_toInt32 x.toUInt8.toInt8.toInt32.toUInt32
  rw [show x.toUInt8.toInt8.toInt32.toUInt32.toInt32 = x.toUInt8.toInt8.toInt32 from rfl, Int8.toInt_toInt32,
    toInt_toInt8, UInt32.toNat_toUInt8] at hwide
  rw [← UInt32.toNat_inj, UInt32.le_iff_toNat_le, UInt32.le_iff_toNat_le]
  simp only [UInt32.reduceToNat]
  have hx := x.toNat_lt
  have hy := x.toUInt8.toInt8.toInt32.toUInt32.toNat_lt
  split at hwide <;> split at hwide <;> omega

theorem widen_narrow16_iff (x : UInt32) :
    x.toUInt16.toInt16.toInt32.toUInt32 = x ↔ x ≤ 0x7FFF ∨ 0xFFFF8000 ≤ x := by
  have hwide := toInt_toInt32 x.toUInt16.toInt16.toInt32.toUInt32
  rw [show x.toUInt16.toInt16.toInt32.toUInt32.toInt32 = x.toUInt16.toInt16.toInt32 from rfl, Int16.toInt_toInt32,
    toInt_toInt16, UInt32.toNat_toUInt16] at hwide
  rw [← UInt32.toNat_inj, UInt32.le_iff_toNat_le, UInt32.le_iff_toNat_le]
  simp only [UInt32.reduceToNat]
  have hx := x.toNat_lt
  have hy := x.toUInt16.toInt16.toInt32.toUInt32.toNat_lt
  split at hwide <;> split at hwide <;> omega

/-! ### The two tables -/

section Tables

variable {dataType : DataType} {value : MetricValue} {registerValue : RegisterValue}

/-- A metric value stands for a register value of the type: the one is published as the other. -/
def Corresponds (dataType : DataType) (value : MetricValue) (registerValue : RegisterValue) : Prop :=
  registerValue.dataType = dataType ∧ registerValue.InRange ∧ mapRegisterValue registerValue = value

/-- Nothing is lost when the value is cast to the width of the type. -/
def FitsWidth : DataType → MetricValue → Prop
  | .u8, .int raw => raw ≤ 0xFF
  | .i8, .int raw => raw ≤ 0x7F ∨ 0xFFFFFF80 ≤ raw
  | .u16, .int raw => raw ≤ 0xFFFF
  | .i16, .int raw => raw ≤ 0x7FFF ∨ 0xFFFF8000 ≤ raw
  | _, _ => True

/-- What a register is published as is taken back as its value. -/
theorem metricValueToRegisterValue_map (h : registerValue.InRange) :
    metricValueToRegisterValue (mapRegisterValue registerValue) registerValue.dataType = .ok registerValue := by
  cases registerValue with
  | u8 v | u16 v => simp [mapRegisterValue, RegisterValue.dataType, metricValueToRegisterValue]
  | i8 v =>
    rw [RegisterValue.dataType, mapRegisterValue, metricValueToRegisterValue, narrow8_widen]
  | i16 v =>
    rw [RegisterValue.dataType, mapRegisterValue, metricValueToRegisterValue, narrow16_widen]
  | u24 v =>
    rw [RegisterValue.dataType, mapRegisterValue, metricValueToRegisterValue, if_neg (UInt32.not_lt.mpr h)]
  | i24 v =>
    have hsigned : v.toUInt32.toInt32 = v := rfl
    simp only [mapRegisterValue, RegisterValue.dataType, metricValueToRegisterValue, hsigned]
    exact if_pos h
  | u32 v | i32 v | u64 v | i64 v | f32 v | f64 v => rfl

/-- What is taken over is a value of the type and in range. -/
theorem metricValueToRegisterValue_eq_ok (h : metricValueToRegisterValue value dataType = .ok registerValue) :
    registerValue.dataType = dataType ∧ registerValue.InRange := by
  unfold metricValueToRegisterValue at h
  split at h
  case h_5 raw =>
    split at h
    · cases h
    · next hfits =>
      obtain rfl := Except.ok.inj h
      exact ⟨rfl, UInt32.not_lt.mp hfits⟩
  case h_6 raw =>
    dsimp only at h
    split at h
    · next hfits =>
      obtain rfl := Except.ok.inj h
      exact ⟨rfl, hfits⟩
    · cases h
  case h_13 => cases h
  all_goals
    obtain rfl := Except.ok.inj h
    exact ⟨rfl, trivial⟩

/-- It is published as the value it was taken from if that fits. -/
theorem mapRegisterValue_eq_iff (h : metricValueToRegisterValue value dataType = .ok registerValue) :
    mapRegisterValue registerValue = value ↔ FitsWidth dataType value := by
  unfold metricValueToRegisterValue at h
  split at h
  case h_1 raw =>
    obtain rfl := Except.ok.inj h
    have hlow : raw.toUInt8.toUInt32 = raw ↔ raw ≤ 0xFF := by
      rw [← UInt32.toNat_inj, UInt8.toNat_toUInt32, UInt32.toNat_toUInt8, UInt32.le_iff_toNat_le]
      simp only [UInt32.reduceToNat]
      omega
    simpa only [mapRegisterValue, FitsWidth, MetricValue.int.injEq] using hlow
  case h_2 raw =>
    obtain rfl := Except.ok.inj h
    simpa only [mapRegisterValue, FitsWidth, MetricValue.int.injEq] using widen_narrow8_iff raw
  case h_3 raw =>
    obtain rfl := Except.ok.inj h
    have hlow : raw.toUInt16.toUInt32 = raw ↔ raw ≤ 0xFFFF := by
      rw [← UInt32.toNat_inj, UInt16.toNat_toUInt32, UInt32.toNat_toUInt16, UInt32.le_iff_toNat_le]
      simp only [UInt32.reduceToNat]
      omega
    simpa only [mapRegisterValue, FitsWidth, MetricValue.int.injEq] using hlow
  case h_4 raw =>
    obtain rfl := Except.ok.inj h
    simpa only [mapRegisterValue, FitsWidth, MetricValue.int.injEq] using widen_narrow16_iff raw
  case h_5 raw =>
    split at h
    · cases h
    · obtain rfl := Except.ok.inj h
      exact iff_of_true rfl trivial
  case h_6 raw =>
    dsimp only at h
    split at h
    · obtain rfl := Except.ok.inj h
      exact iff_of_true rfl trivial
    · cases h
  case h_13 => cases h
  all_goals
    obtain rfl := Except.ok.inj h
    exact iff_of_true rfl trivial

/-- A value that is refused has a shape of its own, or is one of the 24-bit types'. -/
theorem fitsWidth_of_error {reason : String} (h : metricValueToRegisterValue value dataType = .error reason) :
    FitsWidth dataType value := by
  unfold metricValueToRegisterValue at h
  unfold FitsWidth
  split
  case h_5 => trivial
  all_goals cases h

/-- The conversion is the correspondence exactly for the values that fit. -/
theorem converts_iff_fitsWidth :
    (∀ registerValue, metricValueToRegisterValue value dataType = .ok registerValue ↔
      Corresponds dataType value registerValue) ↔ FitsWidth dataType value := by
  have hback : ∀ registerValue, Corresponds dataType value registerValue →
      metricValueToRegisterValue value dataType = .ok registerValue := by
    rintro registerValue ⟨rfl, hrange, rfl⟩
    exact metricValueToRegisterValue_map hrange
  constructor
  · intro h
    cases hconverted : metricValueToRegisterValue value dataType with
    | error reason => exact fitsWidth_of_error hconverted
    | ok registerValue => exact (mapRegisterValue_eq_iff hconverted).mp ((h registerValue).mp hconverted).2.2
  · intro hfits registerValue
    refine ⟨fun hconverted => ?_, hback registerValue⟩
    obtain ⟨htype, hrange⟩ := metricValueToRegisterValue_eq_ok hconverted
    exact ⟨htype, hrange, (mapRegisterValue_eq_iff hconverted).mpr hfits⟩

end Tables

/-! ### Publishing and writing back -/

section WriteBack

variable {machine : MachineDescription} {aliases : AliasAllocator} {register : RegisterDescription}
  {registerValue : RegisterValue} {words : List UInt16}

/-- A write request that puts the words at the address. -/
def WritesWords (pdu : Bytes) (address : UInt16) (words : List UInt16) : Prop :=
  (∃ word, words = [word] ∧ pdu = WriteSingleRegisterRequest.encode ⟨address, word⟩) ∨
    words.length ≠ 1 ∧ WriteMultipleRegistersRequest.encode ⟨address, words⟩ = .ok pdu

/-- Words that a register of the type can be read as and write again: in range, and an
8-bit register's word extends its low byte. -/
structure RegisterWords (dataType : DataType) (memLayout : MemLayout) (words : List UInt16) : Prop where
  length_eq : words.length = dataType.registerCount
  fits : FitsIn24 dataType words memLayout
  extended : words.map (normalizeWord dataType) = words

/-- A transaction of one register value sends one request, with the words of the value. -/
theorem sentWrites_register {config : MachineTransactionConfig}
    (hfind : config.registers.find? (fun other => other.name == register.name) = some register)
    (htype : registerValue.dataType = register.dataType) :
    ∃ pdu, sentWrites config [(register.name, .register registerValue)] = [pdu] ∧
      WritesWords pdu register.address (registerValueToWords registerValue config.memLayout) := by
  have hbatch : buildRegisterWriteBatches [(register, registerValue)] =
      [⟨register.address, [(register, registerValue)], wordsOf RegisterDescription.dataType register⟩] := rfl
  have hresolved : resolveTransaction config [(register.name, .register registerValue)] .empty =
      ⟨[(register, registerValue)], [], [], [], .empty⟩ := by
    simp only [resolveTransaction, List.map_cons, List.map_nil, resolveStaged, hfind, htype, if_true,
      List.foldl_cons, List.foldl_nil, Resolution.push, List.nil_append]
  have hsent : sentWrites config [(register.name, .register registerValue)] =
      sentEach (confirmRegisterBatch config.memLayout)
        [⟨register.address, [(register, registerValue)], wordsOf RegisterDescription.dataType register⟩] := by
    rw [sentWrites, hresolved]
    dsimp only
    rw [hbatch, show buildCoilWriteBatches [] = [] from rfl]
    simp only [sentEach, List.flatMap_nil, List.append_nil]
  have hlen : (registerValueToWords registerValue config.memLayout).length = register.dataType.registerCount := by
    rw [length_registerValueToWords, htype]
  have hquantity : wordsOf RegisterDescription.dataType register = 1 ↔ register.dataType.registerCount = 1 := by
    rw [← UInt16.toNat_inj, toNat_wordsOf]
    rfl
  rw [hsent]
  simp only [sentEach, List.flatMap_cons, List.flatMap_nil, List.append_nil, confirmRegisterBatch]
  by_cases hsingle : register.dataType.registerCount = 1
  · obtain ⟨word, hword, hencode⟩ := @encodeWriteRequest_eq _ _ config.memLayout hsingle htype.symm
    refine ⟨WriteSingleRegisterRequest.encode ⟨register.address, word⟩, ?_, .inl ⟨word, hword, rfl⟩⟩
    rw [if_pos (hquantity.mpr hsingle), index_cons_zero, ok_bind]
    simp only [pure_eq, confirmWrite, Confirmation.requests, hencode]
  · have hcount := register.dataType.registerCount_le
    have hroom : ¬maxWriteMultipleRegistersCount < (registerValueToWords registerValue config.memLayout).length := by
      rw [hlen, maxWriteMultipleRegistersCount]
      omega
    rw [if_neg fun h => hsingle (hquantity.mp h)]
    obtain ⟨pdu, hencode⟩ : ∃ pdu, WriteMultipleRegistersRequest.encode
        ⟨register.address, registerValueToWords registerValue config.memLayout⟩ = .ok pdu := ⟨_, if_neg hroom⟩
    refine ⟨pdu, ?_, .inr ⟨by rw [hlen]; exact hsingle, hencode⟩⟩
    simp only [pure_eq, confirmWriteMultiple, Confirmation.requests, hencode, mapErr_ok]

/-- A command that names a register by its published value stages that value. -/
theorem decodeDcmdMetrics_published (hfind : machine.registers.find? (fun other => other.name == register.name) =
      some register) (htype : registerValue.dataType = register.dataType) (hrange : registerValue.InRange)
    {metric : Metric} (hname : commandedName machine aliases metric = some register.name)
    (hvalue : metric.value = mapRegisterValue registerValue) {payload : Payload} (hpayload : payload.metrics = [metric]) :
    decodeDcmdMetrics machine aliases payload = Store.empty.set register.name (.register registerValue) := by
  have hstaged : metricValueToStagedValue machine register.name (mapRegisterValue registerValue) =
      .ok (.register registerValue) := by
    unfold metricValueToStagedValue
    rw [hfind]
    dsimp only
    rw [← htype, metricValueToRegisterValue_map hrange]
    rfl
  rw [decodeDcmdMetrics, hpayload]
  simp only [List.foldl_cons, List.foldl_nil, hname, hvalue, hstaged]

/-- A register read as some words and published is written back as these words. -/
theorem written_back {config : MachineTransactionConfig} (hconfig : config = .ofDescription machine)
    (hfind : machine.registers.find? (fun other => other.name == register.name) = some register)
    (hwords : RegisterWords register.dataType machine.memLayout words) {stores : MachineStores}
    (hstored : stores.registers.get register.name =
      registerValueFromWords register.dataType words machine.memLayout)
    {metric : Metric} (hname : commandedName machine aliases metric = some register.name)
    (hvalue : metric.value = (MachinePoint.register register).value stores)
    {payload : Payload} (hpayload : payload.metrics = [metric]) {transaction : List (String × StagedValue)}
    (htransaction : Enumerates transaction (decodeDcmdMetrics machine aliases payload)) :
    ∃ pdu, sentWrites config transaction = [pdu] ∧ WritesWords pdu register.address words := by
  obtain ⟨registerValue, hdecoded⟩ := isSome_registerValueFromWords hwords.length_eq machine.memLayout
  have htype := dataType_of_registerValueFromWords hdecoded
  have hrange : registerValue.InRange := (inRange_iff_fitsIn24 hdecoded).mpr hwords.fits
  have hback : registerValueToWords registerValue machine.memLayout = words := by
    rw [registerValueToWords_fromWords hdecoded, hwords.extended]
  have hpublished : metric.value = mapRegisterValue registerValue := by
    rw [hvalue, MachinePoint.value, MachinePoint.stored, hstored, hdecoded]
    rfl
  rw [decodeDcmdMetrics_published hfind htype hrange hname hpublished hpayload] at htransaction
  subst hconfig
  obtain ⟨pdu, hsent, hwrites⟩ := @sentWrites_register _ _ (.ofDescription machine) hfind htype
  rw [enumerates_singleton.mp htransaction]
  exact ⟨pdu, hsent, hback ▸ hwrites⟩

end WriteBack

/-- A command value becomes a register value exactly when it is what that value would be
published as, as far as it fits the width of the type; and a register that is published
and written back sends the words it was read as, and nothing else. -/
theorem setpoint_values_exact (dataType : DataType) (value : MetricValue) :
    ((∀ registerValue, metricValueToRegisterValue value dataType = .ok registerValue ↔
        Corresponds dataType value registerValue) ↔ FitsWidth dataType value) ∧
    ∀ (machine : MachineDescription) (aliases : AliasAllocator) (register : RegisterDescription) (words : List UInt16)
      (stores : MachineStores) (metric : Metric) (payload : Payload) (transaction : List (String × StagedValue))
      (peer : Peer) (report : WriteReport),
      register.dataType = dataType →
      machine.registers.find? (fun other => other.name == register.name) = some register →
      RegisterWords dataType machine.memLayout words →
      stores.registers.get register.name = registerValueFromWords dataType words machine.memLayout →
      commandedName machine aliases metric = some register.name →
      metric.value = (MachinePoint.register register).value stores →
      payload.metrics = [metric] →
      Enumerates transaction (decodeDcmdMetrics machine aliases payload) →
      ∃ pdu report', WritesWords pdu register.address words ∧
        processTransaction peer.exchange (.ofDescription machine) transaction [] report =
          .ok ([(machine.unitId, pdu)], report') := by
  refine ⟨converts_iff_fitsWidth, ?_⟩
  intro machine aliases register words stores metric payload transaction peer report htype hfind hwords hstored hname
    hvalue hpayload htransaction
  subst htype
  obtain ⟨pdu, hsent, hwrites⟩ := written_back rfl hfind hwords hstored hname hvalue hpayload htransaction
  obtain ⟨report', hprocess⟩ := processTransaction_peer peer (.ofDescription machine) transaction [] report
  refine ⟨pdu, report', hwrites, ?_⟩
  rw [hprocess, hsent]
  rfl

/-- The strokes of the pump, 70000 of them, are written back in their two words. -/
theorem setpoint_values_exact_pump :
    (∀ registerValue, metricValueToRegisterValue (.int 70000) .u32 = .ok registerValue ↔
      Corresponds .u32 (.int 70000) registerValue) ∧
    ∀ peer : Peer, ∃ pdu report', WritesWords pdu 10 [4464, 1] ∧
      processTransaction peer.exchange (.ofDescription pump) [("strokes", .register (.u32 70000))] [] .empty =
        .ok ([(3, pdu)], report') := by
  obtain ⟨hconverts, hback⟩ := setpoint_values_exact .u32 (.int 70000)
  refine ⟨hconverts.mpr trivial, fun peer => ?_⟩
  exact hback pump (.build []) ⟨"strokes", 10, .u32, .readWrite, none⟩ [4464, 1]
    { MachineStores.new with registers := Store.empty.set "strokes" (.u32 70000) }
    ⟨"strokes", none, none, .uint32, false, none, .int 70000⟩
    ⟨none, [⟨"strokes", none, none, .uint32, false, none, .int 70000⟩], none⟩ [("strokes", .register (.u32 70000))]
    peer .empty rfl (by decide) ⟨rfl, trivial, rfl⟩ (by decide) (by decide) (by decide) rfl
    (enumerates_singleton.mpr rfl)

/-- A setpoint of 256 for an 8-bit register is taken over as 0. -/
theorem oversized_setpoint_wraps : ¬∀ registerValue, metricValueToRegisterValue (.int 256) .u8 = .ok registerValue ↔
    Corresponds .u8 (.int 256) registerValue := by
  intro h
  have hzero := (h (.u8 0)).mp rfl
  exact absurd hzero.2.2 (by decide)

end InfusedModbus.Client
