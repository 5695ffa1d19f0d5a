import InfusedModbus.Sparkplug.DataSet
import InfusedModbus.Sparkplug.Property

/-! Metrics on the wire. A metric without an alias, a timestamp or properties has no field for
them, and one that is not null has none to say so. The decoder needs a name or an alias, a
type and a value, and takes the last of each. -/

namespace InfusedModbus.Sparkplug

open Foundation Foundation.Outcome

@[match_pattern] def fieldName : UInt32 := 1
@[match_pattern] def fieldAlias : UInt32 := 2
@[match_pattern] def fieldTimestamp : UInt32 := 3
@[match_pattern] def fieldDatatype : UInt32 := 4
@[match_pattern] def fieldIsNull : UInt32 := 7
@[match_pattern] def fieldProperties : UInt32 := 9
@[match_pattern] def fieldDatasetValue : UInt32 := 17

def metricValueFields : ScalarFields := ⟨10, 11, 12, 13, 14, 15, 16, by decide⟩

/-- All fields a metric may have. -/
def metricFieldNumbers : List UInt32 :=
  [fieldName, fieldAlias, fieldTimestamp, fieldDatatype, fieldIsNull, fieldProperties, fieldDatasetValue] ++
    metricValueFields.numbers

inductive MetricDecodeError where
  | wire (error : WireError)
  | missingIdentifier
  | missingDataType
  | missingValue
  | unknownDataTypeCode (code : UInt32)
  | property (error : PropertyDecodeError)
  | dataSet (error : DataSetDecodeError)
  deriving DecidableEq, Repr

/-! ### Values -/

/-- A scalar, or a table. -/
def MetricValue.kind : MetricValue → Scalar ⊕ DataSet
  | .int value => .inl (.int value)
  | .long value => .inl (.long value)
  | .float bits => .inl (.float bits)
  | .double bits => .inl (.double bits)
  | .boolean value => .inl (.boolean value)
  | .string value => .inl (.string value)
  | .bytes value => .inl (.bytes value)
  | .dataSet value => .inr value

def MetricValue.ofScalar : Scalar → MetricValue
  | .int value => .int value
  | .long value => .long value
  | .float bits => .float bits
  | .double bits => .double bits
  | .boolean value => .boolean value
  | .string value => .string value
  | .bytes value => .bytes value

theorem MetricValue.eq_of_kind {value : MetricValue} {kind : Scalar ⊕ DataSet} (h : value.kind = kind) :
    value = kind.elim MetricValue.ofScalar MetricValue.dataSet := by
  subst h
  cases value <;> rfl

def encodeMetricValue (value : MetricValue) : Bytes :=
  match value.kind with
  | .inl scalar => encodeScalar metricValueFields scalar
  | .inr dataSet => encodeBytesField fieldDatasetValue (encodeDataSet dataSet)

/-! ### Metrics -/

def encodeMetric (metric : Metric) : Bytes :=
  encodeBytesField fieldName (asBytes metric.name) ++
    metric.metricAlias.elim [] (fun metricAlias => encodeVarintField fieldAlias (UInt64.ofNat metricAlias)) ++
    metric.timestamp.elim [] (encodeVarintField fieldTimestamp) ++
    encodeVarintField fieldDatatype metric.dataType.code.toUInt64 ++
    (if metric.isNull then encodeVarintField fieldIsNull 1 else []) ++
    metric.properties.elim [] (fun properties => encodeBytesField fieldProperties (encodePropertySet properties)) ++
    encodeMetricValue metric.value

/-- What has been read of a metric. -/
structure MetricFields where
  name : Option String
  metricAlias : Option UInt64
  timestamp : Option UInt64
  dataType : Option DataType
  isNull : Bool
  properties : Option PropertySet
  value : Option MetricValue

def MetricFields.empty : MetricFields := ⟨none, none, none, none, false, none, none⟩

/-- `DataType::try_from` with the error of a metric. -/
def metricType (code : UInt32) : Outcome MetricDecodeError DataType :=
  match DataType.ofCode code with
  | some dataType => .ok dataType
  | none => .err (.unknownDataTypeCode code)

section Decode

variable (w : ℕ)

/-- The arms of the decoder. -/
def metricField (s : MetricFields) (tag : Tag) (rest : Bytes) : Outcome MetricDecodeError (MetricFields × ℕ) :=
  match tag.fieldNumber with
  | fieldName =>
    takeField .wire (decodeLengthDelimited w rest) fun bytes => .ok { s with name := some (fromUtf8Lossy bytes) }
  | fieldAlias => takeField .wire (decodeVarint rest) fun raw => .ok { s with metricAlias := some raw }
  | fieldTimestamp => takeField .wire (decodeVarint rest) fun raw => .ok { s with timestamp := some raw }
  | fieldDatatype =>
    takeField .wire (decodeVarint rest) fun raw =>
      (metricType raw.toUInt32).map fun dataType => { s with dataType := some dataType }
  | fieldIsNull => takeField .wire (decodeVarint rest) fun raw => .ok { s with isNull := raw != 0 }
  | fieldProperties =>
    takeField .wire (decodeLengthDelimited w rest) fun bytes =>
      ((decodePropertySet w bytes).mapErr .property).map fun properties => { s with properties := some properties }
  | fieldDatasetValue =>
    takeField .wire (decodeLengthDelimited w rest) fun bytes =>
      ((decodeDataSet w bytes).mapErr .dataSet).map fun dataSet => { s with value := some (.dataSet dataSet) }
  | _ =>
    scalarField .wire w metricValueFields tag rest (passField .wire w tag.wireType rest s) fun scalar =>
      { s with value := some (.ofScalar scalar) }

def metricReader : FieldReader MetricDecodeError MetricFields UInt8 := messageReader .wire (metricField w)

/-- What is made of the fields at the end. -/
def MetricFields.finish (s : MetricFields) : Outcome MetricDecodeError Metric :=
  if s.name.isNone ∧ s.metricAlias.isNone then .err .missingIdentifier
  else
    match s.dataType, s.value with
    | none, _ => .err .missingDataType
    | some _, none => .err .missingValue
    | some dataType, some value =>
      .ok ⟨s.name.getD "", s.metricAlias.map UInt64.toNat, s.timestamp, dataType, s.isNull, s.properties, value⟩

def decodeMetric (bytes : Bytes) : Outcome MetricDecodeError Metric := do
  let s ← readFields (metricReader w) bytes .empty
  s.finish

end Decode

/-- An alias has 64 bits, and a table agrees in its numbers. -/
structure Metric.WellFormed (metric : Metric) : Prop where
  metricAlias : ∀ metricAlias ∈ metric.metricAlias, metricAlias < 2 ^ 64
  dataSet : ∀ dataSet, metric.value = .dataSet dataSet → dataSet.WellFormed

/-! ### What bytes stand for -/

/-- The field of a value. -/
def MetricValue.WrittenAs (value : MetricValue) (field : Bytes) : Prop :=
  match value.kind with
  | .inl scalar => field = encodeScalar metricValueFields scalar
  | .inr table => ∃ bytes, table.WrittenAs bytes ∧ field = encodeBytesField fieldDatasetValue bytes

/-- The fields of a metric whose properties are written as some bytes and its value as some
field. -/
def Metric.fields (metric : Metric) (properties : Option Bytes) (value : Bytes) : List Bytes :=
  [encodeBytesField fieldName (asBytes metric.name)] ++
    (metric.metricAlias.map fun metricAlias => encodeVarintField fieldAlias (UInt64.ofNat metricAlias)).toList ++
    (metric.timestamp.map (encodeVarintField fieldTimestamp)).toList ++
    [encodeVarintField fieldDatatype metric.dataType.code.toUInt64] ++
    (if metric.isNull then [encodeVarintField fieldIsNull 1] else []) ++
    (properties.map (encodeBytesField fieldProperties)).toList ++ [value]

def Metric.WrittenAs (metric : Metric) (bytes : Bytes) : Prop :=
  ∃ properties value, Option.Rel PropertySet.WrittenAs metric.properties properties ∧ metric.value.WrittenAs value ∧
    Interspersed (IsUnknownField metricFieldNumbers) (metric.fields properties value) bytes

theorem MetricValue.writtenAs_encode (value : MetricValue) : value.WrittenAs (encodeMetricValue value) := by
  unfold MetricValue.WrittenAs encodeMetricValue
  split
  · rfl
  · next table _ => exact ⟨encodeDataSet table, table.writtenAs_encode, rfl⟩

theorem Metric.writtenAs_encode (metric : Metric) : metric.WrittenAs (encodeMetric metric) := by
  refine ⟨metric.properties.map encodePropertySet, encodeMetricValue metric.value, ?_,
    metric.value.writtenAs_encode, ?_⟩
  · cases metric.properties with
    | none => exact .none
    | some properties => exact .some properties.writtenAs_encode
  · have h : encodeMetric metric =
        (metric.fields (metric.properties.map encodePropertySet) (encodeMetricValue metric.value)).flatten := by
      rw [encodeMetric, Metric.fields]
      cases metric.metricAlias <;> cases metric.timestamp <;> cases metric.isNull <;> cases metric.properties <;> simp
    rw [h]
    exact .flatten _

/-! ### Reading back -/

section ReadBack

variable {w : ℕ} (hw : w ≤ 64) {bytes : Bytes}
include hw

/-- What the field of a value does. -/
theorem readsAs_metricValue {value : MetricValue} {field : Bytes} (h : value.WrittenAs field)
    (hd : ∀ dataSet, value = .dataSet dataSet → dataSet.WellFormed) (hlength : field.length < 2 ^ w) :
    ReadsAs (metricReader w) field fun s => .ok { s with value := some value } := by
  unfold MetricValue.WrittenAs at h
  split at h
  · next scalar hkind =>
    subst h
    have hapart : ∀ number ∈ metricValueFields.numbers, number ≠ fieldName ∧ number ≠ fieldAlias ∧
        number ≠ fieldTimestamp ∧ number ≠ fieldDatatype ∧ number ≠ fieldIsNull ∧ number ≠ fieldProperties ∧
        number ≠ fieldDatasetValue := by
      simp [ScalarFields.numbers, metricValueFields, fieldName, fieldAlias, fieldTimestamp, fieldDatatype, fieldIsNull,
        fieldProperties, fieldDatasetValue]
    have hscalar := readsAs_scalar (metricField w) hw hlength
      (fun s scalar => { s with value := some (.ofScalar scalar) }) fun s tag rest hnumber => by
        have hne := hapart tag.fieldNumber (hnumber ▸ scalar.fieldNumber_mem)
        unfold metricField
        split
        · next htag => exact absurd htag hne.1
        · next htag => exact absurd htag hne.2.1
        · next htag => exact absurd htag hne.2.2.1
        · next htag => exact absurd htag hne.2.2.2.1
        · next htag => exact absurd htag hne.2.2.2.2.1
        · next htag => exact absurd htag hne.2.2.2.2.2.1
        · next htag => exact absurd htag hne.2.2.2.2.2.2
        · rfl
    rw [MetricValue.eq_of_kind hkind]
    exact hscalar
  · next dataSet hkind =>
    obtain ⟨bytes, hwritten, rfl⟩ := h
    have hvalue := MetricValue.eq_of_kind hkind
    have hdecode := decodeDataSet_of_writtenAs hw (hd dataSet hvalue) hwritten
      ((length_lt_encodeBytesField fieldDatasetValue bytes).trans hlength)
    have htable := readsAs_bytes (metricField w) hw (by decide) hlength
      (fun s bytes => ((decodeDataSet w bytes).mapErr .dataSet).map
        fun dataSet => { s with value := some (.dataSet dataSet) }) fun s rest => rfl
    rw [hdecode] at htable
    rw [hvalue]
    exact htable

omit hw in
/-- What the fields of a metric do. -/
def Metric.parts (w : ℕ) (metric : Metric) (properties : Option Bytes) (value : Bytes) :
    List (Part MetricDecodeError MetricFields UInt8) :=
  [(encodeBytesField fieldName (asBytes metric.name), fun s => Outcome.ok { s with name := some metric.name })] ++
    (metric.metricAlias.map fun metricAlias => (encodeVarintField fieldAlias (UInt64.ofNat metricAlias),
      fun s : MetricFields => Outcome.ok { s with metricAlias := some (UInt64.ofNat metricAlias) })).toList ++
    (metric.timestamp.map fun timestamp => (encodeVarintField fieldTimestamp timestamp,
      fun s : MetricFields => Outcome.ok { s with timestamp := some timestamp })).toList ++
    [(encodeVarintField fieldDatatype metric.dataType.code.toUInt64,
      fun s => Outcome.ok { s with dataType := some metric.dataType })] ++
    (if metric.isNull then [(encodeVarintField fieldIsNull 1, fun s => Outcome.ok { s with isNull := true })]
      else []) ++
    (properties.map fun bytes => (encodeBytesField fieldProperties bytes, fun s : MetricFields =>
      ((decodePropertySet w bytes).mapErr MetricDecodeError.property).map
        fun properties => { s with properties := some properties })).toList ++
    [(value, fun s => Outcome.ok { s with value := some metric.value })]

omit hw in
theorem Metric.parts_fst (metric : Metric) (properties : Option Bytes) (value : Bytes) :
    (metric.parts w properties value).map Prod.fst = metric.fields properties value := by
  rw [Metric.parts, Metric.fields]
  cases metric.metricAlias <;> cases metric.timestamp <;> cases metric.isNull <;> cases properties <;> rfl

omit hw in
/-- Any other field is passed over. -/
theorem metricField_other {tag : Tag} (h : tag.fieldNumber ∉ metricFieldNumbers) (s : MetricFields) (rest : Bytes) :
    metricField w s tag rest = passField .wire w tag.wireType rest s := by
  rw [metricFieldNumbers, List.mem_append, not_or] at h
  obtain ⟨hown, hscalar⟩ := h
  simp only [List.mem_cons, List.not_mem_nil, or_false, not_or] at hown
  unfold metricField
  split
  · next htag => exact absurd htag hown.1
  · next htag => exact absurd htag hown.2.1
  · next htag => exact absurd htag hown.2.2.1
  · next htag => exact absurd htag hown.2.2.2.1
  · next htag => exact absurd htag hown.2.2.2.2.1
  · next htag => exact absurd htag hown.2.2.2.2.2.1
  · next htag => exact absurd htag hown.2.2.2.2.2.2
  · exact scalarField_other hscalar rest _ _

theorem decodeMetric_of_writtenAs {metric : Metric} (hmetric : metric.WellFormed) (h : metric.WrittenAs bytes)
    (hlength : bytes.length < 2 ^ w) : decodeMetric w bytes = .ok metric := by
  obtain ⟨properties, value, hproperties, hvalue, hbytes⟩ := h
  have hbounds := hbytes.length_le
  rw [← Metric.parts_fst] at hbytes
  have hread : readFields (metricReader w) bytes .empty = applyParts (metric.parts w properties value) .empty := by
    refine readFields_interspersed _ hbytes (fun passed hpassed hle => ?_) (fun part hpart hle => ?_) _
    · exact readsAs_unknown (metricField w) hw hpassed (by omega) fun s tag rest hunknown =>
        metricField_other hunknown s rest
    · simp only [Metric.parts, List.mem_append, List.mem_singleton, Option.mem_toList,
        Option.map_eq_some_iff, or_assoc] at hpart
      rcases hpart with rfl | ⟨metricAlias, -, rfl⟩ | ⟨timestamp, -, rfl⟩ | rfl | hnull | ⟨written, -, rfl⟩ | rfl
      · have hname := readsAs_bytes (metricField w) hw (by decide) (Nat.lt_of_le_of_lt hle hlength)
          (fun s bytes => .ok { s with name := some (fromUtf8Lossy bytes) }) fun s rest => rfl
        rwa [fromUtf8Lossy_asBytes] at hname
      · exact readsAs_varint (metricField w) fieldAlias (by decide) (UInt64.ofNat metricAlias)
          (fun s raw => .ok { s with metricAlias := some raw }) fun s rest => rfl
      · exact readsAs_varint (metricField w) fieldTimestamp (by decide) timestamp
          (fun s raw => .ok { s with timestamp := some raw }) fun s rest => rfl
      · have htype := readsAs_varint (metricField w) fieldDatatype (by decide) metric.dataType.code.toUInt64
          (fun s raw => (metricType raw.toUInt32).map fun dataType => { s with dataType := some dataType })
          fun s rest => rfl
        rwa [toUInt32_toUInt64, metricType, DataType.ofCode_code] at htype
      · split at hnull
        · obtain rfl := List.mem_singleton.mp hnull
          exact readsAs_varint (metricField w) fieldIsNull (by decide) 1
            (fun s raw => .ok { s with isNull := raw != 0 }) fun s rest => rfl
        · cases hnull
      · exact readsAs_bytes (metricField w) hw (by decide) (Nat.lt_of_le_of_lt hle hlength)
          (fun s bytes => ((decodePropertySet w bytes).mapErr .property).map
            fun properties => { s with properties := some properties }) fun s rest => rfl
      · exact readsAs_metricValue hw hvalue hmetric.dataSet (Nat.lt_of_le_of_lt hle hlength)
  have happly : applyParts (metric.parts w properties value) .empty =
      .ok ⟨some metric.name, metric.metricAlias.map UInt64.ofNat, metric.timestamp, some metric.dataType,
        metric.isNull, metric.properties, some metric.value⟩ := by
    obtain ⟨name, metricAlias, timestamp, dataType, isNull, set, value'⟩ := metric
    cases hproperties with
    | none => cases metricAlias <;> cases timestamp <;> cases isNull <;> simp [Metric.parts, MetricFields.empty]
    | @some set written hwritten =>
      have hle := hbounds (encodeBytesField fieldProperties written) (by simp [Metric.fields])
      have hlt := length_lt_encodeBytesField fieldProperties written
      have hset := decodePropertySet_of_writtenAs hw hwritten (by omega)
      cases metricAlias <;> cases timestamp <;> cases isNull <;> simp [Metric.parts, MetricFields.empty, hset]
  have halias : (metric.metricAlias.map UInt64.ofNat).map UInt64.toNat = metric.metricAlias := by
    cases hsome : metric.metricAlias with
    | none => rfl
    | some metricAlias =>
      rw [Option.map_some, Option.map_some, UInt64.toNat_ofNat_of_lt' (hmetric.metricAlias metricAlias hsome)]
  rw [decodeMetric, hread, happly, ok_bind, MetricFields.finish, if_neg (by simp)]
  dsimp only
  rw [Option.getD_some, halias]

end ReadBack

/-! ### Any bytes -/

section AnyBytes

variable {w : ℕ}

/-- A table among the fields read agrees in its numbers. -/
def MetricFields.Agrees (s : MetricFields) : Prop := ∀ dataSet, s.value = some (.dataSet dataSet) → dataSet.WellFormed

theorem MetricFields.Agrees.metricField {s s' : MetricFields} (h : s.Agrees) {tag : Tag} {rest : Bytes} {n : ℕ}
    (hturn : metricField w s tag rest = .ok (s', n)) : s'.Agrees := by
  unfold Sparkplug.metricField at hturn
  split at hturn
  · obtain ⟨bytes, hs'⟩ := takeField_eq_ok hturn
    obtain rfl := ok.inj hs'
    exact h
  · obtain ⟨raw, hs'⟩ := takeField_eq_ok hturn
    obtain rfl := ok.inj hs'
    exact h
  · obtain ⟨raw, hs'⟩ := takeField_eq_ok hturn
    obtain rfl := ok.inj hs'
    exact h
  · obtain ⟨raw, hs'⟩ := takeField_eq_ok hturn
    obtain ⟨dataType, -, rfl⟩ := map_eq_ok.mp hs'
    exact h
  · obtain ⟨raw, hs'⟩ := takeField_eq_ok hturn
    obtain rfl := ok.inj hs'
    exact h
  · obtain ⟨bytes, hs'⟩ := takeField_eq_ok hturn
    obtain ⟨properties, -, rfl⟩ := map_eq_ok.mp hs'
    exact h
  · obtain ⟨bytes, hs'⟩ := takeField_eq_ok hturn
    obtain ⟨table, htable, rfl⟩ := map_eq_ok.mp hs'
    rintro dataSet heq
    obtain rfl := MetricValue.dataSet.inj (Option.some.inj heq)
    exact wellFormed_of_decodeDataSet (mapErr_eq_ok.mp htable)
  · rcases scalarField_eq_ok hturn with ⟨value, rfl⟩ | hpass
    · rintro dataSet heq
      cases value <;> cases heq
    · obtain rfl := passField_eq_ok hpass
      exact h

/-- A metric that is read can be written. -/
theorem wellFormed_of_decodeMetric {bytes : Bytes} {metric : Metric} (h : decodeMetric w bytes = .ok metric) :
    metric.WellFormed := by
  obtain ⟨s, hread, h⟩ := bind_eq_ok.mp h
  have hempty : MetricFields.empty.Agrees := fun dataSet hnone => by cases hnone
  have hagrees : s.Agrees := by
    refine readFields_invariant (fun hs hturn => ?_) hempty hread
    obtain ⟨tag, rest, consumed, hfield⟩ := messageReader_eq_ok (metricField w) hturn
    exact hs.metricField hfield
  unfold MetricFields.finish at h
  split at h
  · cases h
  · split at h
    · cases h
    · cases h
    · next dataType value _ hvalue =>
      obtain rfl := ok.inj h
      constructor
      · intro metricAlias halias
        obtain ⟨raw, -, rfl⟩ := Option.map_eq_some_iff.mp halias
        exact raw.toNat_lt
      · rintro dataSet rfl
        exact hagrees dataSet hvalue

theorem within_metricReader (s : MetricFields) (bytes : Bytes) :
    Within bytes.length ((metricReader w).read s bytes) := by
  refine within_messageReader (metricField w) (fun s tag rest => ?_) s bytes
  unfold metricField
  split
  · exact within_bytes w rest (by simp)
  · exact within_varint rest (by simp)
  · exact within_varint rest (by simp)
  · refine within_varint rest fun raw => map_ne_panic.mpr ?_
    unfold metricType
    split <;> simp
  · exact within_varint rest (by simp)
  · exact within_bytes w rest fun bytes =>
      map_ne_panic.mpr (mapErr_ne_panic.mpr (decodePropertySet_ne_panic w bytes))
  · exact within_bytes w rest fun bytes => map_ne_panic.mpr (mapErr_ne_panic.mpr (decodeDataSet_ne_panic w bytes))
  · exact within_scalarField (within_passField w tag.wireType rest s) _

theorem decodeMetric_ne_panic (bytes : Bytes) : decodeMetric w bytes ≠ .panic := by
  refine bind_ne_panic (readFields_ne_panic (fun s cells => (within_metricReader s cells).ne_panic) _ _)
    fun s _ => ?_
  unfold MetricFields.finish
  split
  · simp
  · split <;> simp

end AnyBytes

end InfusedModbus.Sparkplug
