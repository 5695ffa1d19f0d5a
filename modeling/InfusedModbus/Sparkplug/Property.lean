import InfusedModbus.Sparkplug.Metric
import InfusedModbus.Sparkplug.Scalar

/-! Properties on the wire. A property is a type and a scalar. A property set has its keys and
its properties in separate fields, which the decoder pairs up by position. -/

namespace InfusedModbus.Sparkplug

open Foundation Foundation.Outcome

/-! ### Type codes -/

def PropertyDataType.code : PropertyDataType → UInt32
  | .unknown => 0
  | .int32 => 1
  | .int64 => 2
  | .uint32 => 3
  | .uint64 => 4
  | .float => 5
  | .double => 6
  | .boolean => 7
  | .string => 8
  | .dateTime => 9
  | .text => 10
  | .uuid => 11
  | .dataSet => 12
  | .bytes => 13
  | .file => 14
  | .propertySet => 15
  | .propertySetList => 16

def PropertyDataType.ofCode : UInt32 → Option PropertyDataType
  | 0 => some .unknown
  | 1 => some .int32
  | 2 => some .int64
  | 3 => some .uint32
  | 4 => some .uint64
  | 5 => some .float
  | 6 => some .double
  | 7 => some .boolean
  | 8 => some .string
  | 9 => some .dateTime
  | 10 => some .text
  | 11 => some .uuid
  | 12 => some .dataSet
  | 13 => some .bytes
  | 14 => some .file
  | 15 => some .propertySet
  | 16 => some .propertySetList
  | _ => none

theorem PropertyDataType.ofCode_code (dataType : PropertyDataType) :
    PropertyDataType.ofCode dataType.code = some dataType := by
  cases dataType <;> rfl

/-! ### One property -/

inductive PropertyDecodeError where
  | wire (error : WireError)
  | missingDataType
  | missingValue
  | unknownDataTypeCode (code : UInt32)
  | mismatchedKeyValueCounts (keys values : ℕ)
  deriving DecidableEq, Repr

@[match_pattern] def propertyFieldType : UInt32 := 1

def propertyValueFields : ScalarFields := ⟨3, 4, 5, 6, 7, 8, 9, by decide⟩

def PropertyValue.scalar : PropertyValue → Scalar
  | .int value => .int value
  | .long value => .long value
  | .float bits => .float bits
  | .double bits => .double bits
  | .boolean value => .boolean value
  | .string value => .string value
  | .bytes value => .bytes value

def PropertyValue.ofScalar : Scalar → PropertyValue
  | .int value => .int value
  | .long value => .long value
  | .float bits => .float bits
  | .double bits => .double bits
  | .boolean value => .boolean value
  | .string value => .string value
  | .bytes value => .bytes value

@[simp] theorem PropertyValue.ofScalar_scalar (value : PropertyValue) :
    PropertyValue.ofScalar value.scalar = value := by
  cases value <;> rfl

def encodeProperty (property : Property) : Bytes :=
  encodeVarintField propertyFieldType property.dataType.code.toUInt64 ++
    encodeScalar propertyValueFields property.value.scalar

/-- What has been read of a property. -/
structure PropertyFields where
  dataType : Option PropertyDataType
  value : Option PropertyValue

/-- `PropertyDataType::try_from` with the error of a property. -/
def propertyType (code : UInt32) : Outcome PropertyDecodeError PropertyDataType :=
  match PropertyDataType.ofCode code with
  | some dataType => .ok dataType
  | none => .err (.unknownDataTypeCode code)

section Decode

variable (w : ℕ)

/-- The arms of the decoder. -/
def propertyField (s : PropertyFields) (tag : Tag) (rest : Bytes) :
    Outcome PropertyDecodeError (PropertyFields × ℕ) :=
  match tag.fieldNumber with
  | propertyFieldType =>
    takeField .wire (decodeVarint rest) fun raw =>
      (propertyType raw.toUInt32).map fun dataType => { s with dataType := some dataType }
  | _ =>
    scalarField .wire w propertyValueFields tag rest (passField .wire w tag.wireType rest s) fun scalar =>
      { s with value := some (.ofScalar scalar) }

def propertyReader : FieldReader PropertyDecodeError PropertyFields UInt8 := messageReader .wire (propertyField w)

def decodeProperty (bytes : Bytes) : Outcome PropertyDecodeError Property := do
  let s ← readFields (propertyReader w) bytes ⟨none, none⟩
  match s.dataType, s.value with
  | none, _ => .err .missingDataType
  | some _, none => .err .missingValue
  | some dataType, some value => .ok ⟨dataType, value⟩

/-! ### Property sets -/

@[match_pattern] def propertySetFieldKeys : UInt32 := 1
@[match_pattern] def propertySetFieldValues : UInt32 := 2

def encodePropertySet (propertySet : PropertySet) : Bytes :=
  propertySet.entries.flatMap fun entry =>
    encodeBytesField propertySetFieldKeys (asBytes entry.1) ++
      encodeBytesField propertySetFieldValues (encodeProperty entry.2)

/-- The keys and the properties read so far. -/
structure PropertySetFields where
  keys : List String
  values : List Property

def PropertySetFields.pushKey (s : PropertySetFields) (key : String) : PropertySetFields :=
  { s with keys := s.keys ++ [key] }

def PropertySetFields.pushValue (s : PropertySetFields) (value : Property) : PropertySetFields :=
  { s with values := s.values ++ [value] }

def propertySetField (s : PropertySetFields) (tag : Tag) (rest : Bytes) :
    Outcome PropertyDecodeError (PropertySetFields × ℕ) :=
  match tag.fieldNumber with
  | propertySetFieldKeys =>
    takeField .wire (decodeLengthDelimited w rest) fun bytes => .ok (s.pushKey (fromUtf8Lossy bytes))
  | propertySetFieldValues =>
    takeField .wire (decodeLengthDelimited w rest) fun bytes => (decodeProperty w bytes).map s.pushValue
  | _ => passField .wire w tag.wireType rest s

def propertySetReader : FieldReader PropertyDecodeError PropertySetFields UInt8 :=
  messageReader .wire (propertySetField w)

def decodePropertySet (bytes : Bytes) : Outcome PropertyDecodeError PropertySet := do
  let s ← readFields (propertySetReader w) bytes ⟨[], []⟩
  if s.keys.length ≠ s.values.length then .err (.mismatchedKeyValueCounts s.keys.length s.values.length)
  else .ok ⟨s.keys.zip s.values⟩

end Decode

/-! ### What bytes stand for -/

def Property.WrittenAs (property : Property) (bytes : Bytes) : Prop :=
  Interspersed (IsUnknownField (propertyFieldType :: propertyValueFields.numbers))
    [encodeVarintField propertyFieldType property.dataType.code.toUInt64,
      encodeScalar propertyValueFields property.value.scalar] bytes

/-- The two fields of a key and of a property that is written as some bytes. -/
def entryFields (entry : String × Bytes) : List Bytes :=
  [encodeBytesField propertySetFieldKeys (asBytes entry.1), encodeBytesField propertySetFieldValues entry.2]

def PropertySet.WrittenAs (propertySet : PropertySet) (bytes : Bytes) : Prop :=
  ∃ written : List (String × Bytes),
    List.Forall₂ (fun entry field => entry.1 = field.1 ∧ Property.WrittenAs entry.2 field.2) propertySet.entries
      written ∧
    Interspersed (IsUnknownField [propertySetFieldKeys, propertySetFieldValues]) (written.flatMap entryFields) bytes

theorem Property.writtenAs_encode (property : Property) : property.WrittenAs (encodeProperty property) := by
  have h : property.WrittenAs [encodeVarintField propertyFieldType property.dataType.code.toUInt64,
      encodeScalar propertyValueFields property.value.scalar].flatten := .flatten _
  rwa [List.flatten_cons, List.flatten_singleton] at h

theorem PropertySet.writtenAs_encode (propertySet : PropertySet) :
    propertySet.WrittenAs (encodePropertySet propertySet) := by
  refine ⟨propertySet.entries.map fun entry => (entry.1, encodeProperty entry.2), ?_, ?_⟩
  · exact List.forall₂_map_right_iff.mpr (List.forall₂_same.mpr fun entry _ => ⟨rfl, entry.2.writtenAs_encode⟩)
  · have h : encodePropertySet propertySet =
        ((propertySet.entries.map fun entry => (entry.1, encodeProperty entry.2)).flatMap entryFields).flatten := by
      rw [encodePropertySet]
      induction propertySet.entries with
      | nil => rfl
      | cons entry entries ih => rw [List.flatMap_cons, ih]; simp [entryFields]
    rw [h]
    exact .flatten _

/-! ### Reading back -/

section ReadBack

variable {w : ℕ} (hw : w ≤ 64) {bytes : Bytes}
include hw

theorem decodeProperty_of_writtenAs {property : Property} (h : property.WrittenAs bytes)
    (hlength : bytes.length < 2 ^ w) : decodeProperty w bytes = .ok property := by
  let typePart : Part PropertyDecodeError PropertyFields UInt8 :=
    (encodeVarintField propertyFieldType property.dataType.code.toUInt64,
      fun s => .ok { s with dataType := some property.dataType })
  let valuePart : Part PropertyDecodeError PropertyFields UInt8 :=
    (encodeScalar propertyValueFields property.value.scalar, fun s => .ok { s with value := some property.value })
  have hread : readFields (propertyReader w) bytes ⟨none, none⟩ = applyParts [typePart, valuePart] ⟨none, none⟩ := by
    refine readFields_interspersed [typePart, valuePart] h (fun passed hpassed hle => ?_) (fun part hpart hle => ?_) _
    · refine readsAs_unknown (propertyField w) hw hpassed (by omega) fun s tag rest hunknown => ?_
      rw [List.mem_cons, not_or] at hunknown
      unfold propertyField
      split
      · next hnumber => exact absurd hnumber hunknown.1
      · exact scalarField_other hunknown.2 rest _ _
    · rcases List.mem_pair.mp hpart with rfl | rfl
      · have htype := readsAs_varint (propertyField w) propertyFieldType (by decide) property.dataType.code.toUInt64
          (fun s raw => (propertyType raw.toUInt32).map fun dataType => { s with dataType := some dataType })
          fun s rest => rfl
        rwa [toUInt32_toUInt64, propertyType, PropertyDataType.ofCode_code] at htype
      · have hapart : propertyFieldType ∉ propertyValueFields.numbers := by decide
        have hscalar := readsAs_scalar (propertyField w) hw (Nat.lt_of_le_of_lt hle hlength)
          (fun s scalar => { s with value := some (.ofScalar scalar) }) fun s tag rest hnumber => by
            unfold propertyField
            split
            · next htag =>
              have hmem : _ ∈ propertyValueFields.numbers := property.value.scalar.fieldNumber_mem
              rw [← hnumber, htag] at hmem
              exact absurd hmem hapart
            · rfl
        rwa [PropertyValue.ofScalar_scalar] at hscalar
  rw [decodeProperty, hread]
  rfl

/-- What the two fields of a key and a property do. -/
def entryParts (w : ℕ) (field : String × Bytes) : List (Part PropertyDecodeError PropertySetFields UInt8) :=
  [(encodeBytesField propertySetFieldKeys (asBytes field.1), fun s => .ok (s.pushKey field.1)),
    (encodeBytesField propertySetFieldValues field.2, fun s => (decodeProperty w field.2).map s.pushValue)]

/-- Keys and properties grow together. -/
theorem applyParts_entryParts {entries : List (String × Property)} {fields : List (String × Bytes)}
    (h : List.Forall₂ (fun entry field => entry.1 = field.1 ∧ Property.WrittenAs entry.2 field.2) entries fields)
    (hlength : ∀ field ∈ fields, field.2.length < 2 ^ w) (keys : List String) (values : List Property) :
    applyParts (fields.flatMap (entryParts w)) ⟨keys, values⟩ =
      .ok ⟨keys ++ entries.map Prod.fst, values ++ entries.map Prod.snd⟩ := by
  induction h generalizing keys values with
  | nil => simp
  | @cons entry field entries fields hhead _ ih =>
    have hvalue := decodeProperty_of_writtenAs hw hhead.2 (hlength field List.mem_cons_self)
    have hrest := ih (fun field hfield => hlength field (List.mem_cons_of_mem _ hfield)) (keys ++ [field.1])
      (values ++ [entry.2])
    rw [List.flatMap_cons, applyParts_append]
    simp only [entryParts, applyParts_cons, applyParts_nil, hvalue, ok_bind, map_ok, PropertySetFields.pushKey,
      PropertySetFields.pushValue]
    rw [hrest, List.map_cons, List.map_cons, hhead.1]
    simp

theorem decodePropertySet_of_writtenAs {propertySet : PropertySet} (h : propertySet.WrittenAs bytes)
    (hlength : bytes.length < 2 ^ w) : decodePropertySet w bytes = .ok propertySet := by
  obtain ⟨written, hwritten, hbytes⟩ := h
  have hfits : ∀ field ∈ written, field.2.length < 2 ^ w := by
    intro field hfield
    have hle := hbytes.length_le (encodeBytesField propertySetFieldValues field.2)
      (List.mem_flatMap.mpr ⟨field, hfield, by simp [entryFields]⟩)
    have hlt := length_lt_encodeBytesField propertySetFieldValues field.2
    omega
  have hpieces : (written.flatMap (entryParts w)).map Prod.fst = written.flatMap entryFields := List.map_flatMap
  rw [← hpieces] at hbytes
  have hread : readFields (propertySetReader w) bytes ⟨[], []⟩ = applyParts (written.flatMap (entryParts w)) ⟨[], []⟩ := by
    refine readFields_interspersed _ hbytes (fun passed hpassed hle => ?_) (fun part hpart hle => ?_) _
    · refine readsAs_unknown (propertySetField w) hw hpassed (by omega) fun s tag rest hunknown => ?_
      simp only [List.mem_cons, List.not_mem_nil, or_false, not_or] at hunknown
      unfold propertySetField
      split
      · next hnumber => exact absurd hnumber hunknown.1
      · next hnumber => exact absurd hnumber hunknown.2
      · rfl
    · obtain ⟨field, -, hpart⟩ := List.mem_flatMap.mp hpart
      rcases List.mem_pair.mp hpart with rfl | rfl
      · have hkey := readsAs_bytes (propertySetField w) hw (by decide) (Nat.lt_of_le_of_lt hle hlength)
          (fun s bytes => .ok (s.pushKey (fromUtf8Lossy bytes))) fun s rest => rfl
        rwa [fromUtf8Lossy_asBytes] at hkey
      · exact readsAs_bytes (propertySetField w) hw (by decide) (Nat.lt_of_le_of_lt hle hlength)
          (fun s bytes => (decodeProperty w bytes).map s.pushValue) fun s rest => rfl
  rw [decodePropertySet, hread, applyParts_entryParts hw hwritten hfits, ok_bind, if_neg (by simp)]
  have hzip := List.zip_unzip propertySet.entries
  rw [List.unzip_eq_map] at hzip
  simp only [List.nil_append, hzip]

end ReadBack

/-! ### Any bytes -/

section AnyBytes

variable (w : ℕ)

theorem within_propertyReader (s : PropertyFields) (bytes : Bytes) :
    Within bytes.length ((propertyReader w).read s bytes) := by
  refine within_messageReader (propertyField w) (fun s tag rest => ?_) s bytes
  unfold propertyField
  split
  · refine within_varint rest fun raw => map_ne_panic.mpr ?_
    unfold propertyType
    split <;> simp
  · exact within_scalarField (within_passField w tag.wireType rest s) _

theorem decodeProperty_ne_panic (bytes : Bytes) : decodeProperty w bytes ≠ .panic := by
  refine bind_ne_panic (readFields_ne_panic (fun s cells => (within_propertyReader w s cells).ne_panic) _ _)
    fun s _ => ?_
  split <;> simp

theorem within_propertySetReader (s : PropertySetFields) (bytes : Bytes) :
    Within bytes.length ((propertySetReader w).read s bytes) := by
  refine within_messageReader (propertySetField w) (fun s tag rest => ?_) s bytes
  unfold propertySetField
  split
  · exact within_bytes w rest (by simp)
  · exact within_bytes w rest fun value => map_ne_panic.mpr (decodeProperty_ne_panic w value)
  · exact within_passField w tag.wireType rest s

theorem decodePropertySet_ne_panic (bytes : Bytes) : decodePropertySet w bytes ≠ .panic := by
  refine bind_ne_panic (readFields_ne_panic (fun s cells => (within_propertySetReader w s cells).ne_panic) _ _)
    fun s _ => ?_
  split <;> simp

end AnyBytes

end InfusedModbus.Sparkplug
