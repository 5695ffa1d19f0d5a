import InfusedModbus.Sparkplug.Metric
import InfusedModbus.Sparkplug.Scalar

/-! Tables on the wire. A cell is a message of one scalar, a row a message of cells, a table a
message of columns, types and rows. The decoder collects the three kinds of fields apart from
each other and compares their numbers at the end. -/

namespace InfusedModbus.Sparkplug

open Foundation Foundation.Outcome

/-! ### Type codes -/

def DataType.code : DataType → UInt32
  | .unknown => 0
  | .int8 => 1
  | .int16 => 2
  | .int32 => 3
  | .int64 => 4
  | .uint8 => 5
  | .uint16 => 6
  | .uint32 => 7
  | .uint64 => 8
  | .float => 9
  | .double => 10
  | .boolean => 11
  | .string => 12
  | .dateTime => 13
  | .text => 14
  | .uuid => 15
  | .dataSet => 16
  | .bytes => 17
  | .file => 18
  | .template => 19
  | .propertySet => 20
  | .propertySetList => 21
  | .int8Array => 22
  | .int16Array => 23
  | .int32Array => 24
  | .int64Array => 25
  | .uint8Array => 26
  | .uint16Array => 27
  | .uint32Array => 28
  | .uint64Array => 29
  | .floatArray => 30
  | .doubleArray => 31
  | .booleanArray => 32
  | .stringArray => 33
  | .dateTimeArray => 34

def DataType.ofCode : UInt32 → Option DataType
  | 0 => some .unknown
  | 1 => some .int8
  | 2 => some .int16
  | 3 => some .int32
  | 4 => some .int64
  | 5 => some .uint8
  | 6 => some .uint16
  | 7 => some .uint32
  | 8 => some .uint64
  | 9 => some .float
  | 10 => some .double
  | 11 => some .boolean
  | 12 => some .string
  | 13 => some .dateTime
  | 14 => some .text
  | 15 => some .uuid
  | 16 => some .dataSet
  | 17 => some .bytes
  | 18 => some .file
  | 19 => some .template
  | 20 => some .propertySet
  | 21 => some .propertySetList
  | 22 => some .int8Array
  | 23 => some .int16Array
  | 24 => some .int32Array
  | 25 => some .int64Array
  | 26 => some .uint8Array
  | 27 => some .uint16Array
  | 28 => some .uint32Array
  | 29 => some .uint64Array
  | 30 => some .floatArray
  | 31 => some .doubleArray
  | 32 => some .booleanArray
  | 33 => some .stringArray
  | 34 => some .dateTimeArray
  | _ => none

theorem DataType.ofCode_code (dataType : DataType) : DataType.ofCode dataType.code = some dataType := by
  cases dataType <;> rfl

/-! ### Cells -/

inductive DataSetDecodeError where
  | wire (error : WireError)
  | missingValue
  | unknownDataTypeCode (code : UInt32)
  | mismatchedColumnsAndTypes (columns types : ℕ)
  | rowLengthMismatch (rowIndex expected actual : ℕ)
  deriving DecidableEq, Repr

def dataSetValueFields : ScalarFields := ⟨1, 2, 3, 4, 5, 6, 7, by decide⟩

def DataSetValue.scalar : DataSetValue → Scalar
  | .int value => .int value
  | .long value => .long value
  | .float bits => .float bits
  | .double bits => .double bits
  | .boolean value => .boolean value
  | .string value => .string value
  | .bytes value => .bytes value

def DataSetValue.ofScalar : Scalar → DataSetValue
  | .int value => .int value
  | .long value => .long value
  | .float bits => .float bits
  | .double bits => .double bits
  | .boolean value => .boolean value
  | .string value => .string value
  | .bytes value => .bytes value

@[simp] theorem DataSetValue.ofScalar_scalar (value : DataSetValue) : DataSetValue.ofScalar value.scalar = value := by
  cases value <;> rfl

def encodeDataSetValue (value : DataSetValue) : Bytes := encodeScalar dataSetValueFields value.scalar

section Decode

variable (w : ℕ)

/-- The arms of the decoder. -/
def dataSetValueField (value : Option DataSetValue) (tag : Tag) (rest : Bytes) :
    Outcome DataSetDecodeError (Option DataSetValue × ℕ) :=
  scalarField .wire w dataSetValueFields tag rest (passField .wire w tag.wireType rest value) fun scalar =>
    some (.ofScalar scalar)

def dataSetValueReader : FieldReader DataSetDecodeError (Option DataSetValue) UInt8 :=
  messageReader .wire (dataSetValueField w)

def decodeDataSetValue (bytes : Bytes) : Outcome DataSetDecodeError DataSetValue := do
  let value ← readFields (dataSetValueReader w) bytes none
  match value with
  | some value => .ok value
  | none => .err .missingValue

/-! ### Rows -/

@[match_pattern] def rowFieldElements : UInt32 := 1

def encodeRow (row : Row) : Bytes :=
  row.elements.flatMap fun element => encodeBytesField rowFieldElements (encodeDataSetValue element)

def Row.push (row : Row) (element : DataSetValue) : Row := ⟨row.elements ++ [element]⟩

def rowField (row : Row) (tag : Tag) (rest : Bytes) : Outcome DataSetDecodeError (Row × ℕ) :=
  match tag.fieldNumber with
  | rowFieldElements =>
    takeField .wire (decodeLengthDelimited w rest) fun bytes => (decodeDataSetValue w bytes).map row.push
  | _ => passField .wire w tag.wireType rest row

def rowReader : FieldReader DataSetDecodeError Row UInt8 := messageReader .wire (rowField w)

def decodeRow (bytes : Bytes) : Outcome DataSetDecodeError Row := readFields (rowReader w) bytes ⟨[]⟩

/-! ### Tables -/

@[match_pattern] def dataSetFieldColumns : UInt32 := 2
@[match_pattern] def dataSetFieldTypes : UInt32 := 3
@[match_pattern] def dataSetFieldRows : UInt32 := 4

def encodeDataSet (dataSet : DataSet) : Bytes :=
  (dataSet.columns.flatMap fun column => encodeBytesField dataSetFieldColumns (asBytes column)) ++
    (dataSet.types.flatMap fun dataType => encodeVarintField dataSetFieldTypes dataType.code.toUInt64) ++
    dataSet.rows.flatMap fun row => encodeBytesField dataSetFieldRows (encodeRow row)

/-- `DataType::try_from` with the error of a table. -/
def dataSetType (code : UInt32) : Outcome DataSetDecodeError DataType :=
  match DataType.ofCode code with
  | some dataType => .ok dataType
  | none => .err (.unknownDataTypeCode code)

def DataSet.pushColumn (d : DataSet) (column : String) : DataSet := { d with columns := d.columns ++ [column] }

def DataSet.pushType (d : DataSet) (dataType : DataType) : DataSet := { d with types := d.types ++ [dataType] }

def DataSet.pushRow (d : DataSet) (row : Row) : DataSet := { d with rows := d.rows ++ [row] }

def dataSetField (d : DataSet) (tag : Tag) (rest : Bytes) : Outcome DataSetDecodeError (DataSet × ℕ) :=
  match tag.fieldNumber with
  | dataSetFieldColumns =>
    takeField .wire (decodeLengthDelimited w rest) fun bytes => .ok (d.pushColumn (fromUtf8Lossy bytes))
  | dataSetFieldTypes => takeField .wire (decodeVarint rest) fun raw => (dataSetType raw.toUInt32).map d.pushType
  | dataSetFieldRows => takeField .wire (decodeLengthDelimited w rest) fun bytes => (decodeRow w bytes).map d.pushRow
  | _ => passField .wire w tag.wireType rest d

def dataSetReader : FieldReader DataSetDecodeError DataSet UInt8 := messageReader .wire (dataSetField w)

/-- The loop over the rows. -/
def checkRows (columns : ℕ) : ℕ → List Row → Outcome DataSetDecodeError Unit
  | _, [] => .ok ()
  | rowIndex, row :: rows =>
    if row.elements.length ≠ columns then .err (.rowLengthMismatch rowIndex columns row.elements.length)
    else checkRows columns (rowIndex + 1) rows

def decodeDataSet (bytes : Bytes) : Outcome DataSetDecodeError DataSet := do
  let d ← readFields (dataSetReader w) bytes ⟨[], [], []⟩
  if d.columns.length ≠ d.types.length then .err (.mismatchedColumnsAndTypes d.columns.length d.types.length)
  else do
    checkRows d.columns.length 0 d.rows
    .ok d

end Decode

/-- As many types as columns, and in every row as many cells. -/
structure DataSet.WellFormed (d : DataSet) : Prop where
  types : d.types.length = d.columns.length
  rows : ∀ row ∈ d.rows, row.elements.length = d.columns.length

theorem checkRows_eq_ok_iff {columns : ℕ} (rowIndex : ℕ) {rows : List Row} :
    checkRows columns rowIndex rows = .ok () ↔ ∀ row ∈ rows, row.elements.length = columns := by
  induction rows generalizing rowIndex with
  | nil => simp [checkRows]
  | cons row rows ih =>
    rw [checkRows, List.forall_mem_cons]
    by_cases hlength : row.elements.length = columns
    · rw [if_neg (not_not_intro hlength), ih]
      exact ⟨fun h => ⟨hlength, h⟩, And.right⟩
    · rw [if_pos hlength]
      exact ⟨fun h => (by cases h), fun h => absurd h.1 hlength⟩

theorem checkRows_ne_panic (columns rowIndex : ℕ) (rows : List Row) : checkRows columns rowIndex rows ≠ .panic := by
  induction rows generalizing rowIndex with
  | nil => simp [checkRows]
  | cons row rows ih =>
    rw [checkRows]
    split
    · simp
    · exact ih _

/-! ### What bytes stand for

The encoding of a value, with unknown fields anywhere between its fields and anywhere within
the messages in it. -/

def DataSetValue.WrittenAs (value : DataSetValue) (bytes : Bytes) : Prop :=
  Interspersed (IsUnknownField dataSetValueFields.numbers) [encodeDataSetValue value] bytes

def Row.WrittenAs (row : Row) (bytes : Bytes) : Prop :=
  ∃ elements : List Bytes, List.Forall₂ DataSetValue.WrittenAs row.elements elements ∧
    Interspersed (IsUnknownField [rowFieldElements]) (elements.map (encodeBytesField rowFieldElements)) bytes

def DataSet.WrittenAs (d : DataSet) (bytes : Bytes) : Prop :=
  ∃ rows : List Bytes, List.Forall₂ Row.WrittenAs d.rows rows ∧
    Interspersed (IsUnknownField [dataSetFieldColumns, dataSetFieldTypes, dataSetFieldRows])
      ((d.columns.map fun column => encodeBytesField dataSetFieldColumns (asBytes column)) ++
        (d.types.map fun dataType => encodeVarintField dataSetFieldTypes dataType.code.toUInt64) ++
        rows.map (encodeBytesField dataSetFieldRows)) bytes

theorem DataSetValue.writtenAs_encode (value : DataSetValue) : value.WrittenAs (encodeDataSetValue value) := by
  have h : value.WrittenAs [encodeDataSetValue value].flatten := .flatten _
  rwa [List.flatten_singleton] at h

theorem Row.writtenAs_encode (row : Row) : row.WrittenAs (encodeRow row) := by
  refine ⟨row.elements.map encodeDataSetValue, ?_, ?_⟩
  · exact List.forall₂_map_right_iff.mpr (List.forall₂_same.mpr fun value _ => value.writtenAs_encode)
  · rw [encodeRow, List.flatMap_def, List.map_map]
    exact .flatten _

theorem DataSet.writtenAs_encode (d : DataSet) : d.WrittenAs (encodeDataSet d) := by
  refine ⟨d.rows.map encodeRow, ?_, ?_⟩
  · exact List.forall₂_map_right_iff.mpr (List.forall₂_same.mpr fun row _ => row.writtenAs_encode)
  · rw [encodeDataSet, List.flatMap_def, List.flatMap_def, List.flatMap_def, List.map_map, ← List.flatten_append,
      ← List.flatten_append]
    exact .flatten _

/-! ### Reading back -/

section ReadBack

variable {w : ℕ} (hw : w ≤ 64) {bytes : Bytes}
include hw

theorem decodeDataSetValue_of_writtenAs {value : DataSetValue} (h : value.WrittenAs bytes)
    (hlength : bytes.length < 2 ^ w) : decodeDataSetValue w bytes = .ok value := by
  have hread : readFields (dataSetValueReader w) bytes none =
      applyParts [(encodeDataSetValue value, fun _ => .ok (some value))] none := by
    refine readFields_interspersed [(encodeDataSetValue value, fun _ => .ok (some value))] h
      (fun passed hpassed hle => ?_) (fun part hpart hle => ?_) none
    · exact readsAs_unknown (dataSetValueField w) hw hpassed (by omega) fun s tag rest hunknown =>
        scalarField_other hunknown rest _ _
    · obtain rfl := List.mem_singleton.mp hpart
      have hscalar := readsAs_scalar (dataSetValueField w) hw (Nat.lt_of_le_of_lt hle hlength)
        (fun _ scalar => some (.ofScalar scalar)) fun s tag rest _ => rfl
      rwa [DataSetValue.ofScalar_scalar] at hscalar
  rw [decodeDataSetValue, hread]
  rfl

theorem decodeRow_of_writtenAs {row : Row} (h : row.WrittenAs bytes) (hlength : bytes.length < 2 ^ w) :
    decodeRow w bytes = .ok row := by
  obtain ⟨elements, hwritten, hbytes⟩ := h
  have hdecode : elements.mapM' (decodeDataSetValue w) = .ok row.elements := by
    refine mapM_of_forall₂ hwritten fun value element helement hvalue => ?_
    have hle := hbytes.length_le _ (List.mem_map_of_mem helement)
    have hlt := length_lt_encodeBytesField rowFieldElements element
    exact decodeDataSetValue_of_writtenAs hw hvalue (by omega)
  let parts : List (Part DataSetDecodeError Row UInt8) := elements.map fun element =>
    (encodeBytesField rowFieldElements element, fun s => (decodeDataSetValue w element).map s.push)
  have hpieces : parts.map Prod.fst = elements.map (encodeBytesField rowFieldElements) := List.map_map
  rw [← hpieces] at hbytes
  have hread : readFields (rowReader w) bytes ⟨[]⟩ = applyParts parts ⟨[]⟩ := by
    refine readFields_interspersed parts hbytes (fun passed hpassed hle => ?_) (fun part hpart hle => ?_) _
    · refine readsAs_unknown (rowField w) hw hpassed (by omega) fun s tag rest hunknown => ?_
      unfold rowField
      split
      · next hnumber => exact absurd (hnumber ▸ List.mem_singleton_self _) hunknown
      · rfl
    · obtain ⟨element, -, rfl⟩ := List.mem_map.mp hpart
      exact readsAs_bytes (rowField w) hw (by decide) (Nat.lt_of_le_of_lt hle hlength)
        (fun s bytes => (decodeDataSetValue w bytes).map s.push) fun s rest => rfl
  have hpush : row.elements.foldl Row.push (Row.mk []) = ⟨[] ++ row.elements⟩ := foldl_push Row.mk (fun _ _ => rfl) [] _
  rw [decodeRow, hread, applyParts_push, hdecode, map_ok, hpush, List.nil_append]

/-- The decoder collects columns, types and rows. -/
theorem readFields_of_writtenAs {d : DataSet} (h : d.WrittenAs bytes) (hlength : bytes.length < 2 ^ w) :
    readFields (dataSetReader w) bytes ⟨[], [], []⟩ = .ok d := by
  obtain ⟨rows, hwritten, hbytes⟩ := h
  have hdecode : rows.mapM' (decodeRow w) = .ok d.rows := by
    refine mapM_of_forall₂ hwritten fun row written hrow hrowWritten => ?_
    have hle := hbytes.length_le _ (List.mem_append_right _ (List.mem_map_of_mem hrow))
    have hlt := length_lt_encodeBytesField dataSetFieldRows written
    exact decodeRow_of_writtenAs hw hrowWritten (by omega)
  let columnParts : List (Part DataSetDecodeError DataSet UInt8) := d.columns.map fun column =>
    (encodeBytesField dataSetFieldColumns (asBytes column), fun s => .ok (s.pushColumn column))
  let typeParts : List (Part DataSetDecodeError DataSet UInt8) := d.types.map fun dataType =>
    (encodeVarintField dataSetFieldTypes dataType.code.toUInt64, fun s => .ok (s.pushType dataType))
  let rowParts : List (Part DataSetDecodeError DataSet UInt8) := rows.map fun row =>
    (encodeBytesField dataSetFieldRows row, fun s => (decodeRow w row).map s.pushRow)
  have hpieces : (columnParts ++ typeParts ++ rowParts).map Prod.fst =
      (d.columns.map fun column => encodeBytesField dataSetFieldColumns (asBytes column)) ++
        (d.types.map fun dataType => encodeVarintField dataSetFieldTypes dataType.code.toUInt64) ++
        rows.map (encodeBytesField dataSetFieldRows) := by
    simp only [columnParts, typeParts, rowParts, List.map_append, List.map_map, Function.comp_def]
  rw [← hpieces] at hbytes
  have hread : readFields (dataSetReader w) bytes ⟨[], [], []⟩ =
      applyParts (columnParts ++ typeParts ++ rowParts) ⟨[], [], []⟩ := by
    refine readFields_interspersed _ hbytes (fun passed hpassed hle => ?_) (fun part hpart hle => ?_) _
    · refine readsAs_unknown (dataSetField w) hw hpassed (by omega) fun s tag rest hunknown => ?_
      simp only [List.mem_cons, List.not_mem_nil, or_false, not_or] at hunknown
      unfold dataSetField
      split
      · next hnumber => exact absurd hnumber hunknown.1
      · next hnumber => exact absurd hnumber hunknown.2.1
      · next hnumber => exact absurd hnumber hunknown.2.2
      · rfl
    · rcases List.mem_append.mp hpart with hpart | hpart
      · rcases List.mem_append.mp hpart with hpart | hpart
        · obtain ⟨column, -, rfl⟩ := List.mem_map.mp hpart
          have hcolumn := readsAs_bytes (dataSetField w) hw (by decide) (Nat.lt_of_le_of_lt hle hlength)
            (fun s bytes => .ok (s.pushColumn (fromUtf8Lossy bytes))) fun s rest => rfl
          rwa [fromUtf8Lossy_asBytes] at hcolumn
        · obtain ⟨dataType, -, rfl⟩ := List.mem_map.mp hpart
          have htype := readsAs_varint (dataSetField w) dataSetFieldTypes (by decide) dataType.code.toUInt64
            (fun s raw => (dataSetType raw.toUInt32).map s.pushType) fun s rest => rfl
          rwa [toUInt32_toUInt64, dataSetType, DataType.ofCode_code] at htype
      · obtain ⟨row, -, rfl⟩ := List.mem_map.mp hpart
        exact readsAs_bytes (dataSetField w) hw (by decide) (Nat.lt_of_le_of_lt hle hlength)
          (fun s bytes => (decodeRow w bytes).map s.pushRow) fun s rest => rfl
  have hcolumns : d.columns.foldl DataSet.pushColumn (DataSet.mk [] [] []) = ⟨[] ++ d.columns, [], []⟩ :=
    foldl_push (fun columns => DataSet.mk columns [] []) (fun _ _ => rfl) [] _
  have htypes : d.types.foldl DataSet.pushType (DataSet.mk d.columns [] []) = ⟨d.columns, [] ++ d.types, []⟩ :=
    foldl_push (fun types => DataSet.mk d.columns types []) (fun _ _ => rfl) [] _
  have hrows : d.rows.foldl DataSet.pushRow (DataSet.mk d.columns d.types []) = ⟨d.columns, d.types, [] ++ d.rows⟩ :=
    foldl_push (fun rows => DataSet.mk d.columns d.types rows) (fun _ _ => rfl) [] _
  rw [hread, applyParts_append, applyParts_append, applyParts_pushAll, hcolumns, List.nil_append, ok_bind,
    applyParts_pushAll, htypes, List.nil_append, ok_bind, applyParts_push, hdecode, map_ok, hrows, List.nil_append]

/-- A table that agrees in its numbers is read back. -/
theorem decodeDataSet_of_writtenAs {d : DataSet} (hd : d.WellFormed) (h : d.WrittenAs bytes)
    (hlength : bytes.length < 2 ^ w) : decodeDataSet w bytes = .ok d := by
  rw [decodeDataSet, readFields_of_writtenAs hw h hlength, ok_bind, if_neg (not_not_intro hd.types.symm),
    (checkRows_eq_ok_iff 0).mpr hd.rows, ok_bind]

end ReadBack

/-! ### Any bytes -/

section AnyBytes

variable (w : ℕ)

/-- A table that is read agrees in its numbers. -/
theorem wellFormed_of_decodeDataSet {w : ℕ} {bytes : Bytes} {d : DataSet} (h : decodeDataSet w bytes = .ok d) :
    d.WellFormed := by
  obtain ⟨read, -, h⟩ := bind_eq_ok.mp h
  split at h
  · cases h
  · next hequal =>
    obtain ⟨_, hrows, h⟩ := bind_eq_ok.mp h
    obtain rfl := ok.inj h
    exact ⟨(not_not.mp hequal).symm, (checkRows_eq_ok_iff 0).mp hrows⟩

theorem within_dataSetValueReader (s : Option DataSetValue) (bytes : Bytes) :
    Within bytes.length ((dataSetValueReader w).read s bytes) :=
  within_messageReader (dataSetValueField w)
    (fun s tag rest => within_scalarField (within_passField w tag.wireType rest s) _) s bytes

theorem decodeDataSetValue_ne_panic (bytes : Bytes) : decodeDataSetValue w bytes ≠ .panic := by
  refine bind_ne_panic (readFields_ne_panic (fun s cells => (within_dataSetValueReader w s cells).ne_panic) _ _)
    fun value _ => ?_
  cases value <;> simp

theorem within_rowReader (s : Row) (bytes : Bytes) : Within bytes.length ((rowReader w).read s bytes) := by
  refine within_messageReader (rowField w) (fun s tag rest => ?_) s bytes
  unfold rowField
  split
  · exact within_bytes w rest fun value => map_ne_panic.mpr (decodeDataSetValue_ne_panic w value)
  · exact within_passField w tag.wireType rest s

theorem decodeRow_ne_panic (bytes : Bytes) : decodeRow w bytes ≠ .panic :=
  readFields_ne_panic (fun s cells => (within_rowReader w s cells).ne_panic) _ _

theorem dataSetType_ne_panic (code : UInt32) : dataSetType code ≠ .panic := by
  unfold dataSetType
  split <;> simp

theorem within_dataSetReader (s : DataSet) (bytes : Bytes) : Within bytes.length ((dataSetReader w).read s bytes) := by
  refine within_messageReader (dataSetField w) (fun s tag rest => ?_) s bytes
  unfold dataSetField
  split
  · exact within_bytes w rest (by simp)
  · exact within_varint rest fun value => map_ne_panic.mpr (dataSetType_ne_panic _)
  · exact within_bytes w rest fun value => map_ne_panic.mpr (decodeRow_ne_panic w value)
  · exact within_passField w tag.wireType rest s

theorem decodeDataSet_ne_panic (bytes : Bytes) : decodeDataSet w bytes ≠ .panic := by
  refine bind_ne_panic (readFields_ne_panic (fun s cells => (within_dataSetReader w s cells).ne_panic) _ _)
    fun d _ => ?_
  split
  · simp
  · exact bind_ne_panic (checkRows_ne_panic _ _ _) fun _ _ => by simp

end AnyBytes

end InfusedModbus.Sparkplug
