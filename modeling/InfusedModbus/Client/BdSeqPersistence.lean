import InfusedModbus.Datafs.Display
import InfusedModbus.Foundation.Execution
import InfusedModbus.Sparkplug.PayloadCodec
import InfusedModbus.Sparkplug.Session

/-! One number a session, kept in a file from process to process. A process may be killed between
any two steps; the message that announces its death is sent by the broker, and may come when the
next process has long announced its birth. A host that compares the numbers is not misled. -/

namespace InfusedModbus.Client

open Foundation Datafs
open Sparkplug (Metric MetricValue Payload bdSeqMetricName bdSeqMetric rebirthMetric buildNdeathPayload
  buildNbirthPayload encodePayload decodePayload encodeMetric encodeVarint encodeTag encodeVarintField encodeBytesField
  encodeLengthDelimited encodeMetricValue)

/-! ### The file -/

/-- What `read_to_string` gives of the file and of the one that is renamed to it. -/
structure BdSeqFiles where
  path : Option (List Char)
  tempPath : Option (List Char)
  deriving DecidableEq, Repr

/-- The number for the next session, 0 where none can be read. -/
def BdSeqFiles.current (files : BdSeqFiles) : UInt64 :=
  (files.path.bind fun content => parseUnsigned 64 10 (trim content)).elim 0 UInt64.ofNat

def bdSeqText (bdSeq : UInt64) : List Char := Nat.toDigits 10 bdSeq.toNat

/-- What `next_bd_seq` gives, and what it leaves behind when no operation on the files fails. -/
def nextBdSeq (files : BdSeqFiles) : UInt64 × BdSeqFiles :=
  (files.current, ⟨some (bdSeqText (files.current + 1)), none⟩)

/-- What was written is read again. -/
theorem current_bdSeqText (bdSeq : UInt64) (tempPath : Option (List Char)) :
    BdSeqFiles.current ⟨some (bdSeqText bdSeq), tempPath⟩ = bdSeq := by
  have hplain : ∀ c ∈ bdSeqText bdSeq, isWhitespace c = false := fun c hc => isWhitespace_digit (mem_toDigits hc)
  rw [BdSeqFiles.current, Option.bind_some, trim_of_plain hplain, bdSeqText, parseUnsigned_toDigits bdSeq.toNat_lt]
  exact UInt64.ofNat_toNat

/-! ### Births and deaths on the wire -/

def ndeathBytes (bdSeq : UInt64) : Bytes := encodePayload (buildNdeathPayload bdSeq)

def nbirthBytes (bdSeq timestampMillis : UInt64) : Bytes :=
  encodePayload (buildNbirthPayload bdSeq timestampMillis .new).1

/-- The number in a birth or a death. -/
def bdSeqOf (bytes : Bytes) : Option UInt64 :=
  match decodePayload 64 bytes with
  | .ok payload =>
    match payload.metrics.find? fun metric => metric.name == bdSeqMetricName with
    | some ⟨_, _, _, _, _, _, .long bdSeq⟩ => some bdSeq
    | _ => none
  | _ => none

theorem length_encodeVarint_le_ten (v : UInt64) : (encodeVarint v).length ≤ 10 :=
  (Sparkplug.isVarint_encode v).length_le

theorem length_encodeVarintField_le (fieldNumber : UInt32) (value : UInt64) :
    (encodeVarintField fieldNumber value).length ≤ 20 := by
  have htag := length_encodeVarint_le_ten (Sparkplug.Tag.bits ⟨fieldNumber, .varint⟩)
  have hvalue := length_encodeVarint_le_ten value
  rw [encodeVarintField, List.length_append, encodeTag]
  omega

theorem length_encodeBytesField_le (fieldNumber : UInt32) (value : Bytes) :
    (encodeBytesField fieldNumber value).length ≤ 20 + value.length := by
  have htag := length_encodeVarint_le_ten (Sparkplug.Tag.bits ⟨fieldNumber, .lengthDelimited⟩)
  have hvalue := length_encodeVarint_le_ten (UInt64.ofNat value.length)
  rw [encodeBytesField, encodeLengthDelimited, List.length_append, List.length_append, encodeTag]
  omega

theorem length_elim_le (fieldNumber : UInt32) (value : Option UInt64) :
    (value.elim [] (encodeVarintField fieldNumber)).length ≤ 20 := by
  cases value with
  | none => simp
  | some value => exact length_encodeVarintField_le fieldNumber value

theorem length_bdSeqMetric_le (bdSeq : UInt64) (timestampMillis : Option UInt64) :
    (encodeMetric (bdSeqMetric bdSeq timestampMillis)).length ≤ 100 := by
  have hname := length_encodeBytesField_le Sparkplug.fieldName (asBytes bdSeqMetricName)
  have htimestamp := length_elim_le Sparkplug.fieldTimestamp timestampMillis
  have htype := length_encodeVarintField_le Sparkplug.fieldDatatype (Sparkplug.DataType.code .uint64).toUInt64
  have hvalue := length_encodeVarintField_le 11 bdSeq
  have hlength : (asBytes bdSeqMetricName).length = 5 := by decide +kernel
  simp [encodeMetric, bdSeqMetric, encodeMetricValue, MetricValue.kind, Sparkplug.encodeScalar,
    Sparkplug.metricValueFields] at hname htimestamp htype hvalue ⊢
  omega

theorem wellFormed_bdSeqMetric (bdSeq : UInt64) (timestampMillis : Option UInt64) :
    (bdSeqMetric bdSeq timestampMillis).WellFormed :=
  ⟨by simp [bdSeqMetric], by simp [bdSeqMetric]⟩

/-- Such payloads are small enough to be read back on any machine. -/
theorem decodePayload_small {payload : Payload} (hpayload : payload.WellFormed)
    (hlength : (payload.metrics.map fun metric => (encodeMetric metric).length + 20).sum ≤ 1000) :
    decodePayload 64 (encodePayload payload) = .ok payload := by
  have htimestamp := length_elim_le Sparkplug.payloadFieldTimestamp payload.timestamp
  have hseq := length_elim_le Sparkplug.payloadFieldSeq payload.seq
  have hmetrics : (payload.metrics.flatMap fun metric =>
      encodeBytesField Sparkplug.payloadFieldMetrics (encodeMetric metric)).length ≤ 1000 := by
    rw [List.length_flatMap]
    refine le_trans (List.sum_le_sum ?_) hlength
    intro metric _
    have := length_encodeBytesField_le Sparkplug.payloadFieldMetrics (encodeMetric metric)
    omega
  refine Sparkplug.decodePayload_of_writtenAs le_rfl hpayload payload.writtenAs_encode ?_
  rw [encodePayload, List.length_append, List.length_append]
  omega

/-- A death carries the number of its session. -/
theorem bdSeqOf_ndeathBytes (bdSeq : UInt64) : bdSeqOf (ndeathBytes bdSeq) = some bdSeq := by
  have hlength := length_bdSeqMetric_le bdSeq none
  rw [bdSeqOf, ndeathBytes, decodePayload_small]
  · rfl
  · intro metric hmetric
    obtain rfl := List.mem_singleton.mp hmetric
    exact wellFormed_bdSeqMetric bdSeq none
  · simp [buildNdeathPayload]
    omega

/-- So does a birth. -/
theorem bdSeqOf_nbirthBytes (bdSeq timestampMillis : UInt64) :
    bdSeqOf (nbirthBytes bdSeq timestampMillis) = some bdSeq := by
  have hlength := length_bdSeqMetric_le bdSeq (some timestampMillis)
  have hrebirth : (encodeMetric (rebirthMetric (some timestampMillis))).length ≤ 200 := by
    have hname := length_encodeBytesField_le Sparkplug.fieldName (asBytes Sparkplug.rebirthMetricName)
    have htimestamp := length_elim_le Sparkplug.fieldTimestamp (some timestampMillis)
    have htype := length_encodeVarintField_le Sparkplug.fieldDatatype (Sparkplug.DataType.code .boolean).toUInt64
    have hvalue := length_encodeVarintField_le 14 0
    have hlength : (asBytes Sparkplug.rebirthMetricName).length = 20 := by decide +kernel
    simp [encodeMetric, rebirthMetric, encodeMetricValue, MetricValue.kind, Sparkplug.encodeScalar,
      Sparkplug.metricValueFields] at hname htimestamp htype hvalue ⊢
    omega
  rw [bdSeqOf, nbirthBytes, decodePayload_small]
  · rfl
  · intro metric hmetric
    rcases List.mem_pair.mp hmetric with rfl | rfl
    · exact wellFormed_bdSeqMetric bdSeq (some timestampMillis)
    · exact ⟨by simp [rebirthMetric], by simp [rebirthMetric]⟩
  · simp [buildNbirthPayload]
    omega

end InfusedModbus.Client
