import InfusedModbus.Sparkplug.MetricCodec
import Mathlib.Data.List.Forall2

/-! Payloads on the wire, and what the whole codec comes to. A payload that can be written is
read back, also when fields that the decoders do not know stand between its fields or within
the messages in it; a payload that was read can be written. No bytes make a decoder panic, and
every turn of every decoder takes some bytes, and none past the end. -/

namespace InfusedModbus.Sparkplug

open Foundation Foundation.Outcome

@[match_pattern] def payloadFieldTimestamp : UInt32 := 1
@[match_pattern] def payloadFieldMetrics : UInt32 := 2
@[match_pattern] def payloadFieldSeq : UInt32 := 3

inductive PayloadDecodeError where
  | wire (error : WireError)
  | metric (error : MetricDecodeError)
  deriving DecidableEq, Repr

def encodePayload (payload : Payload) : Bytes :=
  payload.timestamp.elim [] (encodeVarintField payloadFieldTimestamp) ++
    (payload.metrics.flatMap fun metric => encodeBytesField payloadFieldMetrics (encodeMetric metric)) ++
    payload.seq.elim [] (encodeVarintField payloadFieldSeq)

def Payload.pushMetric (p : Payload) (metric : Metric) : Payload := { p with metrics := p.metrics ++ [metric] }

section Decode

variable (w : ℕ)

/-- `decode_metric` with the error of a payload. -/
def payloadMetric (bytes : Bytes) : Outcome PayloadDecodeError Metric := (decodeMetric w bytes).mapErr .metric

/-- The arms of the decoder. -/
def payloadField (p : Payload) (tag : Tag) (rest : Bytes) : Outcome PayloadDecodeError (Payload × ℕ) :=
  match tag.fieldNumber with
  | payloadFieldTimestamp => takeField .wire (decodeVarint rest) fun value => .ok { p with timestamp := some value }
  | payloadFieldMetrics =>
    takeField .wire (decodeLengthDelimited w rest) fun bytes => (payloadMetric w bytes).map p.pushMetric
  | payloadFieldSeq => takeField .wire (decodeVarint rest) fun value => .ok { p with seq := some value }
  | _ => passField .wire w tag.wireType rest p

def payloadReader : FieldReader PayloadDecodeError Payload UInt8 := messageReader .wire (payloadField w)

def decodePayload (bytes : Bytes) : Outcome PayloadDecodeError Payload :=
  readFields (payloadReader w) bytes ⟨none, [], none⟩

end Decode

/-- Every metric can be written. -/
def Payload.WellFormed (payload : Payload) : Prop := ∀ metric ∈ payload.metrics, metric.WellFormed

/-! ### What bytes stand for -/

/-- The fields of a payload whose metrics are written as some bytes. -/
def Payload.fields (payload : Payload) (metrics : List Bytes) : List Bytes :=
  (payload.timestamp.map (encodeVarintField payloadFieldTimestamp)).toList ++
    metrics.map (encodeBytesField payloadFieldMetrics) ++ (payload.seq.map (encodeVarintField payloadFieldSeq)).toList

def Payload.WrittenAs (payload : Payload) (bytes : Bytes) : Prop :=
  ∃ metrics, List.Forall₂ Metric.WrittenAs payload.metrics metrics ∧
    Interspersed (IsUnknownField [payloadFieldTimestamp, payloadFieldMetrics, payloadFieldSeq])
      (payload.fields metrics) bytes

theorem Payload.writtenAs_encode (payload : Payload) : payload.WrittenAs (encodePayload payload) := by
  refine ⟨payload.metrics.map encodeMetric, ?_, ?_⟩
  · exact List.forall₂_map_right_iff.mpr (List.forall₂_same.mpr fun metric _ => metric.writtenAs_encode)
  · have h : encodePayload payload = (payload.fields (payload.metrics.map encodeMetric)).flatten := by
      rw [encodePayload, Payload.fields, List.flatMap_def]
      cases payload.timestamp <;> cases payload.seq <;> simp [Function.comp_def]
    rw [h]
    exact .flatten _

/-! ### Reading back -/

section ReadBack

variable {w : ℕ}

/-- Any other field is passed over. -/
theorem payloadField_other {tag : Tag}
    (h : tag.fieldNumber ∉ [payloadFieldTimestamp, payloadFieldMetrics, payloadFieldSeq]) (p : Payload) (rest : Bytes) :
    payloadField w p tag rest = passField .wire w tag.wireType rest p := by
  simp only [List.mem_cons, List.not_mem_nil, or_false, not_or] at h
  unfold payloadField
  split
  · next htag => exact absurd htag h.1
  · next htag => exact absurd htag h.2.1
  · next htag => exact absurd htag h.2.2
  · rfl

/-- A metric field pushes the metric in it. -/
theorem readsAs_metric (hw : w ≤ 64) {bytes : Bytes}
    (hlength : (encodeBytesField payloadFieldMetrics bytes).length < 2 ^ w) :
    ReadsAs (payloadReader w) (encodeBytesField payloadFieldMetrics bytes)
      fun p => (payloadMetric w bytes).map p.pushMetric :=
  readsAs_bytes (payloadField w) hw (by decide) hlength (fun p bytes => (payloadMetric w bytes).map p.pushMetric)
    fun p rest => rfl

theorem foldl_pushMetric (timestamp seq : Option UInt64) (metrics metrics' : List Metric) :
    metrics'.foldl Payload.pushMetric ⟨timestamp, metrics, seq⟩ = ⟨timestamp, metrics ++ metrics', seq⟩ :=
  foldl_push (fun metrics => Payload.mk timestamp metrics seq) (fun _ _ => rfl) metrics metrics'

/-- Whatever the metric fields hold, the payload is what the decoder makes of each. -/
theorem decodePayload_of_interspersed (hw : w ≤ 64) {timestamp seq : Option UInt64} {metrics : List Bytes} {bytes : Bytes}
    (h : Interspersed (IsUnknownField [payloadFieldTimestamp, payloadFieldMetrics, payloadFieldSeq])
      ((Payload.mk timestamp [] seq).fields metrics) bytes) (hlength : bytes.length < 2 ^ w) :
    decodePayload w bytes = (metrics.mapM' (payloadMetric w)).map fun decoded => ⟨timestamp, decoded, seq⟩ := by
  let timestampParts : List (Part PayloadDecodeError Payload UInt8) := (timestamp.map fun timestamp =>
    (encodeVarintField payloadFieldTimestamp timestamp,
      fun p : Payload => .ok { p with timestamp := some timestamp })).toList
  let metricParts : List (Part PayloadDecodeError Payload UInt8) := metrics.map fun bytes =>
    (encodeBytesField payloadFieldMetrics bytes, fun p => (payloadMetric w bytes).map p.pushMetric)
  let seqParts : List (Part PayloadDecodeError Payload UInt8) := (seq.map fun seq =>
    (encodeVarintField payloadFieldSeq seq, fun p : Payload => .ok { p with seq := some seq })).toList
  have hpieces : (timestampParts ++ metricParts ++ seqParts).map Prod.fst =
      (Payload.mk timestamp [] seq).fields metrics := by
    simp only [timestampParts, metricParts, seqParts, Payload.fields]
    cases timestamp <;> cases seq <;> simp
  rw [← hpieces] at h
  have hread : decodePayload w bytes = applyParts (timestampParts ++ metricParts ++ seqParts) ⟨none, [], none⟩ := by
    refine readFields_interspersed _ h (fun passed hpassed hle => ?_) (fun part hpart hle => ?_) _
    · exact readsAs_unknown (payloadField w) hw hpassed (by omega) fun p tag rest hunknown =>
        payloadField_other hunknown p rest
    · simp only [timestampParts, metricParts, seqParts, List.mem_append, Option.mem_toList, Option.map_eq_some_iff,
        List.mem_map, or_assoc] at hpart
      rcases hpart with ⟨timestamp, -, rfl⟩ | ⟨metric, -, rfl⟩ | ⟨seq, -, rfl⟩
      · exact readsAs_varint (payloadField w) payloadFieldTimestamp (by decide) timestamp
          (fun p value => .ok { p with timestamp := some value }) fun p rest => rfl
      · exact readsAs_metric hw (Nat.lt_of_le_of_lt hle hlength)
      · exact readsAs_varint (payloadField w) payloadFieldSeq (by decide) seq
          (fun p value => .ok { p with seq := some value }) fun p rest => rfl
  have htimestamp : applyParts timestampParts ⟨none, [], none⟩ = .ok ⟨timestamp, [], none⟩ := by
    simp only [timestampParts]
    cases timestamp <;> rfl
  have hseq : ∀ decoded, applyParts seqParts ⟨timestamp, decoded, none⟩ = .ok ⟨timestamp, decoded, seq⟩ := by
    intro decoded
    simp only [seqParts]
    cases seq <;> rfl
  rw [hread, applyParts_append, applyParts_append, htimestamp, ok_bind, applyParts_push]
  cases metrics.mapM' (payloadMetric w) with
  | ok decoded => rw [map_ok, map_ok, ok_bind, foldl_pushMetric, List.nil_append, hseq]
  | err e => rfl
  | panic => rfl

theorem decodePayload_of_writtenAs (hw : w ≤ 64) {payload : Payload} (hpayload : payload.WellFormed) {bytes : Bytes}
    (h : payload.WrittenAs bytes) (hlength : bytes.length < 2 ^ w) : decodePayload w bytes = .ok payload := by
  obtain ⟨metrics, hwritten, hbytes⟩ := h
  have hdecode : metrics.mapM' (payloadMetric w) = .ok payload.metrics := by
    refine mapM_of_forall₂ ((List.forall₂_and_left _ _).mpr ⟨hpayload, hwritten⟩) fun metric written hmem hmetric => ?_
    have hle := hbytes.length_le (encodeBytesField payloadFieldMetrics written)
      (List.mem_append_left _ (List.mem_append_right _ (List.mem_map_of_mem hmem)))
    have hlt := length_lt_encodeBytesField payloadFieldMetrics written
    rw [payloadMetric, decodeMetric_of_writtenAs hw hmetric.1 hmetric.2 (by omega), mapErr_ok]
  rw [decodePayload_of_interspersed hw hbytes hlength, hdecode, map_ok]

end ReadBack

/-! ### Any bytes -/

section AnyBytes

variable {w : ℕ}

/-- A payload that is read can be written. -/
theorem wellFormed_of_decodePayload {bytes : Bytes} {payload : Payload} (h : decodePayload w bytes = .ok payload) :
    payload.WellFormed := by
  have hempty : (Payload.mk none [] none).WellFormed := by simp [Payload.WellFormed]
  refine readFields_invariant (fun {p cells p' n} hp hturn => ?_) hempty h
  obtain ⟨tag, rest, consumed, hfield⟩ := messageReader_eq_ok (payloadField w) hturn
  unfold payloadField at hfield
  split at hfield
  · obtain ⟨value, hp'⟩ := takeField_eq_ok hfield
    obtain rfl := ok.inj hp'
    exact hp
  · obtain ⟨bytes, hp'⟩ := takeField_eq_ok hfield
    obtain ⟨metric, hmetric, rfl⟩ := map_eq_ok.mp hp'
    have hnew := wellFormed_of_decodeMetric (mapErr_eq_ok.mp hmetric)
    exact List.forall_mem_append.mpr ⟨hp, List.forall_mem_singleton.mpr hnew⟩
  · obtain ⟨value, hp'⟩ := takeField_eq_ok hfield
    obtain rfl := ok.inj hp'
    exact hp
  · obtain rfl := passField_eq_ok hfield
    exact hp

theorem within_payloadReader (p : Payload) (bytes : Bytes) :
    Within bytes.length ((payloadReader w).read p bytes) := by
  refine within_messageReader (payloadField w) (fun p tag rest => ?_) p bytes
  unfold payloadField
  split
  · exact within_varint rest (by simp)
  · exact within_bytes w rest fun bytes => map_ne_panic.mpr (mapErr_ne_panic.mpr (decodeMetric_ne_panic bytes))
  · exact within_varint rest (by simp)
  · exact within_passField w tag.wireType rest p

theorem decodePayload_ne_panic (bytes : Bytes) : decodePayload w bytes ≠ .panic :=
  readFields_ne_panic (fun p cells => (within_payloadReader p cells).ne_panic) _ _

end AnyBytes

/-! ### The codec -/

/-- Every payload whose tables agree in their numbers is read back from its encoding, and so
is every payload that was read from any bytes. A word has up to 64 bits, and what is encoded
fits in memory. -/
theorem payload_codec_round_trip {w : ℕ} (hw : w ≤ 64) :
    (∀ payload : Payload, payload.WellFormed → (encodePayload payload).length < 2 ^ w →
        decodePayload w (encodePayload payload) = .ok payload) ∧
      ∀ bytes payload, decodePayload w bytes = .ok payload → (encodePayload payload).length < 2 ^ w →
        decodePayload w (encodePayload payload) = .ok payload :=
  ⟨fun payload hpayload => decodePayload_of_writtenAs hw hpayload payload.writtenAs_encode,
    fun _ payload h => decodePayload_of_writtenAs hw (wellFormed_of_decodePayload h) payload.writtenAs_encode⟩

/-- A command with a table, properties and a scalar without a name. -/
def tableCommand : Payload where
  timestamp := some 300
  metrics := [
    ⟨"recipe", none, some 7, .dataSet, false, some ⟨[("unit", ⟨.string, .string "bar"⟩)]⟩,
      .dataSet ⟨["on"], [.boolean], [⟨[.boolean true]⟩]⟩⟩,
    ⟨"", some 5, none, .float, true, none, .float 0x7FC00000⟩]
  seq := none

theorem payload_codec_round_trip_table : decodePayload 64 (encodePayload tableCommand) = .ok tableCommand := by
  refine (payload_codec_round_trip le_rfl).1 tableCommand ?_ (by decide +kernel)
  intro metric hmetric
  rcases List.mem_pair.mp hmetric with rfl | rfl
  · refine ⟨by simp, fun dataSet heq => ?_⟩
    obtain rfl := MetricValue.dataSet.inj heq
    exact ⟨rfl, by simp⟩
  · exact ⟨by simp, fun dataSet heq => by cases heq⟩

/-- Every turn of a reader takes some bytes, and none past the end. -/
def Advancing {ε σ : Type} (reader : FieldReader ε σ UInt8) : Prop :=
  ∀ s bytes s' n, reader.read s bytes = .ok (s', n) → 0 < n ∧ n ≤ bytes.length

theorem advancing_of_within {ε σ : Type} {reader : FieldReader ε σ UInt8}
    (h : ∀ s bytes, Within bytes.length (reader.read s bytes)) : Advancing reader :=
  fun s bytes _ _ hread => ⟨reader.forward hread, (h s bytes).le hread⟩

/-- No bytes make any of the decoders panic, and the offset moves on with every field and not
past the end. A payload that is read back from its encoding is still read back when fields
that a decoder does not know stand anywhere between its fields or within the messages in it. -/
theorem payload_decoding_safe_and_tolerant (w : ℕ) :
    (∀ bytes, decodePayload w bytes ≠ .panic ∧ decodeMetric w bytes ≠ .panic ∧ decodePropertySet w bytes ≠ .panic ∧
        decodeProperty w bytes ≠ .panic ∧ decodeDataSet w bytes ≠ .panic ∧ decodeRow w bytes ≠ .panic ∧
        decodeDataSetValue w bytes ≠ .panic) ∧
      (Advancing (payloadReader w) ∧ Advancing (metricReader w) ∧ Advancing (propertySetReader w) ∧
        Advancing (propertyReader w) ∧ Advancing (dataSetReader w) ∧ Advancing (rowReader w) ∧
        Advancing (dataSetValueReader w)) ∧
      ∀ payload bytes, w ≤ 64 → decodePayload w (encodePayload payload) = .ok payload → payload.WrittenAs bytes →
        bytes.length < 2 ^ w → decodePayload w bytes = .ok payload := by
  refine ⟨fun bytes => ?_, ?_, fun payload bytes hw hread => ?_⟩
  · exact ⟨decodePayload_ne_panic bytes, decodeMetric_ne_panic bytes, decodePropertySet_ne_panic w bytes,
      decodeProperty_ne_panic w bytes, decodeDataSet_ne_panic w bytes, decodeRow_ne_panic w bytes,
      decodeDataSetValue_ne_panic w bytes⟩
  · exact ⟨advancing_of_within within_payloadReader, advancing_of_within within_metricReader,
      advancing_of_within (within_propertySetReader w), advancing_of_within (within_propertyReader w),
      advancing_of_within (within_dataSetReader w), advancing_of_within (within_rowReader w),
      advancing_of_within (within_dataSetValueReader w)⟩
  · exact decodePayload_of_writtenAs hw (wellFormed_of_decodePayload hread)

def valveMetric : Metric := ⟨"", some 5, none, .boolean, false, none, .boolean true⟩

/-- Field 5 of a metric is not one the decoder knows; here it stands behind the alias and
holds a zero of two bytes. -/
theorem payload_decoding_safe_and_tolerant_padded :
    decodePayload 64 [18, 11, 10, 0, 16, 5, 40, 128, 0, 32, 11, 112, 1] = .ok ⟨none, [valveMetric], none⟩ := by
  have hzero : Spells [128, 0] 0 := Spells.more (b := 128) (by decide) (Spells.last (b := 0) (by decide))
  have hunknown : IsUnknownField metricFieldNumbers [40, 128, 0] :=
    ⟨⟨5, .varint⟩, [40], [128, 0], rfl, by decide, by decide, ⟨Spells.last (b := 40) (by decide), by decide⟩,
      .varint (v := 0) ⟨hzero, by decide⟩⟩
  have hmetric : valveMetric.WrittenAs [10, 0, 16, 5, 40, 128, 0, 32, 11, 112, 1] := by
    refine ⟨none, encodeMetricValue (.boolean true), .none, MetricValue.writtenAs_encode _, ?_⟩
    have hinsert := Interspersed.insert ((valveMetric.fields none (encodeMetricValue (.boolean true))).take 2)
      ((valveMetric.fields none (encodeMetricValue (.boolean true))).drop 2) hunknown
    have hbytes : ((valveMetric.fields none (encodeMetricValue (.boolean true))).take 2).flatten ++ ([40, 128, 0] ++
        ((valveMetric.fields none (encodeMetricValue (.boolean true))).drop 2).flatten) =
        [10, 0, 16, 5, 40, 128, 0, 32, 11, 112, 1] := by decide +kernel
    rwa [List.take_append_drop, hbytes] at hinsert
  have hpayload : (Payload.mk none [valveMetric] none).WrittenAs [18, 11, 10, 0, 16, 5, 40, 128, 0, 32, 11, 112, 1] := by
    refine ⟨[[10, 0, 16, 5, 40, 128, 0, 32, 11, 112, 1]], .cons hmetric .nil, ?_⟩
    have hbytes : ((Payload.mk none [valveMetric] none).fields [[10, 0, 16, 5, 40, 128, 0, 32, 11, 112, 1]]).flatten =
        [18, 11, 10, 0, 16, 5, 40, 128, 0, 32, 11, 112, 1] := by decide +kernel
    rw [← hbytes]
    exact .flatten _
  exact (payload_decoding_safe_and_tolerant 64).2.2 _ _ le_rfl (by decide +kernel) hpayload (by decide)

end InfusedModbus.Sparkplug
