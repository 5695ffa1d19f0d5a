import InfusedModbus.Sparkplug.Metric

/-! The payloads of one session of an edge node: NBIRTH and NDEATH around it, births, data and
deaths of the devices within it. All of them but NDEATH take the next number of one counter,
and only an NBIRTH starts the counter again. -/

namespace InfusedModbus.Sparkplug

/-! ### The counter -/

/-- The number to use next; after 255 comes 0. -/
structure SeqCounter where
  current : UInt8
  deriving DecidableEq, Repr

namespace SeqCounter

def new : SeqCounter := ⟨0⟩

def nextSeq (counter : SeqCounter) : UInt8 × SeqCounter := (counter.current, ⟨counter.current + 1⟩)

def reset (_ : SeqCounter) : SeqCounter := ⟨0⟩

end SeqCounter

/-! ### Payloads -/

def bdSeqMetricName : String := "bdSeq"
def rebirthMetricName : String := "Node Control/Rebirth"

def bdSeqMetric (bdSeq : UInt64) (timestampMillis : Option UInt64) : Metric where
  name := bdSeqMetricName
  metricAlias := none
  timestamp := timestampMillis
  dataType := .uint64
  isNull := false
  properties := none
  value := .long bdSeq

def rebirthMetric (timestampMillis : Option UInt64) : Metric where
  name := rebirthMetricName
  metricAlias := none
  timestamp := timestampMillis
  dataType := .boolean
  isNull := false
  properties := none
  value := .boolean false

/-- Registered before connecting, so it has neither a time nor a number. -/
def buildNdeathPayload (bdSeq : UInt64) : Payload where
  timestamp := none
  metrics := [bdSeqMetric bdSeq none]
  seq := none

def buildNbirthPayload (bdSeq timestampMillis : UInt64) (seqCounter : SeqCounter) : Payload × SeqCounter :=
  let (seq, seqCounter) := seqCounter.reset.nextSeq
  ({ timestamp := some timestampMillis
     metrics := [bdSeqMetric bdSeq (some timestampMillis), rebirthMetric (some timestampMillis)]
     seq := some seq.toUInt64 }, seqCounter)

def buildMetricsPayload (metrics : List Metric) (timestampMillis : UInt64) (seqCounter : SeqCounter) :
    Payload × SeqCounter :=
  let (seq, seqCounter) := seqCounter.nextSeq
  ({ timestamp := some timestampMillis, metrics := metrics, seq := some seq.toUInt64 }, seqCounter)

def buildDbirthPayload := buildMetricsPayload
def buildDdataPayload := buildMetricsPayload
def buildNdataPayload := buildMetricsPayload

def buildDdeathPayload (timestampMillis : UInt64) (seqCounter : SeqCounter) : Payload × SeqCounter :=
  let (seq, seqCounter) := seqCounter.nextSeq
  ({ timestamp := some timestampMillis, metrics := [], seq := some seq.toUInt64 }, seqCounter)

end InfusedModbus.Sparkplug
