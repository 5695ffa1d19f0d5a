import InfusedModbus.Foundation.Execution
import InfusedModbus.Sparkplug.Session
import Mathlib.Data.List.Chain

/-! Publishing on one connection. A task that publishes takes its number under the lock of the
counter and hands its message to the MQTT client after the lock is gone, when there is room in
the queue. Between the two another task can do both. The numbers are gap-free in the order in
which they were taken; they are so on the wire when nobody overtakes and nobody gives up. -/

namespace InfusedModbus.Client

open Foundation Sparkplug

/-! ### Calls and messages -/

/-- What a task asks a connection to publish. -/
inductive PublishCall where
  | nbirth
  | dbirth (deviceId : String) (metrics : List Metric)
  | ddeath (deviceId : String)
  | ddata (deviceId : String) (metrics : List Metric)
  | ndata (metrics : List Metric)
  deriving DecidableEq, Repr

namespace PublishCall

/-- Data without metrics is not published and takes no number. -/
def isNoop : PublishCall → Bool
  | .ddata _ metrics | .ndata metrics => metrics.isEmpty
  | _ => false

/-- What happens under the lock: the payload, and the counter after it. -/
def build (bdSeq timestampMillis : UInt64) (seqCounter : SeqCounter) : PublishCall → Payload × SeqCounter
  | .nbirth => buildNbirthPayload bdSeq timestampMillis seqCounter
  | .dbirth _ metrics => buildDbirthPayload metrics timestampMillis seqCounter
  | .ddeath _ => buildDdeathPayload timestampMillis seqCounter
  | .ddata _ metrics => buildDdataPayload metrics timestampMillis seqCounter
  | .ndata metrics => buildNdataPayload metrics timestampMillis seqCounter

/-- An NBIRTH restarts the numbers. -/
theorem build_nbirth (bdSeq timestampMillis : UInt64) (seqCounter : SeqCounter) :
    (build bdSeq timestampMillis seqCounter .nbirth).1.seq = some 0 ∧
      (build bdSeq timestampMillis seqCounter .nbirth).2.current = 1 := ⟨rfl, rfl⟩

/-- Any other message takes the next one. -/
theorem build_of_ne {call : PublishCall} (h : call ≠ .nbirth) (bdSeq timestampMillis : UInt64)
    (seqCounter : SeqCounter) :
    (build bdSeq timestampMillis seqCounter call).1.seq = some seqCounter.current.toUInt64 ∧
      (build bdSeq timestampMillis seqCounter call).2.current = seqCounter.current + 1 := by
  cases call with
  | nbirth => exact absurd rfl h
  | dbirth | ddeath | ddata | ndata => exact ⟨rfl, rfl⟩

end PublishCall

/-- A message as it is handed to the MQTT client; its topic follows from the call. -/
structure Message where
  call : PublishCall
  payload : Payload
  deriving DecidableEq, Repr

/-! ### The connection -/

/-- The messages that have a number and wait to be handed over stand in the order of their
numbers. -/
structure EdgeNodeConnection (τ : Type) where
  bdSeq : UInt64
  seqCounter : SeqCounter
  pending : List (τ × Message)
  handed : List Message

/-- A task that is aborted while it waits, or whose message the client refuses, gives up. -/
inductive PublishAction (τ : Type) where
  | take (task : τ) (call : PublishCall) (timestampMillis : UInt64)
  | handOver (task : τ)
  | giveUp (task : τ)

/-- Connecting ends with an NBIRTH. -/
def connectEdgeNode (τ : Type) (bdSeq timestampMillis : UInt64) : EdgeNodeConnection τ :=
  let (payload, seqCounter) := PublishCall.build bdSeq timestampMillis .new .nbirth
  ⟨bdSeq, seqCounter, [], [⟨.nbirth, payload⟩]⟩

namespace EdgeNodeConnection

variable {τ : Type} [DecidableEq τ]

/-- What the task holds. -/
def held (s : EdgeNodeConnection τ) (task : τ) : Option (τ × Message) := s.pending.find? fun entry => entry.1 == task

def step (s : EdgeNodeConnection τ) : PublishAction τ → Option (EdgeNodeConnection τ)
  | .take task call timestampMillis =>
    if (s.held task).isSome then none
    else if call.isNoop then some s
    else
      let (payload, seqCounter) := call.build s.bdSeq timestampMillis s.seqCounter
      some { s with seqCounter := seqCounter, pending := s.pending ++ [(task, ⟨call, payload⟩)] }
  | .handOver task => (s.held task).map fun entry =>
      { s with pending := s.pending.erase entry, handed := s.handed ++ [entry.2] }
  | .giveUp task => (s.held task).map fun entry => { s with pending := s.pending.erase entry }

/-- Nobody overtakes and nobody gives up. -/
def InTurn (s : EdgeNodeConnection τ) : PublishAction τ → Prop
  | .take _ _ _ => True
  | .handOver task => ∀ entry ∈ s.pending.head?, entry.1 = task
  | .giveUp _ => False

end EdgeNodeConnection

/-! ### Gap-free numbers -/

/-- The message carries the number after the one before it. -/
def Follows (before message : Message) : Prop :=
  message.call ≠ .nbirth → message.payload.seq = before.payload.seq.map fun seq => (seq + 1) % 256

/-- Every NBIRTH has number 0, and after it come 1, 2, 3, … modulo 256 until the next one. -/
structure GapFree (messages : List Message) : Prop where
  first : ∀ message ∈ messages.head?, message.call = .nbirth
  nbirths : ∀ message ∈ messages, message.call = .nbirth → message.payload.seq = some 0
  others : messages.IsChain Follows

theorem GapFree.of_append {messages rest : List Message} (h : GapFree (messages ++ rest)) : GapFree messages := by
  refine ⟨?_, fun message hmessage => h.nbirths message (List.mem_append_left _ hmessage), ?_⟩
  · intro message hmessage
    apply h.first
    rw [List.head?_append, Option.mem_def.mp hmessage]
    rfl
  · exact (List.isChain_append.mp h.others).1

theorem GapFree.concat {messages : List Message} {message last : Message} (h : GapFree messages)
    (hlast : last ∈ messages.getLast?) (hnbirth : message.call = .nbirth → message.payload.seq = some 0)
    (hfollows : Follows last message) : GapFree (messages ++ [message]) := by
  have hne : messages ≠ [] := by
    rintro rfl
    cases hlast
  refine ⟨?_, ?_, ?_⟩
  · rw [List.head?_append_of_ne_nil _ hne]
    exact h.first
  · intro other hother
    rcases List.mem_append.mp hother with hother | hother
    · exact h.nbirths other hother
    · obtain rfl := List.mem_singleton.mp hother
      exact hnbirth
  · refine List.isChain_append.mpr ⟨h.others, List.isChain_singleton _, ?_⟩
    intro other hother next hnext
    obtain rfl := Option.mem_unique hlast hother
    obtain rfl := Option.some.inj hnext
    exact hfollows

namespace EdgeNodeConnection

variable {τ : Type}

/-- The messages in the order in which they took their numbers. -/
def numbered (s : EdgeNodeConnection τ) : List Message := s.handed ++ s.pending.map Prod.snd

/-- The numbers taken so far are gap-free, and the counter goes on from the last of them. -/
structure Counted (s : EdgeNodeConnection τ) : Prop where
  gapFree : GapFree s.numbered
  next : ∃ last ∈ s.numbered.getLast?, last.payload.seq.map (fun seq => (seq + 1) % 256) =
    some s.seqCounter.current.toUInt64

theorem counted_connect (bdSeq timestampMillis : UInt64) : (connectEdgeNode τ bdSeq timestampMillis).Counted := by
  refine ⟨⟨?_, ?_, List.isChain_singleton _⟩, _, rfl, rfl⟩
  · intro message hmessage
    obtain rfl := Option.some.inj hmessage
    rfl
  · intro message hmessage _
    obtain rfl := List.mem_singleton.mp hmessage
    rfl

theorem toUInt64_succ (n : UInt8) : (n + 1).toUInt64 = (n.toUInt64 + 1) % 256 := by
  apply UInt64.toNat_inj.mp
  simp only [UInt8.toNat_toUInt64, UInt8.toNat_add, UInt64.toNat_mod, UInt64.toNat_add]
  have := n.toNat_lt
  simp

/-- A number that is taken follows the last one. -/
theorem counted_take {s : EdgeNodeConnection τ} (hinv : s.Counted) (task : τ) (call : PublishCall)
    (timestampMillis : UInt64) :
    ({ s with
      seqCounter := (call.build s.bdSeq timestampMillis s.seqCounter).2
      pending := s.pending ++ [(task, ⟨call, (call.build s.bdSeq timestampMillis s.seqCounter).1⟩)] } :
        EdgeNodeConnection τ).Counted := by
  obtain ⟨last, hlast, hnext⟩ := hinv.next
  have hnumbered : ∀ message : Message, s.handed ++ (s.pending ++ [(task, message)]).map Prod.snd =
      s.numbered ++ [message] := by
    intro message
    rw [List.map_append, ← List.append_assoc]
    rfl
  by_cases hnbirth : call = .nbirth
  · subst hnbirth
    obtain ⟨hseq, hcounter⟩ := PublishCall.build_nbirth s.bdSeq timestampMillis s.seqCounter
    refine ⟨?_, ?_⟩
    · rw [numbered, hnumbered]
      exact hinv.gapFree.concat hlast (fun _ => hseq) (fun hne => absurd rfl hne)
    · rw [numbered, hnumbered]
      refine ⟨_, List.getLast?_concat, ?_⟩
      rw [hseq, hcounter]
      rfl
  · obtain ⟨hseq, hcounter⟩ := PublishCall.build_of_ne hnbirth s.bdSeq timestampMillis s.seqCounter
    refine ⟨?_, ?_⟩
    · rw [numbered, hnumbered]
      refine hinv.gapFree.concat hlast (fun heq => absurd heq hnbirth) ?_
      intro _
      exact hseq.trans hnext.symm
    · rw [numbered, hnumbered]
      refine ⟨_, List.getLast?_concat, ?_⟩
      rw [hseq, hcounter, toUInt64_succ]
      rfl

variable [DecidableEq τ]

theorem counted_step {s s' : EdgeNodeConnection τ} {action : PublishAction τ} (hinv : s.Counted)
    (hturn : s.InTurn action) (h : s.step action = some s') : s'.Counted := by
  cases action with
  | take task call timestampMillis =>
    obtain ⟨-, h⟩ := Option.ite_none_left_eq_some.mp h
    split at h
    · obtain rfl := Option.some.inj h
      exact hinv
    · obtain rfl := Option.some.inj h
      exact counted_take hinv task call timestampMillis
  | handOver task =>
    obtain ⟨entry, hheld, rfl⟩ := Option.map_eq_some_iff.mp h
    -- what is handed over is the oldest message, so the order of the numbers stays
    have hhead : s.pending = entry :: s.pending.erase entry := by
      rw [held] at hheld
      cases hpending : s.pending with
      | nil =>
        rw [hpending] at hheld
        cases hheld
      | cons first rest =>
        have hfirst : first.1 = task := hturn first (by rw [hpending]; rfl)
        rw [hpending, List.find?_cons_of_pos (by simpa using hfirst)] at hheld
        obtain rfl := Option.some.inj hheld
        rw [List.erase_cons_head]
    have hnumbered : (s.handed ++ [entry.2]) ++ (s.pending.erase entry).map Prod.snd = s.numbered := by
      rw [numbered, hhead, List.map_cons, List.append_assoc, List.erase_cons_head]
      rfl
    refine ⟨?_, ?_⟩
    · rw [numbered, hnumbered]
      exact hinv.gapFree
    · rw [numbered, hnumbered]
      exact hinv.next
  | giveUp task => exact absurd hturn id

/-! ### What the client is handed -/

/-- However the tasks interleave, when nobody overtakes and nobody gives up, the numbers are
gap-free on the wire. -/
theorem handed_gap_free {bdSeq timestampMillis : UInt64} {actions : List (PublishAction τ)}
    {s : EdgeNodeConnection τ}
    (hturns : Permitted step InTurn (connectEdgeNode τ bdSeq timestampMillis) actions)
    (hrun : execute step (connectEdgeNode τ bdSeq timestampMillis) actions = some s) : GapFree s.handed := by
  have hcounted : s.Counted := by
    refine invariant_of_execute ?_ (counted_connect bdSeq timestampMillis) hturns hrun
    intro t action t' hinv hturn hstep
    exact counted_step hinv hturn hstep
  exact hcounted.gapFree.of_append

/-- What a ticker publishes, for the witnesses of runs. -/
def levelMetric (metricAlias : ℕ) : Metric := ⟨"level", some metricAlias, some 1, .uint16, false, none, .int 7⟩

/-- Two tickers that wait for each other, and a rebirth. -/
def waitingRun : List (PublishAction String) :=
  [.take "pump" (.ddata "pump" [levelMetric 0]) 1, .handOver "pump", .take "tank" (.ddata "tank" [levelMetric 1]) 1,
    .take "handler" .nbirth 2, .handOver "tank", .handOver "handler"]

theorem handed_gap_free_waiting : ∃ s, execute step (connectEdgeNode String 0 0) waitingRun = some s ∧
    GapFree s.handed := by
  refine ⟨_, rfl, @handed_gap_free String _ 0 0 waitingRun _ ?_ rfl⟩
  refine permitted_cons trivial rfl (permitted_cons ?_ rfl (permitted_cons trivial rfl (permitted_cons trivial rfl
    (permitted_cons ?_ rfl (permitted_cons ?_ rfl trivial)))))
  all_goals
    intro entry hentry
    obtain rfl := Option.some.inj hentry
    rfl

/-- Two tickers, of which the second is handed over first: number 2 comes before number 1. -/
theorem later_number_first : ∃ s, execute step (connectEdgeNode String 0 0)
    [.take "pump" (.ddata "pump" [levelMetric 0]) 1, .take "tank" (.ddata "tank" [levelMetric 1]) 1,
      .handOver "tank", .handOver "pump"] = some s ∧ ¬GapFree s.handed := by
  refine ⟨_, rfl, ?_⟩
  intro hgapFree
  have hfollows := (List.isChain_cons_cons.mp hgapFree.others).1
  have hseq := hfollows (by decide)
  exact absurd hseq (by decide)

end EdgeNodeConnection

end InfusedModbus.Client
