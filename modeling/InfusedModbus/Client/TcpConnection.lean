import InfusedModbus.Foundation.Execution
import InfusedModbus.Foundation.FrameStream
import InfusedModbus.Protocol.Transport

/-! Requests over one TCP connection, plain or under TLS. The client numbers its
requests with a 16-bit id and takes the next frame of the stream as the response; a
call that is abandoned leaves the stream where it stands. The server answers whole
requests once, in order, under their ids, whenever it likes and with any PDU that its
length field can announce. -/

namespace InfusedModbus.Client

open Foundation Foundation.Outcome Protocol

/-- A request and its place among the calls of the connection. -/
structure TcpRequest where
  call : ℕ
  transactionId : UInt16
  unitId : UInt8
  pdu : Bytes
  deriving DecidableEq, Repr

structure TcpAnswer where
  request : TcpRequest
  pdu : Bytes
  deriving DecidableEq, Repr

def TcpAnswer.adu (answer : TcpAnswer) : TcpAdu :=
  ⟨answer.request.transactionId, answer.request.unitId, answer.pdu⟩

/-- The bytes of an answer on the stream. -/
def TcpAnswer.frame (answer : TcpAnswer) : Bytes := answer.adu.encode

/-- The connection, with what the server has done so far. `consumed` counts the bytes
of the answers which the client has taken off the stream, `reading` is the call that
waits for its response and what `read_adu` has received for it. -/
structure TcpConnection where
  nextTransactionId : UInt16
  calls : ℕ
  unanswered : List TcpRequest
  answers : List TcpAnswer
  consumed : ℕ
  reading : Option (TcpRequest × Bytes)
  returned : List (TcpRequest × Outcome IoError Bytes)
  deriving DecidableEq, Repr

/-- What can happen next. A request whose write fails or takes too long may have reached
the server all the same. -/
inductive TcpAction where
  | request (unitId : UInt8) (pdu : Bytes)
  | failedWrite (unitId : UInt8) (pdu : Bytes) (delivered : Bool) (error : IoError)
  | answer (pdu : Bytes)
  | receive
  | failedRead (error : IoError)

namespace TcpConnection

def connect : TcpConnection := ⟨0, 0, [], [], 0, none, []⟩

variable (connection : TcpConnection)

/-- The request of the next call. -/
def nextRequest (unitId : UInt8) (pdu : Bytes) : TcpRequest :=
  ⟨connection.calls, connection.nextTransactionId + 1, unitId, pdu⟩

/-- A call takes the next id before anything else. -/
def begin : TcpConnection :=
  { connection with nextTransactionId := connection.nextTransactionId + 1, calls := connection.calls + 1 }

def finish (request : TcpRequest) (result : Outcome IoError Bytes) : TcpConnection :=
  { connection with reading := none, returned := connection.returned ++ [(request, result)] }

/-- The client takes one more byte, and returns when that completes a frame. -/
def received (request : TcpRequest) (bytes : Bytes) : TcpConnection :=
  let connection := { connection with consumed := connection.consumed + 1 }
  match readAdu bytes with
  | none => { connection with reading := some (request, bytes) }
  | some response =>
    connection.finish request ((checkTransactionId request.transactionId response).map TcpAdu.pdu)

def step : TcpAction → Option TcpConnection
  | .request unitId pdu =>
    if connection.reading = none then
      let request := connection.nextRequest unitId pdu
      some { connection.begin with unanswered := connection.unanswered ++ [request], reading := some (request, []) }
    else none
  | .failedWrite unitId pdu delivered error =>
    if connection.reading = none then
      let request := connection.nextRequest unitId pdu
      let unanswered := if delivered then connection.unanswered ++ [request] else connection.unanswered
      some (finish { connection.begin with unanswered := unanswered } request (.err error))
    else none
  | .answer pdu =>
    match connection.unanswered with
    | request :: unanswered =>
      if pdu.length < 65535 then
        some { connection with unanswered := unanswered, answers := connection.answers ++ [⟨request, pdu⟩] }
      else none
    | [] => none
  | .receive =>
    match connection.reading, (wire TcpAnswer.frame connection.answers)[connection.consumed]? with
    | some (request, bytes), some b => some (connection.received request (bytes ++ [b]))
    | _, _ => none
  | .failedRead error =>
    match connection.reading with
    | some (request, _) => some (connection.finish request (.err error))
    | none => none

/-- Every PDU that a call returned is the server's answer to the request of that call. -/
def ResponsesBelong : Prop :=
  ∀ request pdu, (request, .ok pdu) ∈ connection.returned → ⟨request, pdu⟩ ∈ connection.answers

/-- The requests from the `k`-th answer on: answered but not yet read, or not yet answered. -/
def outstanding (k : ℕ) : List TcpRequest :=
  (connection.answers.drop k).map TcpAnswer.request ++ connection.unanswered

/-- A request finds the stream in step: the client stands in front of an answer, and no
request whose answer is still to come has the id that comes next. -/
def InStep : TcpAction → Prop
  | .request _ _ => ∃ k, ReadSince TcpAnswer.frame connection.answers connection.consumed k [] ∧
      ∀ request ∈ connection.outstanding k, request.transactionId ≠ connection.nextTransactionId + 1
  | _ => True

/-! ### The invariant -/

/-- A call that waits for its response has read nothing but the frame it stood in front
of, and among the requests from there on its id is its own. -/
structure Invariant : Prop where
  belong : connection.ResponsesBelong
  fits : ∀ answer ∈ connection.answers, answer.pdu.length < 65535
  inStep : ∀ request bytes, connection.reading = some (request, bytes) →
    ∃ k, ReadSince TcpAnswer.frame connection.answers connection.consumed k bytes ∧
      ∀ other ∈ connection.outstanding k, other.transactionId = request.transactionId → other = request

section Invariant

variable {connection}

theorem invariant_connect : connect.Invariant :=
  ⟨fun _ _ h => (List.not_mem_nil h).elim, fun _ h => (List.not_mem_nil h).elim, fun _ _ h => nomatch h⟩

/-- A call that ends with an error leaves the rest as it is. -/
theorem Invariant.finish_err (h : connection.Invariant) (request : TcpRequest) (error : IoError) :
    (connection.finish request (.err error)).Invariant := by
  refine ⟨fun other pdu hreturned => ?_, h.fits, fun _ _ hreading => by cases hreading⟩
  rcases List.mem_append.mp hreturned with hbefore | hnow
  · exact h.belong other pdu hbefore
  · simp at hnow

theorem Invariant.request (h : connection.Invariant) {unitId : UInt8} {pdu : Bytes}
    (hinStep : connection.InStep (.request unitId pdu)) :
    Invariant { connection.begin with
      unanswered := connection.unanswered ++ [connection.nextRequest unitId pdu]
      reading := some (connection.nextRequest unitId pdu, []) } := by
  refine ⟨h.belong, h.fits, fun request bytes hreading => ?_⟩
  obtain ⟨rfl, rfl⟩ := Prod.mk.inj (Option.some.inj hreading)
  obtain ⟨k, hread, hfresh⟩ := hinStep
  refine ⟨k, hread, fun other hother hid => ?_⟩
  rw [outstanding, ← List.append_assoc] at hother
  rcases List.mem_append.mp hother with hbefore | hnow
  · exact absurd hid (hfresh other hbefore)
  · exact List.mem_singleton.mp hnow

theorem Invariant.answer (h : connection.Invariant) {request : TcpRequest} {unanswered : List TcpRequest} {pdu : Bytes}
    (hunanswered : connection.unanswered = request :: unanswered) (hpdu : pdu.length < 65535) :
    Invariant { connection with unanswered := unanswered, answers := connection.answers ++ [⟨request, pdu⟩] } := by
  refine ⟨fun other pdu' hreturned => ?_, fun answer hanswer => ?_, fun other bytes hreading => ?_⟩
  · exact List.mem_append_left _ (h.belong other pdu' hreturned)
  · rcases List.mem_append.mp hanswer with hbefore | hnow
    · exact h.fits answer hbefore
    · rw [List.mem_singleton.mp hnow]
      exact hpdu
  · obtain ⟨k, hread, hown⟩ := h.inStep other bytes hreading
    refine ⟨k, hread.append _, fun r hr => hown r ?_⟩
    rw [outstanding, List.drop_append_of_le_length hread.le, List.map_append, List.append_assoc] at hr
    rw [outstanding, hunanswered]
    exact hr

/-- The next byte: it completes the answer to this very request, or no answer at all. -/
theorem Invariant.received (h : connection.Invariant) {request : TcpRequest} {bytes : Bytes} {b : UInt8}
    (hreading : connection.reading = some (request, bytes))
    (hb : (wire TcpAnswer.frame connection.answers)[connection.consumed]? = some b) :
    (connection.received request (bytes ++ [b])).Invariant := by
  obtain ⟨k, hread, hown⟩ := h.inStep request bytes hreading
  have hnext := hread.next hb
  unfold TcpConnection.received
  dsimp only
  split
  · refine ⟨h.belong, h.fits, fun other received hother => ?_⟩
    obtain ⟨rfl, rfl⟩ := Prod.mk.inj (Option.some.inj hother)
    exact ⟨k, hnext, hown⟩
  · next response hadu =>
    refine ⟨fun other pdu hreturned => ?_, h.fits, fun _ _ hother => by cases hother⟩
    rcases List.mem_append.mp hreturned with hbefore | hnow
    · exact h.belong other pdu hbefore
    · obtain ⟨rfl, hok⟩ := Prod.mk.inj (List.mem_singleton.mp hnow)
      obtain ⟨adu, hchecked, rfl⟩ := map_eq_ok.mp hok.symm
      obtain ⟨adu', rfl, hid⟩ := bind_eq_ok.mp hchecked
      split at hid
      · cases hid
      · next hsame =>
        obtain rfl := ok.inj hid
        obtain ⟨answer, hanswer, hstart⟩ := hnext.exists_frame (by simp)
        have hmem := List.mem_of_mem_drop hanswer
        obtain rfl := eq_of_readAdu_isPrefix (h.fits answer hmem) hstart hadu
        have hrequest : answer.request = other := by
          refine hown answer.request ?_ (not_not.mp hsame)
          exact List.mem_append_left _ (List.mem_map_of_mem hanswer)
        rw [← hrequest]
        exact hmem

/-- Every step that finds the stream in step keeps the invariant. -/
theorem Invariant.step (h : connection.Invariant) {action : TcpAction} (hinStep : connection.InStep action)
    {after : TcpConnection} (hstep : connection.step action = some after) : after.Invariant := by
  cases action with
  | request unitId pdu =>
    simp only [TcpConnection.step] at hstep
    split at hstep
    · obtain rfl := Option.some.inj hstep
      exact h.request hinStep
    · cases hstep
  | failedWrite unitId pdu delivered error =>
    simp only [TcpConnection.step] at hstep
    split at hstep
    · next hidle =>
      obtain rfl := Option.some.inj hstep
      apply Invariant.finish_err
      exact ⟨h.belong, h.fits, fun _ _ hreading => by cases hidle.symm.trans hreading⟩
    · cases hstep
  | answer pdu =>
    simp only [TcpConnection.step] at hstep
    split at hstep
    · next request unanswered hunanswered =>
      split at hstep
      · next hpdu =>
        obtain rfl := Option.some.inj hstep
        exact h.answer hunanswered hpdu
      · cases hstep
    · cases hstep
  | receive =>
    simp only [TcpConnection.step] at hstep
    split at hstep
    · next request bytes b hreading hb =>
      obtain rfl := Option.some.inj hstep
      exact h.received hreading hb
    · cases hstep
  | failedRead error =>
    simp only [TcpConnection.step] at hstep
    split at hstep
    · obtain rfl := Option.some.inj hstep
      exact h.finish_err _ _
    · cases hstep

end Invariant

/-- In every run whose requests find the stream in step, whatever a call returned is the
answer to its own request. -/
theorem responses_belong {actions : List TcpAction} (hinStep : Permitted step InStep connect actions)
    (hrun : execute step connect actions = some connection) : connection.ResponsesBelong := by
  have hinv : connection.Invariant := by
    apply invariant_of_execute _ invariant_connect hinStep hrun
    exact fun before action after hbefore hpermit hstep => hbefore.step hpermit hstep
  exact hinv.belong

/-! ### Reads of single registers -/

def readRegister (address : UInt8) : Bytes := [0x03, 0, address, 0, 1]

/-- A read is not sent, and the next one is answered. -/
def sentOnce : List TcpAction :=
  [TcpAction.failedWrite 1 (readRegister 0) false .timedOut, .request 1 (readRegister 1), .answer [0x03, 2, 0, 42]] ++
    List.replicate 11 TcpAction.receive

/-- A read gives up before its answer comes, and the next one stands in front of that answer. -/
def abandonedBeforeAnswer : List TcpAction :=
  [TcpAction.request 1 (readRegister 2), .failedRead .timedOut, .answer [0x03, 2, 0, 43],
    .request 1 (readRegister 3)] ++ List.replicate 11 TcpAction.receive

def afterSentOnce : TcpConnection where
  nextTransactionId := 2
  calls := 2
  unanswered := []
  answers := [⟨⟨1, 2, 1, readRegister 1⟩, [0x03, 2, 0, 42]⟩]
  consumed := 11
  reading := none
  returned := [(⟨0, 1, 1, readRegister 0⟩, .err .timedOut), (⟨1, 2, 1, readRegister 1⟩, .ok [0x03, 2, 0, 42])]

theorem execute_sentOnce : execute step connect sentOnce = some afterSentOnce := by
  decide +kernel

theorem inStep_receive (n : ℕ) (connection : TcpConnection) :
    Permitted step InStep connection (List.replicate n .receive) := by
  apply permitted_of_forall
  intro action haction _
  rw [List.eq_of_mem_replicate haction]
  trivial

theorem inStep_sentOnce : Permitted step InStep connect sentOnce := by
  refine permitted_append (permitted_cons trivial rfl (permitted_cons ?_ rfl (permitted_cons trivial rfl trivial))) rfl
    (inStep_receive 11 _)
  exact ⟨0, .start le_rfl rfl, fun _ hrequest => (List.not_mem_nil hrequest).elim⟩

theorem inStep_abandonedBeforeAnswer : Permitted step InStep afterSentOnce abandonedBeforeAnswer := by
  refine permitted_append (permitted_cons ?_ rfl (permitted_cons trivial rfl (permitted_cons trivial rfl
    (permitted_cons ?_ rfl trivial)))) rfl (inStep_receive 11 _)
  · exact ⟨1, .start le_rfl rfl, fun _ hrequest => (List.not_mem_nil hrequest).elim⟩
  · -- the answer in front of it has the id before its own
    refine ⟨1, .start (by decide) rfl, fun request hrequest => ?_⟩
    obtain rfl := List.mem_singleton.mp hrequest
    decide

/-- What the reads end with. -/
def readResults : List (TcpRequest × Outcome IoError Bytes) :=
  [(⟨0, 1, 1, readRegister 0⟩, .err .timedOut), (⟨1, 2, 1, readRegister 1⟩, .ok [0x03, 2, 0, 42]),
    (⟨2, 3, 1, readRegister 2⟩, .err .timedOut),
    (⟨3, 4, 1, readRegister 3⟩, .err ⟨.invalidData, "transaction id mismatch: sent 4, received 3"⟩)]

theorem responses_belong_register : ∃ connection,
    execute step connect (sentOnce ++ abandonedBeforeAnswer) = some connection ∧
      connection.returned = readResults ∧ connection.ResponsesBelong := by
  have hrun : ∃ connection ∈ execute step connect (sentOnce ++ abandonedBeforeAnswer),
      connection.returned = readResults := by
    decide +kernel
  obtain ⟨connection, hexecute, hreturned⟩ := hrun
  exact ⟨connection, hexecute, hreturned, responses_belong _
    (permitted_append inStep_sentOnce execute_sentOnce inStep_abandonedBeforeAnswer) hexecute⟩

/-- The answer to the first read holds five registers. The call gives up after nine of
its bytes; the registers themselves are then taken for the answer to the second. -/
def abandonedInsideAnswer : List TcpAction :=
  [TcpAction.request 1 [0x03, 0, 0, 0, 5], .answer [0x03, 10, 0, 2, 0, 0, 0, 4, 1, 0x06, 0, 0]] ++
    List.replicate 9 TcpAction.receive ++ [TcpAction.failedRead .timedOut, .request 1 [0x06, 0, 9, 0, 7]] ++
    List.replicate 10 TcpAction.receive

theorem abandoned_answer_returned : ∃ connection, execute step connect abandonedInsideAnswer = some connection ∧
    (⟨1, 2, 1, [0x06, 0, 9, 0, 7]⟩, .ok [0x06, 0, 0]) ∈ connection.returned ∧
    ⟨1, 2, 1, [0x06, 0, 9, 0, 7]⟩ ∈ connection.unanswered ∧ ¬connection.ResponsesBelong := by
  have hrun : ∃ connection, execute step connect abandonedInsideAnswer = some connection ∧
      (⟨1, 2, 1, [0x06, 0, 9, 0, 7]⟩, .ok [0x06, 0, 0]) ∈ connection.returned ∧
      ⟨1, 2, 1, [0x06, 0, 9, 0, 7]⟩ ∈ connection.unanswered ∧
      ⟨⟨1, 2, 1, [0x06, 0, 9, 0, 7]⟩, [0x06, 0, 0]⟩ ∉ connection.answers :=
    ⟨_, rfl, by decide, by decide, by decide⟩
  obtain ⟨connection, hexecute, hreturned, hunanswered, hnot⟩ := hrun
  exact ⟨connection, hexecute, hreturned, hunanswered, fun h => hnot (h _ _ hreturned)⟩

end TcpConnection

end InfusedModbus.Client
