import InfusedModbus.Client.WriteConfirmation
import InfusedModbus.Foundation.Execution
import InfusedModbus.Foundation.FrameStream

/-! Writes over one serial line. A frame carries no number that ties it to a request, so
whatever comes back after sending is taken as the response. The device serves whole
requests in order, each at most once and possibly after the client has given up, and
does not answer a request as done unless it has executed it. -/

namespace InfusedModbus.Client

open Foundation Foundation.Outcome Protocol Datafs

/-- What a task asks of the line: a confirmed write, or any other exchange. -/
inductive RtuCommand where
  | exchange (pdu : Bytes)
  | write (register : RegisterDescription) (value : RegisterValue) (memLayout : MemLayout)
  | writeMultiple (startingAddress : UInt16) (values : List UInt16)
  | coilWrite (coil : CoilDescription) (value : CoilValue)
  | coilWriteMultiple (startingAddress : UInt16) (values : List Bool)
  | maskWrite (register : RegisterDescription) (andMask orMask : UInt16)
  deriving DecidableEq, Repr

namespace RtuCommand

def confirmation : RtuCommand → Option Confirmation
  | .exchange _ => none
  | .write register value memLayout => some (confirmWrite register value memLayout)
  | .writeMultiple startingAddress values => some (confirmWriteMultiple startingAddress values)
  | .coilWrite coil value => some (confirmCoilWrite coil value)
  | .coilWriteMultiple startingAddress values => some (confirmCoilWriteMultiple startingAddress values)
  | .maskWrite register andMask orMask => some (confirmMaskWrite register andMask orMask)

def pdu (command : RtuCommand) : Outcome String Bytes :=
  match command with
  | .exchange pdu => .ok pdu
  | command => command.confirmation.elim .panic Confirmation.pdu

/-- A confirmed write looks only for the exception bit. -/
theorem interpret_confirmation {command : RtuCommand} {confirmation : Confirmation}
    (h : command.confirmation = some confirmation) : confirmation.interpret = interpretWriteResponse := by
  cases command with
  | exchange pdu => cases h
  | write register value memLayout =>
    obtain rfl := Option.some.inj h
    rfl
  | writeMultiple startingAddress values =>
    obtain rfl := Option.some.inj h
    rfl
  | coilWrite coil value =>
    obtain rfl := Option.some.inj h
    rfl
  | coilWriteMultiple startingAddress values =>
    obtain rfl := Option.some.inj h
    rfl
  | maskWrite register andMask orMask =>
    obtain rfl := Option.some.inj h
    rfl

end RtuCommand

/-- A command and its place among the calls of the connection. -/
structure RtuRequest where
  call : ℕ
  unitId : UInt8
  command : RtuCommand
  deriving DecidableEq, Repr

structure RtuAnswer where
  request : RtuRequest
  pdu : Bytes
  deriving DecidableEq, Repr

/-- The bytes of an answer on the line. -/
def RtuAnswer.frame (answer : RtuAnswer) : Bytes := RtuAdu.encode ⟨answer.request.unitId, answer.pdu⟩

/-- The line, with what the device has done so far. `consumed` counts the bytes of the
answers which the client has taken off the line, `reading` is the call that waits for
its response and the frame it has read for it. -/
structure RtuConnection where
  calls : ℕ
  unserved : List RtuRequest
  executed : List RtuRequest
  answers : List RtuAnswer
  consumed : ℕ
  reading : Option (RtuRequest × Bytes)
  statuses : List (RtuRequest × Outcome Empty WriteStatus)
  deriving DecidableEq, Repr

/-- What can happen next. A request whose write fails or takes too long may have reached
the device all the same, and an answer may get lost. -/
inductive RtuAction where
  | request (unitId : UInt8) (command : RtuCommand)
  | failedWrite (unitId : UInt8) (command : RtuCommand) (delivered : Bool) (error : IoError)
  | serve (executed : Bool) (answer : Option Bytes)
  | receive
  | wait (result : ReadResult)

namespace RtuConnection

def openRtu : RtuConnection := ⟨0, [], [], [], 0, none, []⟩

variable (connection : RtuConnection)

def begin : RtuConnection := { connection with calls := connection.calls + 1 }

/-- The status of a confirmed write is reported; any other exchange reports none. -/
def finish (request : RtuRequest) (result : Outcome IoError Bytes) : RtuConnection :=
  let statuses := request.command.confirmation.elim [] fun confirmation => [(request, confirmation.conclude result)]
  { connection with reading := none, statuses := connection.statuses ++ statuses }

/-- A command whose PDU cannot be built never reaches the line. -/
def refuse (request : RtuRequest) (reason : String) : RtuConnection :=
  { connection with statuses := connection.statuses ++ [(request, .ok (.failed reason))] }

/-- One wait of the reader is over. -/
def waited (request : RtuRequest) (frame : Bytes) (result : ReadResult) : RtuConnection :=
  match readRtuFrameTurn frame result with
  | .inl frame => { connection with reading := some (request, frame) }
  | .inr frame => connection.finish request ((rtuResponse frame).map RtuAdu.pdu)

def step : RtuAction → Option RtuConnection
  | .request unitId command =>
    if connection.reading = none then
      let request : RtuRequest := ⟨connection.calls, unitId, command⟩
      match command.pdu with
      | .ok _ =>
        some { connection.begin with unserved := connection.unserved ++ [request], reading := some (request, []) }
      | .err reason => some (connection.begin.refuse request reason)
      | .panic => none
    else none
  | .failedWrite unitId command delivered error =>
    if connection.reading = none then
      let request : RtuRequest := ⟨connection.calls, unitId, command⟩
      let unserved := if delivered then connection.unserved ++ [request] else connection.unserved
      some (finish { connection.begin with unserved := unserved } request (.err error))
    else none
  | .serve executed answer =>
    match connection.unserved with
    | request :: unserved =>
      if executed = false → ∀ pdu ∈ answer, IsExceptionPdu pdu then
        some { connection with
          unserved := unserved
          executed := if executed then connection.executed ++ [request] else connection.executed
          answers := connection.answers ++ (answer.map (RtuAnswer.mk request)).toList }
      else none
    | [] => none
  | .receive =>
    match connection.reading, (wire RtuAnswer.frame connection.answers)[connection.consumed]? with
    | some (request, frame), some b =>
      some (waited { connection with consumed := connection.consumed + 1 } request frame (.byte b))
    | _, _ => none
  | .wait result =>
    match connection.reading with
    | some (request, frame) => if result.isByte then none else some (connection.waited request frame result)
    | none => none

/-- Every confirmed write has been executed. -/
def ConfirmedAreExecuted : Prop :=
  ∀ request, (request, .ok .ok) ∈ connection.statuses → request ∈ connection.executed

/-- The requests from the `k`-th answer on: answered but not yet read, or not yet served. -/
def outstanding (k : ℕ) : List RtuRequest :=
  (connection.answers.drop k).map RtuAnswer.request ++ connection.unserved

/-- A request finds the line quiet: no earlier request is left that the device may still
serve, and no byte of an earlier answer is left to read. -/
def Quiet : RtuAction → Prop
  | .request _ command => ∀ pdu, command.pdu = .ok pdu →
      connection.unserved = [] ∧ connection.consumed = (wire RtuAnswer.frame connection.answers).length
  | _ => True

/-! ### The invariant -/

/-- A device does not answer what it has not executed, and a call that waits for its
response can only read the answer to its own request. -/
structure Invariant : Prop where
  confirmed : connection.ConfirmedAreExecuted
  honest : ∀ answer ∈ connection.answers, IsExceptionPdu answer.pdu ∨ answer.request ∈ connection.executed
  alone : ∀ request frame, connection.reading = some (request, frame) →
    ∃ k, ReadSince RtuAnswer.frame connection.answers connection.consumed k frame ∧
      (connection.outstanding k).Sublist [request]

section Invariant

variable {connection}

/-- Even a piece of an exception response is never taken for a success. -/
theorem not_isExceptionPdu_of_start {answer : RtuAnswer} {frame : Bytes} {adu : RtuAdu}
    (hstart : frame <+: answer.frame) (hdecode : RtuAdu.decode frame = .ok adu)
    (hstatus : interpretWriteResponse adu.pdu = .ok .ok) : ¬IsExceptionPdu answer.pdu := by
  obtain ⟨hne, hnot⟩ := interpretWriteResponse_eq_ok hstatus
  have hlen : frame.length - rtuCrcLen ≤ (answer.request.unitId :: answer.pdu).length := by
    have hle := hstart.length_le
    rw [RtuAnswer.frame, RtuAdu.length_encode] at hle
    simp only [rtuCrcLen, List.length_cons] at hle ⊢
    omega
  have hpdu : adu.unitId :: adu.pdu <+: answer.request.unitId :: answer.pdu := by
    rw [RtuAdu.eq_of_decode_eq_ok hdecode]
    refine List.prefix_of_prefix_length_le ((List.take_prefix _ _).trans hstart) ?_ ?_
    · exact List.prefix_append _ _
    · exact (List.length_take_le _ _).trans hlen
  obtain ⟨rest, hrest⟩ := (List.cons_prefix_cons.mp hpdu).2
  rintro ⟨functionCode, hcode, hbit⟩
  refine hnot ⟨functionCode, ?_, hbit⟩
  rw [← hrest, List.head?_append_of_ne_nil _ hne] at hcode
  exact hcode

theorem invariant_openRtu : openRtu.Invariant :=
  ⟨fun _ h => (List.not_mem_nil h).elim, fun _ h => (List.not_mem_nil h).elim, fun _ _ h => nomatch h⟩

/-- A call may end as soon as its success would be true. -/
theorem invariant_finish (hconfirmed : connection.ConfirmedAreExecuted)
    (hhonest : ∀ answer ∈ connection.answers, IsExceptionPdu answer.pdu ∨ answer.request ∈ connection.executed)
    {request : RtuRequest} {result : Outcome IoError Bytes}
    (hresult : ∀ pdu, result = .ok pdu → interpretWriteResponse pdu = .ok .ok → request ∈ connection.executed) :
    (connection.finish request result).Invariant := by
  refine ⟨fun other hother => ?_, hhonest, fun _ _ hreading => nomatch hreading⟩
  rcases List.mem_append.mp hother with hbefore | hnow
  · exact hconfirmed other hbefore
  · cases hconfirmation : request.command.confirmation with
    | none =>
      rw [hconfirmation] at hnow
      exact (List.not_mem_nil hnow).elim
    | some confirmation =>
      rw [hconfirmation] at hnow
      obtain ⟨rfl, hstatus⟩ := Prod.mk.inj (List.mem_singleton.mp hnow)
      cases result with
      | ok pdu =>
        refine hresult pdu rfl ?_
        rw [← RtuCommand.interpret_confirmation hconfirmation]
        exact hstatus.symm
      | err error => cases hstatus
      | panic => cases hstatus

theorem Invariant.request (h : connection.Invariant) {unitId : UInt8} {command : RtuCommand}
    (hunserved : connection.unserved = [])
    (hconsumed : connection.consumed = (wire RtuAnswer.frame connection.answers).length) :
    Invariant { connection.begin with
      unserved := connection.unserved ++ [⟨connection.calls, unitId, command⟩]
      reading := some (⟨connection.calls, unitId, command⟩, []) } := by
  refine ⟨h.confirmed, h.honest, fun request frame hreading => ?_⟩
  obtain ⟨rfl, rfl⟩ := Prod.mk.inj (Option.some.inj hreading)
  refine ⟨connection.answers.length, .start le_rfl (hconsumed.trans ?_), ?_⟩
  · exact congrArg (fun answers => (wire RtuAnswer.frame answers).length) List.take_length.symm
  · simp [outstanding, begin, hunserved]

theorem Invariant.refuse (h : connection.Invariant) (request : RtuRequest) (reason : String)
    (hidle : connection.reading = none) : (connection.begin.refuse request reason).Invariant := by
  refine ⟨fun other hother => ?_, h.honest, fun _ _ hreading => by cases hidle.symm.trans hreading⟩
  rcases List.mem_append.mp hother with hbefore | hnow
  · exact h.confirmed other hbefore
  · obtain ⟨-, hstatus⟩ := Prod.mk.inj (List.mem_singleton.mp hnow)
    cases hstatus

/-- Serving a request moves it to the answers, or drops it. -/
theorem Invariant.serve (h : connection.Invariant) {request : RtuRequest} {unserved : List RtuRequest}
    (hunserved : connection.unserved = request :: unserved) {executed : Bool} {answer : Option Bytes}
    (hhonest : executed = false → ∀ pdu ∈ answer, IsExceptionPdu pdu) :
    Invariant { connection with
      unserved := unserved
      executed := if executed then connection.executed ++ [request] else connection.executed
      answers := connection.answers ++ (answer.map (RtuAnswer.mk request)).toList } := by
  have hgrows : ∀ other ∈ connection.executed,
      other ∈ if executed then connection.executed ++ [request] else connection.executed := by
    intro other hother
    split
    · exact List.mem_append_left _ hother
    · exact hother
  refine ⟨fun other hother => hgrows other (h.confirmed other hother), fun other hother => ?_,
    fun reader frame hreading => ?_⟩
  · rcases List.mem_append.mp hother with hbefore | hnow
    · exact (h.honest other hbefore).imp_right (hgrows other.request)
    · rw [Option.mem_toList, Option.map_eq_some_iff] at hnow
      obtain ⟨pdu, hpdu, rfl⟩ := hnow
      cases executed with
      | false => exact .inl (hhonest rfl pdu hpdu)
      | true => exact .inr (List.mem_append_right _ List.mem_cons_self)
  · obtain ⟨k, hread, halone⟩ := h.alone reader frame hreading
    refine ⟨k, hread.append _, List.Sublist.trans ?_ halone⟩
    rw [outstanding, outstanding, hunserved, List.drop_append_of_le_length hread.le, List.map_append,
      List.append_assoc]
    refine List.Sublist.append_left ?_ _
    cases answer with
    | none => exact List.sublist_cons_self _ _
    | some pdu => exact List.Sublist.refl _

/-- The frame that a call has read is a piece of the answer to its own request. -/
theorem Invariant.executed_of_frame (h : connection.Invariant) {request : RtuRequest} {frame : Bytes} {k : ℕ}
    (hread : ReadSince RtuAnswer.frame connection.answers connection.consumed k frame)
    (halone : (connection.outstanding k).Sublist [request]) {adu : RtuAdu} (hdecode : RtuAdu.decode frame = .ok adu)
    (hstatus : interpretWriteResponse adu.pdu = .ok .ok) : request ∈ connection.executed := by
  have hne : frame ≠ [] := by
    rintro rfl
    cases hdecode
  obtain ⟨answer, hanswer, hstart⟩ := hread.exists_frame hne
  have hdrop : connection.answers.drop k = [answer] ∧ answer.request = request := by
    have hrequests : ((connection.answers.drop k).map RtuAnswer.request).Sublist [request] :=
      (List.sublist_append_left _ _).trans halone
    obtain ⟨only, honly⟩ := List.length_eq_one_iff.mp (show (connection.answers.drop k).length = 1 by
      have hle := hrequests.length_le
      have hpos := List.length_pos_of_mem hanswer
      simp only [List.length_map, List.length_singleton] at hle
      omega)
    rw [honly] at hanswer hrequests ⊢
    obtain rfl := List.mem_singleton.mp hanswer
    exact ⟨rfl, List.mem_singleton.mp (hrequests.subset List.mem_cons_self)⟩
  rw [← List.drop_drop, hdrop.1] at hstart
  have hpiece : frame <+: answer.frame := by
    simpa [wire] using hstart
  rw [← hdrop.2]
  exact (h.honest answer (List.mem_of_mem_drop hanswer)).resolve_left
    (not_isExceptionPdu_of_start hpiece hdecode hstatus)

/-- One more byte of the answer, or a frame that gets too long. -/
theorem Invariant.received (h : connection.Invariant) {request : RtuRequest} {frame : Bytes} {b : UInt8}
    (hreading : connection.reading = some (request, frame))
    (hb : (wire RtuAnswer.frame connection.answers)[connection.consumed]? = some b) :
    (waited { connection with consumed := connection.consumed + 1 } request frame (.byte b)).Invariant := by
  obtain ⟨k, hread, halone⟩ := h.alone request frame hreading
  unfold RtuConnection.waited readRtuFrameTurn
  dsimp only
  by_cases hlong : rtuMaxFrameLen < (frame ++ [b]).length
  · rw [if_pos hlong]
    apply invariant_finish
    · exact h.confirmed
    · exact h.honest
    · exact fun _ hok => nomatch hok
  · rw [if_neg hlong]
    refine ⟨h.confirmed, h.honest, fun other frame' hother => ?_⟩
    obtain ⟨rfl, rfl⟩ := Prod.mk.inj (Option.some.inj hother)
    exact ⟨k, hread.next hb, halone⟩

/-- A silence ends the frame; so does the end of the stream. -/
theorem Invariant.waited (h : connection.Invariant) {request : RtuRequest} {frame : Bytes} {result : ReadResult}
    (hreading : connection.reading = some (request, frame)) (hresult : result.isByte = false) :
    (connection.waited request frame result).Invariant := by
  obtain ⟨k, hread, halone⟩ := h.alone request frame hreading
  have hend : ∀ outcome, (∀ frame', outcome = .ok frame' → frame' = frame) →
      (connection.finish request ((rtuResponse outcome).map RtuAdu.pdu)).Invariant := by
    intro outcome houtcome
    apply invariant_finish h.confirmed h.honest
    intro pdu hok hstatus
    obtain ⟨adu, hresponse, rfl⟩ := map_eq_ok.mp hok
    obtain ⟨frame', hok', hdecode⟩ := bind_eq_ok.mp hresponse
    obtain rfl := houtcome frame' hok'
    exact h.executed_of_frame hread halone (mapErr_eq_ok.mp hdecode) hstatus
  unfold RtuConnection.waited readRtuFrameTurn
  cases result with
  | byte b => cases hresult
  | closed =>
    by_cases hempty : frame = []
    · simp only [hempty, if_true]
      apply hend
      exact fun _ hok => nomatch hok
    · simp only [hempty, if_false]
      apply hend
      exact fun _ hok => (ok.inj hok).symm
  | elapsed =>
    by_cases hempty : frame = []
    · simp only [hempty, if_true]
      apply hend
      exact fun _ hok => nomatch hok
    · simp only [hempty, if_false]
      apply hend
      exact fun _ hok => (ok.inj hok).symm
  | failed error =>
    apply hend
    exact fun _ hok => nomatch hok

/-- Every step that finds the line quiet keeps the invariant. -/
theorem Invariant.step (h : connection.Invariant) {action : RtuAction} (hquiet : connection.Quiet action)
    {after : RtuConnection} (hstep : connection.step action = some after) : after.Invariant := by
  cases action with
  | request unitId command =>
    simp only [RtuConnection.step] at hstep
    split at hstep
    · next hidle =>
      split at hstep
      · next pdu hpdu =>
        obtain rfl := Option.some.inj hstep
        obtain ⟨hunserved, hconsumed⟩ := hquiet pdu hpdu
        exact h.request hunserved hconsumed
      · obtain rfl := Option.some.inj hstep
        exact h.refuse _ _ hidle
      · cases hstep
    · cases hstep
  | failedWrite unitId command delivered error =>
    simp only [RtuConnection.step] at hstep
    split at hstep
    · obtain rfl := Option.some.inj hstep
      apply invariant_finish
      · exact h.confirmed
      · exact h.honest
      · exact fun _ hok => nomatch hok
    · cases hstep
  | serve executed answer =>
    simp only [RtuConnection.step] at hstep
    split at hstep
    · next request unserved hunserved =>
      split at hstep
      · next hhonest =>
        obtain rfl := Option.some.inj hstep
        exact h.serve hunserved hhonest
      · cases hstep
    · cases hstep
  | receive =>
    simp only [RtuConnection.step] at hstep
    split at hstep
    · next request frame b hreading hb =>
      obtain rfl := Option.some.inj hstep
      exact h.received hreading hb
    · cases hstep
  | wait result =>
    simp only [RtuConnection.step] at hstep
    split at hstep
    · next request frame hreading =>
      split at hstep
      · cases hstep
      · next hresult =>
        obtain rfl := Option.some.inj hstep
        exact h.waited hreading (Bool.eq_false_of_not_eq_true hresult)
    · cases hstep

end Invariant

/-- In every run whose requests find the line quiet, every write reported as done has
been executed. -/
theorem confirmed_are_executed {actions : List RtuAction} (hquiet : Permitted step Quiet openRtu actions)
    (hrun : execute step openRtu actions = some connection) : connection.ConfirmedAreExecuted := by
  have hinv : connection.Invariant := by
    apply invariant_of_execute _ invariant_openRtu hquiet hrun
    exact fun before action after hbefore hpermit hstep => hbefore.step hpermit hstep
  exact hinv.confirmed

/-! ### One coil -/

def valve : CoilDescription := ⟨"valve", 5⟩

def pollValve : RtuCommand := .exchange [0x01, 0, 5, 0, 1]

/-- A poll of the coil gives up, and its answer gets lost; the next one is answered. -/
def polledTwice : List RtuAction :=
  [RtuAction.request 1 pollValve, .wait .elapsed, .serve true none, .request 1 pollValve,
    .serve true (some [0x01, 1, 0])] ++ (List.replicate 6 RtuAction.receive ++ [RtuAction.wait .elapsed])

/-- The coil is switched on, and the device echoes the request. -/
def switchOn : List RtuAction :=
  [RtuAction.request 1 (.coilWrite valve ⟨true⟩), .serve true (some [0x05, 0, 5, 0xFF, 0])] ++
    (List.replicate 8 RtuAction.receive ++ [RtuAction.wait .elapsed])

def afterPolledTwice : RtuConnection where
  calls := 2
  unserved := []
  executed := [⟨0, 1, pollValve⟩, ⟨1, 1, pollValve⟩]
  answers := [⟨⟨1, 1, pollValve⟩, [0x01, 1, 0]⟩]
  consumed := 6
  reading := none
  statuses := []

theorem execute_polledTwice : execute step openRtu polledTwice = some afterPolledTwice := by
  decide +kernel

theorem quiet_receive (n : ℕ) (connection : RtuConnection) :
    Permitted step Quiet connection (List.replicate n .receive ++ [.wait .elapsed]) := by
  apply permitted_of_forall
  intro action haction _
  rcases List.mem_append.mp haction with hreceive | hwait
  · rw [List.eq_of_mem_replicate hreceive]
    trivial
  · rw [List.mem_singleton.mp hwait]
    trivial

theorem quiet_polledTwice : Permitted step Quiet openRtu polledTwice := by
  refine permitted_append (permitted_cons (fun _ _ => ⟨rfl, rfl⟩) rfl (permitted_cons trivial rfl
    (permitted_cons trivial rfl (permitted_cons ?_ rfl (permitted_cons trivial rfl trivial))))) rfl (quiet_receive 6 _)
  exact fun _ _ => ⟨rfl, rfl⟩

theorem quiet_switchOn : Permitted step Quiet afterPolledTwice switchOn := by
  refine permitted_append (permitted_cons (fun _ _ => ⟨rfl, ?_⟩) rfl (permitted_cons trivial rfl trivial)) rfl
    (quiet_receive 8 _)
  decide +kernel

theorem confirmed_are_executed_coil : ∃ connection, execute step openRtu (polledTwice ++ switchOn) = some connection ∧
    connection.statuses = [(⟨2, 1, .coilWrite valve ⟨true⟩⟩, .ok .ok)] ∧ connection.ConfirmedAreExecuted := by
  have hrun : ∃ connection ∈ execute step openRtu (polledTwice ++ switchOn),
      connection.statuses = [(⟨2, 1, .coilWrite valve ⟨true⟩⟩, .ok .ok)] := by
    decide +kernel
  obtain ⟨connection, hexecute, hstatuses⟩ := hrun
  exact ⟨connection, hexecute, hstatuses, confirmed_are_executed _
    (permitted_append quiet_polledTwice execute_polledTwice quiet_switchOn) hexecute⟩

/-- A poll of the coil gives up, and its answer comes while the write waits for its own. -/
def latePoll : List RtuAction :=
  [RtuAction.request 1 pollValve, .wait .elapsed, .request 1 (.coilWrite valve ⟨true⟩),
    .serve true (some [0x01, 1, 0])] ++ List.replicate 6 RtuAction.receive ++ [RtuAction.wait .elapsed]

theorem late_poll_confirms_write : ∃ connection, execute step openRtu latePoll = some connection ∧
    (⟨1, 1, .coilWrite valve ⟨true⟩⟩, .ok .ok) ∈ connection.statuses ∧
    ⟨1, 1, .coilWrite valve ⟨true⟩⟩ ∈ connection.unserved ∧ ¬connection.ConfirmedAreExecuted := by
  have hrun : ∃ connection ∈ execute step openRtu latePoll,
      (⟨1, 1, .coilWrite valve ⟨true⟩⟩, .ok .ok) ∈ connection.statuses ∧
      ⟨1, 1, .coilWrite valve ⟨true⟩⟩ ∈ connection.unserved ∧
      ⟨1, 1, .coilWrite valve ⟨true⟩⟩ ∉ connection.executed := by
    decide +kernel
  obtain ⟨connection, hexecute, hstatus, hunserved, hnot⟩ := hrun
  exact ⟨connection, hexecute, hstatus, hunserved, fun h => hnot (h _ hstatus)⟩

end RtuConnection

end InfusedModbus.Client
