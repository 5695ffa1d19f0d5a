import InfusedModbus.Foundation.Execution
import InfusedModbus.Protocol.RtuChecksum
import InfusedModbus.Server.TcpService

/-! Serving one serial line. Frames are told apart by silence alone; one that cannot be
read or decoded is logged, and the server reads on for the next. Nothing that was on the
line before a silence has any effect behind it, so the requests that are handled are
those which arrive as they were sent. -/

namespace InfusedModbus.Server

open Foundation Foundation.Outcome Protocol Datafs

/-- What is going on at the port. -/
inductive PortPhase where
  | reading (frame : Bytes)
  | writing (response : Bytes)

/-- The server of a port: the stores, what was put to them with what came of it, and of
every response the bytes that went out. -/
structure RtuService where
  handle : ServerHandle
  phase : PortPhase
  turns : List (ServiceTurn Unit Event Reply RtuAdu)
  written : List Bytes

/-- A local write, a wait of the reader that is over, or a response of which that many
bytes could be written in time. -/
inductive PortAction where
  | direct (event : Event)
  | wait (result : ReadResult)
  | wrote (count : ℕ)

def PortAction.directOf : PortAction → Option Event
  | .direct event => some event
  | _ => none

def PortAction.waitOf : PortAction → Option ReadResult
  | .wait result => some result
  | _ => none

/-- The frame of a response; none where the handler stays silent. -/
def rtuResponseFrame (request : RtuAdu) : Reply → Option Bytes
  | .response (.ok (some pdu)) => some (RtuAdu.encode ⟨request.unitId, pdu⟩)
  | _ => none

namespace RtuService

variable (service : RtuService)

def requests : List RtuAdu := (service.turns.filterMap (ServiceTurn.exchangeOf ())).map Prod.fst

/-- The responses, in the order of their requests. -/
def responses : List Bytes :=
  (service.turns.filterMap (ServiceTurn.exchangeOf ())).filterMap fun exchange => rtuResponseFrame exchange.1 exchange.2

/-- The part of a frame that was read so far. -/
def pending : Bytes :=
  match service.phase with
  | .reading frame => frame
  | .writing _ => []

/-- The response that is being written. -/
def unwritten : List Bytes :=
  match service.phase with
  | .reading _ => []
  | .writing response => [response]

end RtuService

/-- The stores get an input of the port. -/
def rtuInput : ServiceTurn Unit Event Reply RtuAdu → Event
  | .direct event _ => event
  | .exchange _ request _ => .request request.unitId request.pdu

/-- The local write of a turn. -/
def directTurn : ServiceTurn Unit Event Reply RtuAdu → Option Event
  | .direct event _ => some event
  | .exchange _ _ _ => none

namespace ServerProcess

variable (process : ServerProcess)

def openRtu : RtuService := ⟨process.start, .reading [], [], []⟩

def handleFrame (service : RtuService) (result : Outcome IoError RtuAdu) : RtuService :=
  match result with
  | .ok request =>
    let (handle, reply) := process.step service.handle (.request request.unitId request.pdu)
    { service with
      handle := handle
      phase := (rtuResponseFrame request reply).elim (.reading []) .writing
      turns := service.turns ++ [.exchange () request reply] }
  | _ => { service with phase := .reading [] }

def serveRtu (service : RtuService) : PortAction → Option RtuService
  | .direct event =>
    let (handle, reply) := process.step service.handle event
    some { service with handle := handle, turns := service.turns ++ [.direct event reply] }
  | .wait result =>
    match service.phase with
    | .reading frame =>
      match readRtuFrameTurn frame result with
      | .inl frame => some { service with phase := .reading frame }
      | .inr frame => some (process.handleFrame service (rtuResponse frame))
    | .writing _ => none
  | .wrote count =>
    match service.phase with
    | .reading _ => none
    | .writing response =>
      some { service with phase := .reading [], written := service.written ++ [response.take count] }

end ServerProcess

/-! ### The frames on the line -/

/-- The reader goes on with its frame, or starts over behind it. -/
def readTurn (frame : Bytes) (result : ReadResult) : Bytes × Option (Outcome IoError Bytes) :=
  match readRtuFrameTurn frame result with
  | .inl frame => (frame, none)
  | .inr frame => ([], some frame)

def requestIn : Option (Outcome IoError Bytes) → Option RtuAdu
  | some frame =>
    match rtuResponse frame with
    | .ok request => some request
    | _ => none
  | none => none

/-- Frames with a silence behind each. -/
def silenced (frames : List Bytes) : List ReadResult := frames.flatMap fun frame => frame.map .byte ++ [.elapsed]

theorem run_readTurn_bytes {frame bytes : Bytes} (h : (frame ++ bytes).length ≤ rtuMaxFrameLen) :
    run readTurn frame (bytes.map .byte) = (frame ++ bytes, List.replicate bytes.length none) := by
  induction bytes generalizing frame with
  | nil => simp
  | cons b bytes ih =>
    have hgrown : (frame ++ [b] ++ bytes).length ≤ rtuMaxFrameLen := by simpa using h
    have hshort : ¬rtuMaxFrameLen < (frame ++ [b]).length := by
      rw [List.length_append] at hgrown
      omega
    have hturn : readTurn frame (.byte b) = (frame ++ [b], none) := by
      rw [readTurn, readRtuFrameTurn, if_neg hshort]
    rw [List.map_cons, run_cons, hturn, ih hgrown, List.append_assoc]
    rfl

/-- A silence ends the frame, whatever is in it. -/
theorem readTurn_elapsed (frame : Bytes) :
    ∃ result, readTurn frame .elapsed = ([], some result) ∧
      requestIn (some result) = requestIn (some (.ok frame)) := by
  by_cases hnil : frame = []
  · refine ⟨.err .timedOut, by rw [readTurn, readRtuFrameTurn, if_pos hnil], ?_⟩
    rw [hnil]
    rfl
  · exact ⟨.ok frame, by rw [readTurn, readRtuFrameTurn, if_neg hnil], rfl⟩

theorem run_readTurn_silenced {frames : List Bytes} (h : ∀ frame ∈ frames, frame.length ≤ rtuMaxFrameLen) :
    (run readTurn [] (silenced frames)).1 = [] ∧
      (run readTurn [] (silenced frames)).2.filterMap requestIn =
        frames.filterMap fun frame => requestIn (some (.ok frame)) := by
  induction frames with
  | nil => exact ⟨rfl, rfl⟩
  | cons frame frames ih =>
    obtain ⟨hframe, hframes⟩ := List.forall_mem_cons.mp h
    obtain ⟨hpending, hrequests⟩ := ih hframes
    obtain ⟨result, hturn, hresult⟩ := readTurn_elapsed frame
    have hnone : (List.replicate frame.length (none : Option (Outcome IoError Bytes))).filterMap requestIn = [] :=
      List.filterMap_eq_nil_iff.mpr fun outcome houtcome => by rw [List.eq_of_mem_replicate houtcome]; rfl
    rw [silenced, List.flatMap_cons, ← silenced, run_append_inputs, run_append_inputs,
      run_readTurn_bytes (by simpa using hframe),
      run_cons, run_nil, List.nil_append, hturn]
    refine ⟨hpending, ?_⟩
    rw [List.filterMap_append, List.filterMap_append, hnone, hrequests, List.filterMap_cons, List.filterMap_nil,
      hresult,
      List.filterMap_cons]
    cases requestIn (some (.ok frame)) with
    | none => rfl
    | some request => rfl

/-! ### What the server makes of them -/

namespace ServerProcess

variable {process : ServerProcess} {service service' : RtuService}

theorem pending_handleFrame (result : Outcome IoError RtuAdu) : (process.handleFrame service result).pending = [] := by
  unfold handleFrame
  split
  · next request =>
    obtain ⟨handle, reply⟩ := process.step service.handle (.request request.unitId request.pdu)
    unfold RtuService.pending
    dsimp only
    cases rtuResponseFrame request reply with
    | none => rfl
    | some response => rfl
  · rfl

theorem requests_handleFrame (frame : Outcome IoError Bytes) :
    (process.handleFrame service (rtuResponse frame)).requests =
      service.requests ++ (requestIn (some frame)).toList := by
  unfold handleFrame requestIn RtuService.requests
  dsimp only
  cases rtuResponse frame with
  | ok request => simp [ServiceTurn.exchangeOf]
  | err e => simp
  | panic => simp

/-- An action moves the reader on exactly when it is a wait of the reader. -/
theorem reader_of_serveRtu {action : PortAction} (h : process.serveRtu service action = some service') :
    service'.pending = (run readTurn service.pending action.waitOf.toList).1 ∧
      service'.requests =
        service.requests ++ (run readTurn service.pending action.waitOf.toList).2.filterMap requestIn := by
  cases action with
  | direct event =>
    obtain rfl := Option.some.inj h
    exact ⟨rfl, by simp [RtuService.requests, PortAction.waitOf, ServiceTurn.exchangeOf]⟩
  | wait result =>
    simp only [serveRtu] at h
    split at h
    · next frame hphase =>
      have hpending : service.pending = frame := by rw [RtuService.pending, hphase]
      simp only [PortAction.waitOf, Option.toList_some, run_cons, run_nil, hpending]
      split at h
      · next frame' hturn =>
        obtain rfl := Option.some.inj h
        rw [readTurn, hturn]
        exact ⟨rfl, by simp [RtuService.requests, requestIn]⟩
      · next outcome hturn =>
        obtain rfl := Option.some.inj h
        rw [readTurn, hturn]
        refine ⟨pending_handleFrame _, (requests_handleFrame outcome).trans ?_⟩
        rw [List.filterMap_cons]
        cases requestIn (some outcome) with
        | none => rfl
        | some request => rfl
    · cases h
  | wrote count =>
    simp only [serveRtu] at h
    split at h
    · cases h
    · next response hphase =>
      obtain rfl := Option.some.inj h
      exact ⟨by simp [RtuService.pending, hphase, PortAction.waitOf], by simp [RtuService.requests, PortAction.waitOf]⟩

/-- What the reader makes of a run is what it makes of the waits in it. -/
theorem reader_of_execute {actions : List PortAction} (h : execute process.serveRtu service actions = some service') :
    service'.pending = (run readTurn service.pending (actions.filterMap PortAction.waitOf)).1 ∧
      service'.requests = service.requests ++
        (run readTurn service.pending (actions.filterMap PortAction.waitOf)).2.filterMap requestIn := by
  induction actions generalizing service with
  | nil =>
    obtain rfl := Option.some.inj h
    exact ⟨rfl, (List.append_nil _).symm⟩
  | cons action actions ih =>
    obtain ⟨between, hstep, hrest⟩ := execute_cons_eq_some.mp h
    obtain ⟨hpending, hrequests⟩ := reader_of_serveRtu hstep
    obtain ⟨hpending', hrequests'⟩ := ih hrest
    have hwaits : (action :: actions).filterMap PortAction.waitOf =
        action.waitOf.toList ++ actions.filterMap PortAction.waitOf := by
      cases action <;> rfl
    rw [hwaits, run_append_inputs, ← hpending, List.filterMap_append, ← List.append_assoc, ← hrequests]
    exact ⟨hpending', hrequests'⟩

/-- The stores have worked through one sequence of inputs, the local writes of the run in
their order among them, and every response went out as far as its write came. -/
structure WorkedThrough (process : ServerProcess) (directs : List Event) (service : RtuService) : Prop where
  ran : run process.step process.start (service.turns.map rtuInput) =
    (service.handle, service.turns.map ServiceTurn.output)
  directs : service.turns.filterMap directTurn = directs
  written : ∃ finished, service.responses = finished ++ service.unwritten ∧
    List.Forall₂ (· <+: ·) service.written finished

theorem workedThrough_openRtu : process.WorkedThrough [] process.openRtu :=
  ⟨rfl, rfl, [], rfl, .nil⟩

/-- An input of the stores, whatever it came from. -/
theorem WorkedThrough.ran_append {directs : List Event} (h : process.WorkedThrough directs service)
    (turn : ServiceTurn Unit Event Reply RtuAdu)
    (hturn : (process.step service.handle (rtuInput turn)).2 = turn.output) :
    run process.step process.start ((service.turns ++ [turn]).map rtuInput) =
      ((process.step service.handle (rtuInput turn)).1, (service.turns ++ [turn]).map ServiceTurn.output) := by
  rw [List.map_append, run_append_inputs, h.ran, List.map_append]
  simp [hturn]

theorem WorkedThrough.serveRtu {directs : List Event} {action : PortAction} (h : process.WorkedThrough directs service)
    (hstep : process.serveRtu service action = some service') :
    process.WorkedThrough (directs ++ action.directOf.toList) service' := by
  obtain ⟨finished, hresponses, hwritten⟩ := h.written
  cases action with
  | direct event =>
    obtain rfl := Option.some.inj hstep
    refine ⟨h.ran_append (.direct event _) rfl, ?_, finished, ?_, hwritten⟩
    · rw [List.filterMap_append, h.directs]
      rfl
    · rw [RtuService.responses, List.filterMap_append]
      exact (congrArg _ (List.append_nil _)).trans hresponses
  | wait result =>
    simp only [ServerProcess.serveRtu] at hstep
    split at hstep
    · next frame hphase =>
      have hnone : service.unwritten = [] := by rw [RtuService.unwritten, hphase]
      rw [hnone, List.append_nil] at hresponses
      simp only [PortAction.directOf, Option.toList_none, List.append_nil]
      split at hstep
      · obtain rfl := Option.some.inj hstep
        exact ⟨h.ran, h.directs, finished, hresponses.trans (List.append_nil _).symm, hwritten⟩
      · next outcome hturn =>
        obtain rfl := Option.some.inj hstep
        unfold handleFrame
        split
        · next request hrequest =>
          refine ⟨h.ran_append (.exchange () request _) rfl, ?_, finished, ?_, hwritten⟩
          · rw [List.filterMap_append, h.directs]
            exact List.append_nil _
          · rw [← hresponses]
            simp only [RtuService.responses, RtuService.unwritten, List.filterMap_append]
            cases hresponse : rtuResponseFrame request
                (process.step service.handle (.request request.unitId request.pdu)).2 with
            | none => simp [ServiceTurn.exchangeOf, hresponse]
            | some response => simp [ServiceTurn.exchangeOf, hresponse]
        · exact ⟨h.ran, h.directs, finished, hresponses.trans (List.append_nil _).symm, hwritten⟩
    · cases hstep
  | wrote count =>
    simp only [ServerProcess.serveRtu] at hstep
    split at hstep
    · cases hstep
    · next response hphase =>
      obtain rfl := Option.some.inj hstep
      have hone : service.unwritten = [response] := by rw [RtuService.unwritten, hphase]
      rw [hone] at hresponses
      refine ⟨h.ran, h.directs.trans (List.append_nil _).symm, finished ++ [response],
        hresponses.trans (List.append_nil _).symm, ?_⟩
      exact List.rel_append hwritten (.cons (List.take_prefix _ _) .nil)

theorem workedThrough_of_execute {directs : List Event} {actions : List PortAction}
    (h : process.WorkedThrough directs service) (hrun : execute process.serveRtu service actions = some service') :
    process.WorkedThrough (directs ++ actions.filterMap PortAction.directOf) service' := by
  induction actions generalizing service directs with
  | nil =>
    obtain rfl := Option.some.inj hrun
    exact (List.append_nil directs).symm ▸ h
  | cons action actions ih =>
    obtain ⟨between, hstep, hrest⟩ := execute_cons_eq_some.mp hrun
    have hdirects : (action :: actions).filterMap PortAction.directOf =
        action.directOf.toList ++ actions.filterMap PortAction.directOf := by
      cases action <;> rfl
    rw [hdirects, ← List.append_assoc]
    exact ih (h.serveRtu hstep) hrest

end ServerProcess

/-! ### A disturbed line -/

/-- A frame as it was sent and as it was heard: unchanged, or changed in one burst or in
an odd number of bits. -/
structure Transmission where
  sent : RtuAdu
  heard : Bytes
  fits : sent.pdu.length ≤ 253
  length : heard.length = sent.encode.length
  damage : heard ≠ sent.encode → DifferInBurst sent.encode heard ∨ DifferOddly sent.encode heard

def Transmission.intact (transmission : Transmission) : Bool := transmission.heard == transmission.sent.encode

theorem Transmission.heard_length (transmission : Transmission) : transmission.heard.length ≤ rtuMaxFrameLen := by
  have hfits := transmission.fits
  rw [transmission.length, RtuAdu.length_encode, rtuMaxFrameLen]
  omega

/-- Only what was heard as it was sent is a request. -/
theorem Transmission.requestIn_heard (transmission : Transmission) :
    requestIn (some (.ok transmission.heard)) = if transmission.intact then some transmission.sent else none := by
  rw [intact]
  by_cases hintact : transmission.heard = transmission.sent.encode
  · rw [if_pos (beq_iff_eq.mpr hintact), hintact, requestIn, rtuResponse, ok_bind, RtuAdu.decode_encode, mapErr_ok]
  · obtain ⟨expected, actual, hdecode⟩ :=
      RtuAdu.decode_of_changed transmission.sent transmission.length hintact (transmission.damage hintact)
    rw [if_neg fun h => hintact (beq_iff_eq.mp h), requestIn, rtuResponse, ok_bind, hdecode]
    rfl

theorem requests_heard (transmissions : List Transmission) :
    transmissions.filterMap ((fun frame => requestIn (some (.ok frame))) ∘ Transmission.heard) =
      (transmissions.filter Transmission.intact).map Transmission.sent := by
  induction transmissions with
  | nil => rfl
  | cons transmission transmissions ih =>
    rw [List.filterMap_cons, Function.comp_apply, transmission.requestIn_heard, ih]
    cases hintact : transmission.intact with
    | true => rw [List.filter_cons_of_pos hintact, if_pos rfl, List.map_cons]
    | false => rw [List.filter_cons_of_neg (by simp [hintact]), if_neg (by simp)]

/-- Whatever was on the line before a silence, behind it exactly the requests that are heard
as they were sent are handled, in their order and each once, and their responses are written
in this order. -/
theorem intact_requests_served (process : ServerProcess) {before after : List PortAction} {idle service : RtuService}
    (hbefore : execute process.serveRtu process.openRtu (before ++ [.wait .elapsed]) = some idle)
    (hafter : execute process.serveRtu idle after = some service) (transmissions : List Transmission)
    (hline : after.filterMap PortAction.waitOf = silenced (transmissions.map Transmission.heard)) :
    service.requests = idle.requests ++ (transmissions.filter Transmission.intact).map Transmission.sent ∧
      process.WorkedThrough ((before ++ after).filterMap PortAction.directOf) service := by
  have hidle : idle.pending = [] := by
    obtain ⟨hpending, -⟩ := ServerProcess.reader_of_execute hbefore
    obtain ⟨result, hturn, -⟩ := readTurn_elapsed
      (run readTurn process.openRtu.pending (before.filterMap PortAction.waitOf)).1
    rw [hpending, List.filterMap_append, run_append_inputs]
    change (readTurn _ .elapsed).1 = []
    rw [hturn]
  constructor
  · obtain ⟨-, hrequests⟩ := ServerProcess.reader_of_execute hafter
    have hfits : ∀ frame ∈ transmissions.map Transmission.heard, frame.length ≤ rtuMaxFrameLen := by
      intro frame hframe
      obtain ⟨transmission, -, rfl⟩ := List.mem_map.mp hframe
      exact transmission.heard_length
    rw [hrequests, hidle, hline, (run_readTurn_silenced hfits).2, List.filterMap_map]
    exact congrArg _ (requests_heard transmissions)
  · have hworked := ServerProcess.workedThrough_of_execute
      (ServerProcess.workedThrough_of_execute ServerProcess.workedThrough_openRtu hbefore) hafter
    rw [List.nil_append, List.filterMap_append] at hworked
    rw [List.filterMap_append]
    rwa [show [PortAction.wait .elapsed].filterMap PortAction.directOf = [] from rfl, List.append_nil] at hworked

def switchOn : RtuAdu := ⟨1, [5, 0, 4, 0xFF, 0]⟩

/-- The request to switch the light on, first with a bit changed and then as it is. -/
def switchOnTwice : List Transmission :=
  [⟨switchOn, [1, 5, 0, 4, 0x7F, 0, 0xCD, 0xFB], by decide, switchOn.length_encode.symm,
      fun _ => .inr (by unfold DifferOddly; decide +kernel)⟩,
    ⟨switchOn, switchOn.encode, by decide, rfl, fun h => absurd rfl h⟩]

set_option maxRecDepth 4000 in
theorem intact_requests_served_lamp : ∃ idle service,
    execute lampProcess.serveRtu lampProcess.openRtu [.wait (.byte 7), .wait .elapsed] = some idle ∧
      execute lampProcess.serveRtu idle
          ((silenced (switchOnTwice.map Transmission.heard)).map PortAction.wait ++ [.wrote 8]) =
        some service ∧ service.requests = [switchOn] := by
  have hrun : ∃ idle service,
      execute lampProcess.serveRtu lampProcess.openRtu ([.wait (.byte 7)] ++ [.wait .elapsed]) = some idle ∧
        execute lampProcess.serveRtu idle
          ((silenced (switchOnTwice.map Transmission.heard)).map PortAction.wait ++ [.wrote 8]) =
          some service ∧ idle.requests = [] := ⟨_, _, rfl, rfl, rfl⟩
  obtain ⟨idle, service, hbefore, hafter, hnone⟩ := hrun
  refine ⟨idle, service, hbefore, hafter, ?_⟩
  rw [(intact_requests_served lampProcess hbefore hafter switchOnTwice rfl).1, hnone]
  rfl

end InfusedModbus.Server
