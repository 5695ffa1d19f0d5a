import InfusedModbus.Foundation.Execution
import InfusedModbus.Foundation.FrameStream
import InfusedModbus.Foundation.Transducer

/-! One service behind many sessions. Every session takes its own stream of symbols, cuts
it into frames one symbol at a time, puts each frame to the service and writes back what
comes of it; sessions and direct inputs take turns in any order, and a session can break
off between any two symbols. Whatever the order, the service has worked through one
sequence of inputs, and every session has had its frames answered in their order. -/

namespace InfusedModbus.Foundation

/-- What the sessions have in common. `cut` is what a reader makes of the symbols since
the last frame: it waits for more, gives the stream up, or has a frame. -/
structure ServiceDesk (σ ι ο α φ : Type) where
  step : σ → ι → σ × ο
  cut : List α → Option (Option φ)
  input : φ → ι
  answer : φ → ο → List α

inductive SessionPhase (α φ : Type) where
  | reading (received : List α)
  | handling (frame : φ)
  | writing (rest : List α)
  | closed

/-- A session: what has arrived and is not yet read, what was read, what was put to the
service with what came of it, and what was written. -/
structure ServiceSession (ο α φ : Type) where
  incoming : List α
  taken : List α
  phase : SessionPhase α φ
  exchanges : List (φ × ο)
  sent : List α

/-- A turn of the service: a direct input, or the frame of a session. -/
inductive ServiceTurn (κ ι ο φ : Type) where
  | direct (input : ι) (output : ο)
  | exchange (session : κ) (frame : φ) (output : ο)

structure SharedService (κ σ ι ο α φ : Type) where
  shared : σ
  sessions : κ → ServiceSession ο α φ
  turns : List (ServiceTurn κ ι ο φ)

inductive ServiceAction (κ ι α : Type) where
  | direct (input : ι)
  | arrive (session : κ) (symbols : List α)
  | read (session : κ)
  | handle (session : κ)
  | write (session : κ)
  | fail (session : κ)

namespace ServiceSession

variable {ο α φ : Type}

/-- Everything the peer has sent so far. -/
def arrived (session : ServiceSession ο α φ) : List α := session.taken ++ session.incoming

def frames (session : ServiceSession ο α φ) : List φ := session.exchanges.map Prod.fst

/-- What the answers are, one after the other. -/
def answers (answer : φ → ο → List α) (session : ServiceSession ο α φ) : List α :=
  session.exchanges.flatMap fun exchange => answer exchange.1 exchange.2

def connected : ServiceSession ο α φ := ⟨[], [], .reading [], [], []⟩

/-- The phase after one more symbol. -/
def afterSymbol (cut : List α → Option (Option φ)) (received : List α) : SessionPhase α φ :=
  match cut received with
  | none => .reading received
  | some none => .closed
  | some (some frame) => .handling frame

def read (cut : List α → Option (Option φ)) (session : ServiceSession ο α φ) : Option (ServiceSession ο α φ) :=
  match session.phase, session.incoming with
  | .reading received, symbol :: incoming =>
    some { session with
      incoming := incoming, taken := session.taken ++ [symbol], phase := afterSymbol cut (received ++ [symbol]) }
  | _, _ => none

def write (session : ServiceSession ο α φ) : Option (ServiceSession ο α φ) :=
  match session.phase with
  | .writing (symbol :: rest) => some { session with sent := session.sent ++ [symbol], phase := .writing rest }
  | .writing [] => some { session with phase := .reading [] }
  | _ => none

/-- A session ends in the midst of a frame or of an answer, never while the service is at
its frame. -/
def fail (session : ServiceSession ο α φ) : Option (ServiceSession ο α φ) :=
  match session.phase with
  | .reading _ => some { session with phase := .closed }
  | .writing _ => some { session with phase := .closed }
  | _ => none

/-- What an action can do to a session. -/
inductive Step (cut : List α → Option (Option φ)) (outcome : φ → ο → Prop) (answer : φ → ο → List α)
    (session : ServiceSession ο α φ) : ServiceSession ο α φ → Prop where
  | stay : Step cut outcome answer session session
  | arrive (symbols : List α) :
      Step cut outcome answer session { session with incoming := session.incoming ++ symbols }
  | read {session' : ServiceSession ο α φ} (h : session.read cut = some session') :
      Step cut outcome answer session session'
  | exchange (frame : φ) (output : ο) (h : session.phase = .handling frame) (houtcome : outcome frame output) :
      Step cut outcome answer session { session with
        phase := .writing (answer frame output), exchanges := session.exchanges ++ [(frame, output)] }
  | write {session' : ServiceSession ο α φ} (h : session.write = some session') :
      Step cut outcome answer session session'
  | fail {session' : ServiceSession ο α φ} (h : session.fail = some session') : Step cut outcome answer session session'

/-- Nothing is under way: the last answer is written and no symbol is left. -/
def Idle (session : ServiceSession ο α φ) : Prop := session.phase = .reading [] ∧ session.incoming = []

end ServiceSession

namespace ServiceTurn

variable {κ ι ο φ : Type}

def output : ServiceTurn κ ι ο φ → ο
  | .direct _ output => output
  | .exchange _ _ output => output

def exchangeOf [DecidableEq κ] (session : κ) : ServiceTurn κ ι ο φ → Option (φ × ο)
  | .direct _ _ => none
  | .exchange session' frame output => if session' = session then some (frame, output) else none

end ServiceTurn

namespace ServiceDesk

variable {κ σ ι ο α φ : Type} [DecidableEq κ] (desk : ServiceDesk σ ι ο α φ)

def inputOf : ServiceTurn κ ι ο φ → ι
  | .direct input _ => input
  | .exchange _ frame _ => desk.input frame

/-- What can come of a frame. -/
def Yields (frame : φ) (output : ο) : Prop := ∃ shared, (desk.step shared (desk.input frame)).2 = output

/-- The service before anything has happened, every session connected. -/
def opened (start : σ) : SharedService κ σ ι ο α φ := ⟨start, fun _ => .connected, []⟩

def put (service : SharedService κ σ ι ο α φ) (k : κ) (session : ServiceSession ο α φ) : SharedService κ σ ι ο α φ :=
  { service with sessions := Function.update service.sessions k session }

@[simp] theorem sessions_put_self (service : SharedService κ σ ι ο α φ) (k : κ) (session : ServiceSession ο α φ) :
    (put service k session).sessions k = session := Function.update_self _ _ _

theorem sessions_put_of_ne (service : SharedService κ σ ι ο α φ) {k k' : κ} (session : ServiceSession ο α φ)
    (h : k' ≠ k) :
    (put service k session).sessions k' = service.sessions k' := Function.update_of_ne h _ _

/-- The frame of a session is put to the service. -/
def exchange (service : SharedService κ σ ι ο α φ) (k : κ) (frame : φ) : SharedService κ σ ι ο α φ :=
  let session := service.sessions k
  let (shared, output) := desk.step service.shared (desk.input frame)
  { shared := shared
    sessions := Function.update service.sessions k { session with
      phase := .writing (desk.answer frame output), exchanges := session.exchanges ++ [(frame, output)] }
    turns := service.turns ++ [.exchange k frame output] }

def serve (service : SharedService κ σ ι ο α φ) : ServiceAction κ ι α → Option (SharedService κ σ ι ο α φ)
  | .direct input =>
    let (shared, output) := desk.step service.shared input
    some { service with shared := shared, turns := service.turns ++ [.direct input output] }
  | .arrive k symbols =>
    let session := service.sessions k
    some (put service k { session with incoming := session.incoming ++ symbols })
  | .read k => ((service.sessions k).read desk.cut).map (put service k)
  | .handle k =>
    match (service.sessions k).phase with
    | .handling frame => some (desk.exchange service k frame)
    | _ => none
  | .write k => (service.sessions k).write.map (put service k)
  | .fail k => (service.sessions k).fail.map (put service k)

variable {desk} in
/-- An action concerns one session at most. -/
theorem step_of_serve {service service' : SharedService κ σ ι ο α φ} {action : ServiceAction κ ι α}
    (h : desk.serve service action = some service') (k : κ) :
    (service.sessions k).Step desk.cut desk.Yields desk.answer (service'.sessions k) := by
  have hput : ∀ {k' : κ} {session : ServiceSession ο α φ},
      (service.sessions k').Step desk.cut desk.Yields desk.answer session →
        (service.sessions k).Step desk.cut desk.Yields desk.answer ((put service k' session).sessions k) := by
    intro k' session hsession
    by_cases hk : k = k'
    · subst hk
      rwa [sessions_put_self]
    · rw [sessions_put_of_ne _ _ hk]
      exact .stay
  cases action with
  | direct input =>
    obtain rfl := Option.some.inj h
    exact .stay
  | arrive k' symbols =>
    obtain rfl := Option.some.inj h
    exact hput (.arrive symbols)
  | read k' =>
    obtain ⟨session, hsession, rfl⟩ := Option.map_eq_some_iff.mp h
    exact hput (.read hsession)
  | handle k' =>
    simp only [serve] at h
    split at h
    · next frame hphase =>
      obtain rfl := Option.some.inj h
      exact hput (.exchange frame _ hphase ⟨service.shared, rfl⟩)
    · cases h
  | write k' =>
    obtain ⟨session, hsession, rfl⟩ := Option.map_eq_some_iff.mp h
    exact hput (.write hsession)
  | fail k' =>
    obtain ⟨session, hsession, rfl⟩ := Option.map_eq_some_iff.mp h
    exact hput (.fail hsession)

/-! ### One sequence of inputs -/

/-- The service has worked through its turns, one after the other, and every session had
the turns that carry its name. -/
structure Linear (start : σ) (service : SharedService κ σ ι ο α φ) : Prop where
  ran : run desk.step start (service.turns.map desk.inputOf) = (service.shared, service.turns.map ServiceTurn.output)
  exchanges : ∀ k, (service.sessions k).exchanges = service.turns.filterMap (ServiceTurn.exchangeOf k)

variable {desk}

theorem linear_opened (start : σ) : desk.Linear start (opened start : SharedService κ σ ι ο α φ) :=
  ⟨rfl, fun _ => rfl⟩

/-- What happens to a session besides its exchanges is no turn. -/
theorem Linear.put {start : σ} {service : SharedService κ σ ι ο α φ} (h : desk.Linear start service) {k : κ}
    {session : ServiceSession ο α φ} (hsame : session.exchanges = (service.sessions k).exchanges) :
    desk.Linear start (ServiceDesk.put service k session) := by
  refine ⟨h.ran, fun k' => ?_⟩
  by_cases hk : k' = k
  · subst hk
    rw [sessions_put_self, hsame]
    exact h.exchanges k'
  · rw [sessions_put_of_ne _ _ hk]
    exact h.exchanges k'

theorem Linear.exchange {start : σ} {service : SharedService κ σ ι ο α φ} (h : desk.Linear start service) (k : κ)
    (frame : φ) : desk.Linear start (desk.exchange service k frame) := by
  refine ⟨?_, fun k' => ?_⟩
  · simp only [ServiceDesk.exchange, List.map_append, run_append_inputs, h.ran]
    rfl
  · rw [ServiceDesk.exchange, List.filterMap_append]
    by_cases hk : k' = k
    · subst hk
      rw [← h.exchanges k']
      simp [ServiceTurn.exchangeOf]
    · rw [← h.exchanges k']
      simp [ServiceTurn.exchangeOf, Function.update_of_ne hk, Ne.symm hk]

theorem Linear.serve {start : σ} {service service' : SharedService κ σ ι ο α φ} (h : desk.Linear start service)
    {action : ServiceAction κ ι α} (hstep : desk.serve service action = some service') :
    desk.Linear start service' := by
  cases action with
  | direct input =>
    obtain rfl := Option.some.inj hstep
    refine ⟨?_, fun k => ?_⟩
    · simp only [List.map_append, run_append_inputs, h.ran]
      rfl
    · rw [List.filterMap_append, ← h.exchanges k]
      simp [ServiceTurn.exchangeOf]
  | arrive k symbols =>
    obtain rfl := Option.some.inj hstep
    exact h.put rfl
  | read k =>
    obtain ⟨session, hsession, rfl⟩ := Option.map_eq_some_iff.mp hstep
    apply h.put
    unfold ServiceSession.read at hsession
    split at hsession
    · rw [← Option.some.inj hsession]
    · cases hsession
  | handle k =>
    simp only [ServiceDesk.serve] at hstep
    split at hstep
    · obtain rfl := Option.some.inj hstep
      exact h.exchange k _
    · cases hstep
  | write k =>
    obtain ⟨session, hsession, rfl⟩ := Option.map_eq_some_iff.mp hstep
    apply h.put
    unfold ServiceSession.write at hsession
    split at hsession
    · rw [← Option.some.inj hsession]
    · rw [← Option.some.inj hsession]
    · cases hsession
  | fail k =>
    obtain ⟨session, hsession, rfl⟩ := Option.map_eq_some_iff.mp hstep
    apply h.put
    unfold ServiceSession.fail at hsession
    split at hsession
    · rw [← Option.some.inj hsession]
    · rw [← Option.some.inj hsession]
    · cases hsession

/-- In every run the service has worked through one sequence of inputs. -/
theorem linear_of_execute {start : σ} {actions : List (ServiceAction κ ι α)} {service : SharedService κ σ ι ο α φ}
    (h : execute desk.serve (opened start) actions = some service) : desk.Linear start service :=
  invariant_of_execute (fun _ _ _ hbefore _ hstep => hbefore.serve hstep) (linear_opened start)
    (permitted_of_forall (fun _ _ _ => trivial) _) h

end ServiceDesk

/-! ### Every session in its order -/

section Order

variable {σ ι ο α φ : Type}

/-- The reader takes the frame whole: no proper beginning of it is anything to it. -/
structure WholeFrame (encode : φ → List α) (cut : List α → Option (Option φ)) (frame : φ) : Prop where
  cuts : cut (encode frame) = some (some frame)
  waits : ∀ received, received <+: encode frame → received ≠ encode frame → cut received = none

/-- A reader that knows the frames by their encodings. -/
structure ReadsFrames (encode : φ → List α) (cut : List α → Option (Option φ)) : Prop where
  start : cut [] = none
  sound : ∀ received symbol frame, cut received = none → cut (received ++ [symbol]) = some (some frame) →
    encode frame = received ++ [symbol]

variable {encode : φ → List α} {cut : List α → Option (Option φ)}

theorem WholeFrame.ne_nil (hreads : ReadsFrames encode cut) {frame : φ} (h : WholeFrame encode cut frame) :
    encode frame ≠ [] := by
  intro hnil
  have hcut := h.cuts
  rw [hnil, hreads.start] at hcut
  cases hcut

/-- Of two frames at the head of one stream neither is longer. -/
theorem WholeFrame.unique {frame frame' : φ} (h : WholeFrame encode cut frame) (h' : WholeFrame encode cut frame')
    {rest rest' : List α}
    (heq : encode frame ++ rest = encode frame' ++ rest') : frame = frame' ∧ rest = rest' := by
  have hsame : encode frame = encode frame' := by
    by_contra hne
    rcases List.prefix_or_prefix_of_prefix (List.prefix_append (encode frame) rest)
      (heq ▸ List.prefix_append (encode frame') rest') with hinitial | hinitial
    · have hnone := h'.waits _ hinitial hne
      rw [h.cuts] at hnone
      cases hnone
    · have hnone := h.waits _ hinitial fun hsame => hne hsame.symm
      rw [h'.cuts] at hnone
      cases hnone
  have hcut := h.cuts
  rw [hsame, h'.cuts] at hcut
  rw [hsame] at heq
  exact ⟨(Option.some.inj (Option.some.inj hcut)).symm, List.append_cancel_left heq⟩

/-- A stream that begins with the encodings of some frames begins with these frames, as far
as it is made of frames. -/
theorem frames_prefix (hreads : ReadsFrames encode cut) {frames frames' : List φ}
    (h : ∀ frame ∈ frames, WholeFrame encode cut frame) (h' : ∀ frame ∈ frames', WholeFrame encode cut frame)
    (hinitial : wire encode frames <+: wire encode frames') : frames <+: frames' := by
  induction frames generalizing frames' with
  | nil => exact List.nil_prefix
  | cons frame frames ih =>
    obtain ⟨hframe, hframes⟩ := List.forall_mem_cons.mp h
    cases frames' with
    | nil =>
      have hnil := List.prefix_nil.mp hinitial
      rw [wire, List.flatMap_cons, List.append_eq_nil_iff] at hnil
      exact absurd hnil.1 (hframe.ne_nil hreads)
    | cons frame' frames' =>
      obtain ⟨hframe', hframes'⟩ := List.forall_mem_cons.mp h'
      obtain ⟨rest, hrest⟩ := hinitial
      rw [wire, wire, List.flatMap_cons, List.flatMap_cons, List.append_assoc] at hrest
      obtain ⟨rfl, htail⟩ := hframe.unique hframe' hrest
      exact List.cons_prefix_cons.mpr ⟨rfl, ih hframes hframes' ⟨rest, htail⟩⟩

variable (encode) (answer : φ → ο → List α)

/-- What a session has taken and sent, by its phase: the frames it has had answered, and
what it is at. -/
def ServiceSession.InOrder (cut : List α → Option (Option φ)) (session : ServiceSession ο α φ) : Prop :=
  match session.phase with
  | .reading received => session.taken = wire encode session.frames ++ received ∧
      session.sent = session.answers answer ∧ ∀ start, start <+: received → cut start = none
  | .handling frame => session.taken = wire encode session.frames ++ encode frame ∧
      session.sent = session.answers answer ∧ WholeFrame encode cut frame
  | .writing rest => session.taken = wire encode session.frames ∧ session.sent ++ rest = session.answers answer
  | .closed => wire encode session.frames <+: session.taken ∧ session.sent <+: session.answers answer

variable {encode answer} {outcome : φ → ο → Prop} {session session' : ServiceSession ο α φ}

variable (encode answer) in
/-- The order is kept, the frames were taken whole, and what came of them can come of them. -/
structure ServiceSession.Ordered (outcome : φ → ο → Prop) (cut : List α → Option (Option φ))
    (session : ServiceSession ο α φ) :
    Prop where
  inOrder : session.InOrder encode answer cut
  whole : ∀ frame ∈ session.frames, WholeFrame encode cut frame
  outcomes : ∀ exchange ∈ session.exchanges, outcome exchange.1 exchange.2

theorem ServiceSession.ordered_connected (hreads : ReadsFrames encode cut) :
    (connected : ServiceSession ο α φ).Ordered encode answer outcome cut := by
  refine ⟨⟨rfl, rfl, fun start hstart => ?_⟩, fun _ h => (List.not_mem_nil h).elim,
    fun _ h => (List.not_mem_nil h).elim⟩
  rw [List.prefix_nil.mp hstart]
  exact hreads.start

/-- The next symbol completes a frame, breaks the stream off, or is one more to wait with. -/
theorem ServiceSession.Ordered.read (hreads : ReadsFrames encode cut) (h : session.Ordered encode answer outcome cut)
    (hread : session.read cut = some session') : session'.Ordered encode answer outcome cut := by
  unfold ServiceSession.read at hread
  split at hread
  · next received symbol incoming hphase hincoming =>
    obtain rfl := Option.some.inj hread
    obtain ⟨htaken, hsent, hwaits⟩ : session.taken = wire encode session.frames ++ received ∧
        session.sent = session.answers answer ∧ ∀ start, start <+: received → cut start = none := by
      have hinOrder := h.inOrder
      rwa [ServiceSession.InOrder, hphase] at hinOrder
    refine ⟨?_, h.whole, h.outcomes⟩
    unfold ServiceSession.InOrder afterSymbol
    dsimp only
    have htaken' : session.taken ++ [symbol] = wire encode session.frames ++ (received ++ [symbol]) := by
      rw [htaken, List.append_assoc]
    cases hcut : cut (received ++ [symbol]) with
    | none =>
      refine ⟨htaken', hsent, fun start hstart => ?_⟩
      rcases List.prefix_concat_iff.mp hstart with rfl | hshort
      · exact hcut
      · exact hwaits start hshort
    | some result =>
      cases result with
      | none => exact ⟨⟨_, htaken'.symm⟩, hsent ▸ List.prefix_refl _⟩
      | some frame =>
        have hencode := hreads.sound received symbol frame (hwaits received List.prefix_rfl) hcut
        refine ⟨hencode ▸ htaken', hsent, hencode ▸ hcut, fun start hstart hne => ?_⟩
        rcases List.prefix_concat_iff.mp (hencode ▸ hstart) with hall | hshort
        · exact absurd (hall.trans hencode.symm) hne
        · exact hwaits start hshort
  · cases hread

theorem ServiceSession.Ordered.write (hreads : ReadsFrames encode cut) (h : session.Ordered encode answer outcome cut)
    (hwrite : session.write = some session') : session'.Ordered encode answer outcome cut := by
  have hinOrder := h.inOrder
  unfold ServiceSession.write at hwrite
  split at hwrite
  · next symbol rest hphase =>
    obtain rfl := Option.some.inj hwrite
    rw [ServiceSession.InOrder, hphase] at hinOrder
    exact ⟨⟨hinOrder.1, (List.append_assoc _ _ _).trans hinOrder.2⟩, h.whole, h.outcomes⟩
  · next hphase =>
    obtain rfl := Option.some.inj hwrite
    rw [ServiceSession.InOrder, hphase] at hinOrder
    refine ⟨⟨?_, (List.append_nil _).symm.trans hinOrder.2, fun start hstart => ?_⟩, h.whole, h.outcomes⟩
    · rw [List.append_nil]
      exact hinOrder.1
    · rw [List.prefix_nil.mp hstart]
      exact hreads.start
  · cases hwrite

theorem ServiceSession.Ordered.fail (h : session.Ordered encode answer outcome cut)
    (hfail : session.fail = some session') :
    session'.Ordered encode answer outcome cut := by
  have hinOrder := h.inOrder
  unfold ServiceSession.fail at hfail
  split at hfail
  · next received hphase =>
    obtain rfl := Option.some.inj hfail
    rw [ServiceSession.InOrder, hphase] at hinOrder
    exact ⟨⟨⟨received, hinOrder.1.symm⟩, hinOrder.2.1 ▸ List.prefix_refl _⟩, h.whole, h.outcomes⟩
  · next rest hphase =>
    obtain rfl := Option.some.inj hfail
    rw [ServiceSession.InOrder, hphase] at hinOrder
    exact ⟨⟨hinOrder.1 ▸ List.prefix_refl _, ⟨rest, hinOrder.2⟩⟩, h.whole, h.outcomes⟩
  · cases hfail

/-- The frame a session is at is put to the service. -/
theorem ServiceSession.Ordered.exchange (h : session.Ordered encode answer outcome cut) {frame : φ}
    (hphase : session.phase = .handling frame) {output : ο} (houtcome : outcome frame output) :
    ServiceSession.Ordered encode answer outcome cut { session with
      phase := .writing (answer frame output), exchanges := session.exchanges ++ [(frame, output)] } := by
  obtain ⟨htaken, hsent, hwhole⟩ : session.taken = wire encode session.frames ++ encode frame ∧
      session.sent = session.answers answer ∧ WholeFrame encode cut frame := by
    have hinOrder := h.inOrder
    rwa [ServiceSession.InOrder, hphase] at hinOrder
  have hframes : ∀ phase, ({ session with phase := phase, exchanges := session.exchanges ++ [(frame, output)] } :
      ServiceSession ο α φ).frames = session.frames ++ [frame] := by
    intro phase
    rw [ServiceSession.frames, List.map_append]
    rfl
  refine ⟨⟨?_, ?_⟩, ?_, ?_⟩
  · rw [hframes, wire_append, htaken]
    simp [wire]
  · rw [hsent, ServiceSession.answers, ServiceSession.answers, List.flatMap_append]
    simp
  · rw [hframes, List.forall_mem_append]
    exact ⟨h.whole, fun other hother => List.mem_singleton.mp hother ▸ hwhole⟩
  · rw [List.forall_mem_append]
    exact ⟨h.outcomes, fun other hother => List.mem_singleton.mp hother ▸ houtcome⟩

theorem ServiceSession.Ordered.step (hreads : ReadsFrames encode cut) (h : session.Ordered encode answer outcome cut)
    (hstep : session.Step cut outcome answer session') : session'.Ordered encode answer outcome cut := by
  cases hstep with
  | stay => exact h
  | arrive symbols => exact ⟨h.inOrder, h.whole, h.outcomes⟩
  | read hread => exact h.read hreads hread
  | exchange frame output hphase houtcome => exact h.exchange hphase houtcome
  | write hwrite => exact h.write hreads hwrite
  | fail hfail => exact h.fail hfail

/-- A session that has had its frames in order has had the first of those that arrived. -/
theorem ServiceSession.Ordered.frames_prefix (hreads : ReadsFrames encode cut)
    (h : session.Ordered encode answer outcome cut)
    {frames : List φ} (hwhole : ∀ frame ∈ frames, WholeFrame encode cut frame)
    (harrived : session.arrived = wire encode frames) : session.frames <+: frames := by
  have htaken : wire encode session.frames <+: session.taken := by
    have hinOrder := h.inOrder
    unfold ServiceSession.InOrder at hinOrder
    split at hinOrder
    · exact ⟨_, hinOrder.1.symm⟩
    · exact ⟨_, hinOrder.1.symm⟩
    · exact hinOrder.1 ▸ List.prefix_refl _
    · exact hinOrder.1
  apply Foundation.frames_prefix hreads h.whole hwhole
  rw [← harrived]
  exact htaken.trans (List.prefix_append _ _)

/-- Nothing is written but the answers, in their order. -/
theorem ServiceSession.Ordered.sent_prefix (h : session.Ordered encode answer outcome cut) :
    session.sent <+: session.answers answer := by
  have hinOrder := h.inOrder
  unfold ServiceSession.InOrder at hinOrder
  split at hinOrder
  · exact hinOrder.2.1 ▸ List.prefix_refl _
  · exact hinOrder.2.1 ▸ List.prefix_refl _
  · exact ⟨_, hinOrder.2⟩
  · exact hinOrder.2

/-- When nothing is under way, all of them. -/
theorem ServiceSession.Ordered.frames_eq (hreads : ReadsFrames encode cut)
    (h : session.Ordered encode answer outcome cut)
    {frames : List φ} (hwhole : ∀ frame ∈ frames, WholeFrame encode cut frame)
    (harrived : session.arrived = wire encode frames) (hidle : session.Idle) :
    session.frames = frames ∧ session.sent = session.answers answer := by
  obtain ⟨htaken, hsent, -⟩ : session.taken = wire encode session.frames ++ [] ∧
      session.sent = session.answers answer ∧ ∀ start, start <+: [] → cut start = none := by
    have hinOrder := h.inOrder
    rwa [ServiceSession.InOrder, hidle.1] at hinOrder
  obtain ⟨rest, hrest⟩ := h.frames_prefix hreads hwhole harrived
  rw [ServiceSession.arrived, hidle.2, htaken, List.append_nil, List.append_nil, ← hrest, wire_append] at harrived
  have hnil : wire encode rest = [] := List.append_right_eq_self.mp harrived.symm
  cases rest with
  | nil => exact ⟨by rw [← hrest, List.append_nil], hsent⟩
  | cons frame rest =>
    rw [wire, List.flatMap_cons, List.append_eq_nil_iff] at hnil
    have hframe := hwhole frame (hrest ▸ List.mem_append_right _ List.mem_cons_self)
    exact absurd hnil.1 (hframe.ne_nil hreads)

end Order

/-- In every run every session has its frames taken whole and answered in their order. -/
theorem ServiceDesk.ordered_of_execute {κ σ ι ο α φ : Type} [DecidableEq κ] {desk : ServiceDesk σ ι ο α φ}
    {encode : φ → List α} (hreads : ReadsFrames encode desk.cut) {start : σ} {actions : List (ServiceAction κ ι α)}
    {service : SharedService κ σ ι ο α φ} (h : execute desk.serve (opened start) actions = some service) (k : κ) :
    (service.sessions k).Ordered encode desk.answer desk.Yields desk.cut := by
  have hstep : ∀ (before : SharedService κ σ ι ο α φ) action after,
      (∀ k, (before.sessions k).Ordered encode desk.answer desk.Yields desk.cut) → True →
        desk.serve before action = some after →
          ∀ k, (after.sessions k).Ordered encode desk.answer desk.Yields desk.cut :=
    fun before action after hbefore _ hserve k => (hbefore k).step hreads (step_of_serve hserve k)
  exact invariant_of_execute hstep (fun _ => ServiceSession.ordered_connected hreads)
    (permitted_of_forall (fun _ _ _ => trivial) _) h k

end InfusedModbus.Foundation
