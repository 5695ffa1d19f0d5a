import InfusedModbus.Foundation.Execution
import Mathlib.Logic.Function.Basic

/-! Healing the shared connection. Any number of tasks send requests, one at a time under the
lock; one whose request failed first sets the flag and then notifies. The loop waits for a
notification, takes the flag and redials until there is a new connection to put in place. No
failure is lost. But the flag does not say which connection failed: one that is set after the
loop took the last one condemns the connection that comes next. -/

namespace InfusedModbus.Client

open Foundation

/-! ### The signal, the tasks and the loop -/

/-- Where a task stands: between requests, in one, after a failed one, and halfway through
`mark_broken`. -/
inductive TaskPhase where
  | idle
  | requesting
  | failed
  | marked
  deriving DecidableEq, Repr

/-- Where the loop stands: about to call `notified`, blocked in it, returned from it, redialing,
and with a new connection in hand. -/
inductive LoopPhase where
  | listening
  | blocked
  | notified
  | redialing
  | redialed
  deriving DecidableEq, Repr

/-- Connections are numbered as they come. `failed` records on which of them a request failed;
no code reads it. -/
structure Reconnect (τ : Type) where
  connection : ℕ
  failed : ℕ → Bool
  lock : Option τ
  broken : Bool
  permit : Bool
  loop : LoopPhase
  task : τ → TaskPhase

/-- What can happen next. A failed write releases the lock as well but reports nothing. -/
inductive ReconnectAction (τ : Type) where
  | request (task : τ)
  | succeed (task : τ)
  | fail (task : τ)
  | failUnreported (task : τ)
  | storeBroken (task : τ)
  | notifyOne (task : τ)
  | listen
  | swapBroken
  | redialFails
  | redial
  | replace
  deriving DecidableEq, Repr

namespace Reconnect

variable {τ : Type} [DecidableEq τ]

def start : Reconnect τ where
  connection := 0
  failed := fun _ => false
  lock := none
  broken := false
  permit := false
  loop := .listening
  task := fun _ => .idle

def setTask (s : Reconnect τ) (task : τ) (phase : TaskPhase) : Reconnect τ :=
  { s with task := Function.update s.task task phase }

/-- The request is over and its connection is known to have failed. -/
def recordFailure (s : Reconnect τ) : Reconnect τ :=
  { s with lock := none, failed := Function.update s.failed s.connection true }

def step (s : Reconnect τ) : ReconnectAction τ → Option (Reconnect τ)
  | .request task =>
    if s.lock = none ∧ s.task task = .idle then some { s.setTask task .requesting with lock := some task } else none
  | .succeed task =>
    if s.task task = .requesting then some { s.setTask task .idle with lock := none } else none
  | .fail task => if s.task task = .requesting then some (s.recordFailure.setTask task .failed) else none
  | .failUnreported task => if s.task task = .requesting then some (s.recordFailure.setTask task .idle) else none
  | .storeBroken task =>
    if s.task task = .failed then some { s.setTask task .marked with broken := true } else none
  | .notifyOne task =>
    if s.task task = .marked then
      -- a waiter is woken, otherwise the permit is kept for the next one
      if s.loop = .blocked then some { s.setTask task .idle with loop := .notified }
      else some { s.setTask task .idle with permit := true }
    else none
  | .listen =>
    if s.loop = .listening then
      if s.permit then some { s with permit := false, loop := .notified } else some { s with loop := .blocked }
    else none
  | .swapBroken =>
    if s.loop = .notified then
      if s.broken then some { s with broken := false, loop := .redialing } else some { s with loop := .listening }
    else none
  | .redialFails => if s.loop = .redialing then some s else none
  | .redial => if s.loop = .redialing then some { s with loop := .redialed } else none
  | .replace =>
    if s.loop = .redialed ∧ s.lock = none then some { s with connection := s.connection + 1, loop := .listening }
    else none

/-- A pass is under way: the loop has taken the flag and not yet put a new connection in place. -/
def Passing (s : Reconnect τ) : Prop := s.loop = .redialing ∨ s.loop = .redialed

/-- A report is in time when a request has failed on the connection in place and no pass is under
way. -/
def InTime (s : Reconnect τ) : ReconnectAction τ → Prop
  | .storeBroken _ => s.failed s.connection = true ∧ ¬s.Passing
  | _ => True

/-! ### No failure is lost -/

/-- A flag that is set has a notification on its way. -/
def Announced (s : Reconnect τ) : Prop :=
  s.broken = true → s.permit = true ∨ s.loop = .notified ∨ ∃ task, s.task task = .marked

/-- Only the task itself leaves the middle of `mark_broken`. -/
theorem exists_marked_of_setTask {s : Reconnect τ} {task : τ} {phase : TaskPhase} (htask : s.task task ≠ .marked)
    (h : ∃ other, s.task other = .marked) : ∃ other, (s.setTask task phase).task other = .marked := by
  obtain ⟨other, hother⟩ := h
  refine ⟨other, ?_⟩
  have hne : other ≠ task := by
    rintro rfl
    exact htask hother
  rw [setTask]
  exact (Function.update_of_ne hne _ _).trans hother

/-- A step of one task leaves a notification that is on its way for another. -/
theorem announced_setTask {s : Reconnect τ} {task : τ} {phase : TaskPhase} (hinv : s.Announced)
    (htask : s.task task ≠ .marked) : (s.setTask task phase).Announced := by
  intro hbroken
  rcases hinv hbroken with hpermit | hnotified | hmarked
  · exact .inl hpermit
  · exact .inr (.inl hnotified)
  · exact .inr (.inr (exists_marked_of_setTask htask hmarked))

omit [DecidableEq τ] in
theorem announced_start : (start : Reconnect τ).Announced := by
  intro hbroken
  cases hbroken

theorem announced_step {s s' : Reconnect τ} {action : ReconnectAction τ} (hinv : s.Announced)
    (h : s.step action = some s') : s'.Announced := by
  cases action with
  | request task =>
    obtain ⟨⟨-, hidle⟩, rfl⟩ := Option.ite_some_none_eq_some.mp h
    exact @announced_setTask _ _ s task .requesting hinv (by simp [hidle])
  | succeed task =>
    obtain ⟨hrequesting, rfl⟩ := Option.ite_some_none_eq_some.mp h
    exact @announced_setTask _ _ s task .idle hinv (by simp [hrequesting])
  | fail task =>
    obtain ⟨hrequesting, rfl⟩ := Option.ite_some_none_eq_some.mp h
    exact @announced_setTask _ _ s.recordFailure task .failed hinv (by simp [recordFailure, hrequesting])
  | failUnreported task =>
    obtain ⟨hrequesting, rfl⟩ := Option.ite_some_none_eq_some.mp h
    exact @announced_setTask _ _ s.recordFailure task .idle hinv (by simp [recordFailure, hrequesting])
  | storeBroken task =>
    obtain ⟨-, rfl⟩ := Option.ite_some_none_eq_some.mp h
    intro _
    exact .inr (.inr ⟨task, Function.update_self _ _ _⟩)
  | notifyOne task =>
    obtain ⟨-, h⟩ := Option.ite_none_right_eq_some.mp h
    split at h
    · cases h
      exact fun _ => .inr (.inl rfl)
    · cases h
      exact fun _ => .inl rfl
  | listen =>
    obtain ⟨hlistening, h⟩ := Option.ite_none_right_eq_some.mp h
    split at h
    · cases h
      exact fun _ => .inr (.inl rfl)
    · next hpermit =>
      cases h
      intro hbroken
      rcases hinv hbroken with hstored | hnotified | hmarked
      · exact absurd hstored hpermit
      · rw [hlistening] at hnotified
        cases hnotified
      · exact .inr (.inr hmarked)
  | swapBroken =>
    obtain ⟨-, h⟩ := Option.ite_none_right_eq_some.mp h
    split at h
    · cases h
      exact fun hbroken => nomatch hbroken
    · next hclear =>
      cases h
      exact fun hbroken => absurd hbroken hclear
  | redialFails =>
    obtain ⟨-, rfl⟩ := Option.ite_some_none_eq_some.mp h
    exact hinv
  | redial =>
    obtain ⟨hredialing, rfl⟩ := Option.ite_some_none_eq_some.mp h
    intro hbroken
    rcases hinv hbroken with hpermit | hnotified | hmarked
    · exact .inl hpermit
    · rw [hredialing] at hnotified
      cases hnotified
    · exact .inr (.inr hmarked)
  | replace =>
    obtain ⟨⟨hredialed, -⟩, rfl⟩ := Option.ite_some_none_eq_some.mp h
    intro hbroken
    rcases hinv hbroken with hpermit | hnotified | hmarked
    · exact .inl hpermit
    · rw [hredialed] at hnotified
      cases hnotified
    · exact .inr (.inr hmarked)

/-! ### One reconnect for one failure -/

/-- Whoever is condemned has failed, and a pass has taken the flag. -/
structure Deserved (s : Reconnect τ) : Prop where
  flagged : s.broken = true → s.failed s.connection = true ∧ ¬s.Passing
  passing : s.Passing → s.failed s.connection = true

omit [DecidableEq τ] in
theorem failed_recordFailure {s : Reconnect τ} {n : ℕ} (h : s.failed n = true) : s.recordFailure.failed n = true := by
  rw [recordFailure]
  by_cases hn : n = s.connection
  · rw [hn]
    exact Function.update_self _ _ _
  · exact (Function.update_of_ne hn _ _).trans h

omit [DecidableEq τ] in
theorem Deserved.recordFailure {s : Reconnect τ} (hinv : s.Deserved) : s.recordFailure.Deserved where
  flagged := fun hbroken => ⟨failed_recordFailure (hinv.flagged hbroken).1, (hinv.flagged hbroken).2⟩
  passing := fun hpassing => failed_recordFailure (hinv.passing hpassing)

omit [DecidableEq τ] in
theorem deserved_start : (start : Reconnect τ).Deserved := by
  refine ⟨?_, ?_⟩
  · intro hbroken
    cases hbroken
  · rintro (hpassing | hpassing) <;> cases hpassing

theorem deserved_step {s s' : Reconnect τ} {action : ReconnectAction τ} (hinv : s.Deserved)
    (htime : s.InTime action) (h : s.step action = some s') : s'.Deserved := by
  cases action with
  | request task | succeed task =>
    obtain ⟨-, rfl⟩ := Option.ite_some_none_eq_some.mp h
    exact ⟨hinv.flagged, hinv.passing⟩
  | fail task | failUnreported task =>
    obtain ⟨-, rfl⟩ := Option.ite_some_none_eq_some.mp h
    exact ⟨hinv.recordFailure.flagged, hinv.recordFailure.passing⟩
  | storeBroken task =>
    obtain ⟨-, rfl⟩ := Option.ite_some_none_eq_some.mp h
    exact ⟨fun _ => htime, hinv.passing⟩
  | notifyOne task =>
    obtain ⟨-, h⟩ := Option.ite_none_right_eq_some.mp h
    split at h
    · next hblocked =>
      cases h
      refine ⟨fun hbroken => ⟨(hinv.flagged hbroken).1, ?_⟩, ?_⟩
      · rintro (hpassing | hpassing) <;> cases hpassing
      · rintro (hpassing | hpassing) <;> cases hpassing
    · cases h
      exact ⟨hinv.flagged, hinv.passing⟩
  | listen =>
    obtain ⟨-, h⟩ := Option.ite_none_right_eq_some.mp h
    split at h <;>
    · cases h
      refine ⟨fun hbroken => ⟨(hinv.flagged hbroken).1, ?_⟩, ?_⟩
      · rintro (hpassing | hpassing) <;> cases hpassing
      · rintro (hpassing | hpassing) <;> cases hpassing
  | swapBroken =>
    obtain ⟨-, h⟩ := Option.ite_none_right_eq_some.mp h
    split at h
    · next hbroken =>
      cases h
      exact ⟨fun hcleared => (nomatch hcleared), fun _ => (hinv.flagged hbroken).1⟩
    · next hclear =>
      cases h
      refine ⟨fun hbroken => absurd hbroken hclear, ?_⟩
      rintro (hpassing | hpassing) <;> cases hpassing
  | redialFails =>
    obtain ⟨-, rfl⟩ := Option.ite_some_none_eq_some.mp h
    exact hinv
  | redial =>
    obtain ⟨hredialing, rfl⟩ := Option.ite_some_none_eq_some.mp h
    refine ⟨?_, fun _ => hinv.passing (.inl hredialing)⟩
    intro hbroken
    exact absurd (.inl hredialing) (hinv.flagged hbroken).2
  | replace =>
    obtain ⟨⟨hredialed, -⟩, rfl⟩ := Option.ite_some_none_eq_some.mp h
    refine ⟨?_, ?_⟩
    · intro hbroken
      exact absurd (.inr hredialed) (hinv.flagged hbroken).2
    · rintro (hpassing | hpassing) <;> cases hpassing

/-! ### A report that comes too late -/

/-- The lock is held by a request, and no connection has failed that is not there yet. -/
structure Sane (s : Reconnect τ) : Prop where
  lock : ∀ task, s.lock = some task → s.task task = .requesting
  failed : ∀ n, s.failed n = true → n ≤ s.connection

omit [DecidableEq τ] in
theorem sane_start : (start : Reconnect τ).Sane := ⟨fun _ h => (nomatch h), fun _ h => (nomatch h)⟩

omit [DecidableEq τ] in
theorem Sane.recordFailure {s : Reconnect τ} (hinv : s.Sane) : s.recordFailure.Sane where
  lock := fun _ h => (nomatch h)
  failed := by
    intro n hn
    by_cases heq : n = s.connection
    · exact Nat.le_of_eq heq
    · rw [Reconnect.recordFailure] at hn
      exact hinv.failed n ((Function.update_of_ne heq true s.failed).symm.trans hn)

theorem sane_step {s s' : Reconnect τ} {action : ReconnectAction τ} (hinv : s.Sane) (h : s.step action = some s') :
    s'.Sane := by
  have hkeep : ∀ (task : τ) (phase : TaskPhase), s.task task ≠ .requesting →
      ∀ holder, s.lock = some holder → (s.setTask task phase).task holder = .requesting := by
    intro task phase htask holder hholder
    have hne : holder ≠ task := by
      rintro rfl
      exact htask (hinv.lock holder hholder)
    exact (Function.update_of_ne hne _ _).trans (hinv.lock holder hholder)
  cases action with
  | request task =>
    obtain ⟨-, rfl⟩ := Option.ite_some_none_eq_some.mp h
    refine ⟨?_, hinv.failed⟩
    intro holder hholder
    obtain rfl := Option.some.inj hholder
    exact Function.update_self _ _ _
  | succeed task =>
    obtain ⟨-, rfl⟩ := Option.ite_some_none_eq_some.mp h
    exact ⟨fun _ hnone => (nomatch hnone), hinv.failed⟩
  | fail task | failUnreported task =>
    obtain ⟨-, rfl⟩ := Option.ite_some_none_eq_some.mp h
    exact ⟨fun _ hnone => (nomatch hnone), hinv.recordFailure.failed⟩
  | storeBroken task =>
    obtain ⟨hfailed, rfl⟩ := Option.ite_some_none_eq_some.mp h
    exact ⟨hkeep task .marked (by simp [hfailed]), hinv.failed⟩
  | notifyOne task =>
    obtain ⟨hmarked, h⟩ := Option.ite_none_right_eq_some.mp h
    split at h <;>
    · cases h
      exact ⟨hkeep task .idle (by simp [hmarked]), hinv.failed⟩
  | listen | swapBroken =>
    obtain ⟨-, h⟩ := Option.ite_none_right_eq_some.mp h
    split at h <;>
    · cases h
      exact ⟨hinv.lock, hinv.failed⟩
  | redialFails | redial =>
    obtain ⟨-, rfl⟩ := Option.ite_some_none_eq_some.mp h
    exact ⟨hinv.lock, hinv.failed⟩
  | replace =>
    obtain ⟨-, rfl⟩ := Option.ite_some_none_eq_some.mp h
    exact ⟨hinv.lock, fun n hn => Nat.le_succ_of_le (hinv.failed n hn)⟩

/-- The loop can go on to replace a connection on which no request has failed. -/
def Condemned (s : Reconnect τ) : Prop :=
  ∃ actions s', execute step s actions = some s' ∧ s'.loop = .redialed ∧ s'.lock = none ∧
    s'.failed s'.connection = false

theorem Condemned.of_step {s s' : Reconnect τ} {action : ReconnectAction τ} (h : s.step action = some s')
    (hcondemned : s'.Condemned) : s.Condemned := by
  obtain ⟨actions, s'', hrun, hend⟩ := hcondemned
  exact ⟨action :: actions, s'', execute_cons_eq_some.mpr ⟨s', h, hrun⟩, hend⟩

section Condemned

variable {s : Reconnect τ} (hlock : s.lock = none)

include hlock

theorem condemned_of_notified (hloop : s.loop = .notified) (hbroken : s.broken = true)
    (hhealthy : s.failed s.connection = false) : s.Condemned := by
  have hswap : s.step .swapBroken = some { s with broken := false, loop := .redialing } := by
    simp [step, hloop, hbroken]
  apply Condemned.of_step hswap
  have hredial : ({ s with broken := false, loop := .redialing } : Reconnect τ).step .redial =
      some { s with broken := false, loop := .redialed } := by
    simp [step]
  apply Condemned.of_step hredial
  exact ⟨[], _, rfl, rfl, hlock, hhealthy⟩

theorem condemned_of_listening (hloop : s.loop = .listening) (hpermit : s.permit = true) (hbroken : s.broken = true)
    (hhealthy : s.failed s.connection = false) : s.Condemned := by
  have hlisten : s.step .listen = some { s with permit := false, loop := .notified } := by
    simp [step, hloop, hpermit]
  apply Condemned.of_step hlisten
  refine condemned_of_notified ?_ rfl hbroken hhealthy
  exact hlock

/-- A flag that is set during a pass outlives it. -/
theorem condemned_of_redialed (hloop : s.loop = .redialed) (hpermit : s.permit = true) (hbroken : s.broken = true)
    (hhealthy : s.failed (s.connection + 1) = false) : s.Condemned := by
  have hreplace : s.step .replace = some { s with connection := s.connection + 1, loop := .listening } := by
    simp [step, hloop, hlock]
  apply Condemned.of_step hreplace
  refine condemned_of_listening ?_ rfl hpermit hbroken hhealthy
  exact hlock

/-- Once the second half of a report is done, the loop condemns what it finds. -/
theorem condemned_of_marked {task : τ} (hmarked : s.task task = .marked) (hbroken : s.broken = true)
    (hhealthy : ¬s.Passing → s.failed s.connection = false) (hnext : s.failed (s.connection + 1) = false) :
    s.Condemned := by
  have hwake : s.loop = .blocked → s.step (.notifyOne task) = some { s.setTask task .idle with loop := .notified } := by
    intro hblocked
    simp [step, hmarked, hblocked]
  have hstore : s.loop ≠ .blocked → s.step (.notifyOne task) = some { s.setTask task .idle with permit := true } := by
    intro hawake
    simp [step, hmarked, hawake]
  cases hloop : s.loop with
  | blocked =>
    apply Condemned.of_step (hwake hloop)
    refine condemned_of_notified ?_ rfl hbroken (hhealthy (by simp [Passing, hloop]))
    exact hlock
  | listening =>
    apply Condemned.of_step (hstore (by simp [hloop]))
    refine condemned_of_listening ?_ hloop rfl hbroken (hhealthy (by simp [Passing, hloop]))
    exact hlock
  | notified =>
    apply Condemned.of_step (hstore (by simp [hloop]))
    refine condemned_of_notified ?_ hloop hbroken (hhealthy (by simp [Passing, hloop]))
    exact hlock
  | redialing =>
    apply Condemned.of_step (hstore (by simp [hloop]))
    have hredial : ({ s.setTask task .idle with permit := true } : Reconnect τ).step .redial =
        some { s.setTask task .idle with permit := true, loop := .redialed } := by
      simp [step, setTask, hloop]
    apply Condemned.of_step hredial
    refine condemned_of_redialed ?_ rfl rfl hbroken hnext
    exact hlock
  | redialed =>
    apply Condemned.of_step (hstore (by simp [hloop]))
    refine condemned_of_redialed ?_ hloop rfl hbroken hnext
    exact hlock

end Condemned

/-- A report that is not in time condemns a connection on which no request has failed. -/
theorem condemned_of_late {s s' : Reconnect τ} (hinv : s.Sane) {task : τ} (hlate : ¬s.InTime (.storeBroken task))
    (h : s.step (.storeBroken task) = some s') : s'.Condemned := by
  obtain ⟨hfailed, rfl⟩ := Option.ite_some_none_eq_some.mp h
  have hnext : s.failed (s.connection + 1) = false := by
    by_contra hne
    have hle := hinv.failed (s.connection + 1) (eq_true_of_ne_false hne)
    omega
  have hhealthy : ¬s.Passing → s.failed s.connection = false := by
    intro hpassing
    by_contra hne
    exact hlate ⟨eq_true_of_ne_false hne, hpassing⟩
  cases hlock : s.lock with
  | none =>
    apply @condemned_of_marked _ _ { s.setTask task .marked with broken := true } hlock task _ rfl hhealthy hnext
    exact Function.update_self _ _ _
  | some holder =>
    -- a request that is still under way succeeds first
    have hne : holder ≠ task := by
      rintro rfl
      rw [hinv.lock holder hlock] at hfailed
      cases hfailed
    have hholder : (s.setTask task .marked).task holder = .requesting :=
      (Function.update_of_ne hne _ _).trans (hinv.lock holder hlock)
    have hsucceed : ({ s.setTask task .marked with broken := true } : Reconnect τ).step (.succeed holder) =
        some { (s.setTask task .marked).setTask holder .idle with broken := true, lock := none } :=
      if_pos hholder
    apply Condemned.of_step hsucceed
    apply @condemned_of_marked _ _ { (s.setTask task .marked).setTask holder .idle with broken := true, lock := none }
      rfl task _ rfl hhealthy hnext
    exact (Function.update_of_ne hne.symm _ _).trans (Function.update_self _ _ _)

/-! ### Any order of failures -/

/-- Whatever the order of failures, reports and redials: when the loop is blocked and no report
is half done, the flag is down; as long as every report is in time, only a connection on which a
request has failed is replaced; and a report that is not in time condemns one on which none has. -/
theorem one_failure_one_reconnect {actions : List (ReconnectAction τ)} {s : Reconnect τ}
    (h : execute step start actions = some s) :
    (s.loop = .blocked → s.permit = false → (∀ task, s.task task ≠ .marked) → s.broken = false) ∧
    (Permitted step InTime start actions → ∀ s', s.step .replace = some s' → s.failed s.connection = true) ∧
    ∀ task s', s.step (.storeBroken task) = some s' → ¬s.InTime (.storeBroken task) → s'.Condemned := by
  have hall : Permitted step (fun _ _ => True) start actions := permitted_of_forall (fun _ _ _ => trivial) start
  refine ⟨?_, ?_, ?_⟩
  · intro hblocked hpermit hmarked
    have hannounced : s.Announced := invariant_of_execute (fun _ _ _ hinv _ => announced_step hinv)
      announced_start hall h
    by_contra hbroken
    rcases hannounced (eq_true_of_ne_false hbroken) with hstored | hnotified | ⟨task, htask⟩
    · rw [hpermit] at hstored
      cases hstored
    · rw [hblocked] at hnotified
      cases hnotified
    · exact hmarked task htask
  · intro htime s' hreplace
    have hdeserved : s.Deserved := invariant_of_execute (fun _ _ _ hinv htime => deserved_step hinv htime)
      deserved_start htime h
    obtain ⟨⟨hredialed, -⟩, -⟩ := Option.ite_some_none_eq_some.mp hreplace
    exact hdeserved.passing (.inr hredialed)
  · intro task s' hstore hlate
    have hsane : s.Sane := invariant_of_execute (fun _ _ _ hinv _ => sane_step hinv) sane_start hall h
    exact condemned_of_late hsane hlate hstore

/-! ### Two tasks that fail on one connection -/

/-- Both requests fail on connection 0. The second task has been preempted between its failure
and its report; in the meantime the connection was replaced. -/
def latecomer : List (ReconnectAction Bool) :=
  [.listen, .request false, .fail false, .request true, .fail true, .storeBroken false, .notifyOne false,
    .swapBroken, .redial, .replace, .listen, .storeBroken true, .notifyOne true, .swapBroken, .redial]

/-- The report of a failure on connection 0 has connection 1 thrown away. -/
theorem healthy_connection_replaced : ∃ s s', execute step start latecomer = some s ∧
    s.step .replace = some s' ∧ s.connection = 1 ∧ s.failed s.connection = false := by
  refine ⟨_, _, rfl, rfl, rfl, ?_⟩
  decide

/-- Both requests fail on connection 0, and both tasks report that before the loop takes the flag. -/
def bothInTime : List (ReconnectAction Bool) :=
  [.listen, .request false, .fail false, .request true, .fail true, .storeBroken false, .notifyOne false,
    .storeBroken true, .swapBroken, .redial]

/-- The second notification comes after the connection was replaced. -/
def secondWakeup : List (ReconnectAction Bool) := [.replace, .notifyOne true, .listen, .swapBroken, .listen]

theorem inTime_bothInTime : Permitted step InTime start bothInTime := by
  have hidle : ∀ {s : Reconnect Bool}, s.loop = .notified → ¬s.Passing := by
    rintro s hloop (hpassing | hpassing) <;> cases hloop.symm.trans hpassing
  refine permitted_cons trivial rfl (permitted_cons trivial rfl (permitted_cons trivial rfl (permitted_cons trivial rfl
    (permitted_cons trivial rfl (permitted_cons ⟨rfl, ?_⟩ rfl (permitted_cons trivial rfl (permitted_cons
      ⟨rfl, hidle rfl⟩ rfl (permitted_cons trivial rfl (permitted_cons trivial rfl trivial)))))))))
  rintro (hpassing | hpassing) <;> cases hpassing

/-- The failed connection is replaced, and the one in its place is kept. -/
theorem one_failure_one_reconnect_both : ∃ s s' t, execute step start bothInTime = some s ∧
    s.step .replace = some s' ∧ s.failed s.connection = true ∧
    execute step start (bothInTime ++ secondWakeup) = some t ∧ t.connection = 1 ∧ t.loop = .blocked ∧
      t.broken = false := by
  refine ⟨_, _, _, rfl, rfl, ?_, rfl, rfl, rfl, ?_⟩
  · exact (@one_failure_one_reconnect Bool _ bothInTime _ rfl).2.1 inTime_bothInTime _ rfl
  · refine (@one_failure_one_reconnect Bool _ (bothInTime ++ secondWakeup) _ rfl).1 rfl rfl ?_
    decide

end Reconnect

end InfusedModbus.Client
