import InfusedModbus.Client.BdSeqPersistence

/-! The sessions of an edge node, one process after another. A process takes the number for its
session from the file, puts the next one there, registers its death with the broker and announces
its birth. It may be killed between any two of these; the broker sends the death of a session
when it notices its end, which may be when the next one has long begun. -/

namespace InfusedModbus.Client

open Foundation Datafs

/-! ### Processes, the broker and a host -/

/-- How far `next_bd_seq` has come. -/
inductive PersistStage where
  | read
  | created
  | written
  deriving DecidableEq, Repr

/-- A connection that was lost is made again, but no birth is announced on the new one. -/
inductive EdgeNodeProcess where
  | down
  | nextBdSeq (stage : PersistStage) (current : UInt64)
  | ready (bdSeq : UInt64)
  | connected (bdSeq : UInt64) (lost : Bool)
  deriving DecidableEq, Repr

/-- The session that a host takes to be alive, and those whose births it has heard. -/
structure SessionHost where
  online : Option UInt64
  heard : List UInt64
  deriving DecidableEq, Repr

namespace SessionHost

def hearNbirth (host : SessionHost) (payload : Bytes) : SessionHost :=
  match bdSeqOf payload with
  | some bdSeq => ⟨some bdSeq, bdSeq :: host.heard⟩
  | none => host

/-- The death of another session than the one that is alive is a stale one. -/
def hearNdeath (host : SessionHost) (payload : Bytes) : SessionHost :=
  if (bdSeqOf payload).isSome ∧ host.online = bdSeqOf payload then { host with online := none } else host

end SessionHost

/-- The births that are under way to the host, the deaths that the broker has sent or will send,
and the sessions that there have been. -/
structure EdgeNodeSessions where
  files : BdSeqFiles
  process : EdgeNodeProcess
  sessions : List UInt64
  nbirths : List Bytes
  wills : List Bytes
  host : SessionHost

/-- `startUnread` is a start at which a file cannot be read that is there, and `persistFails` a
file system that refuses a write or the renaming. Births may be lost on the way, deaths arrive
in any order, and may arrive twice. -/
inductive SessionAction where
  | start
  | startUnread
  | create
  | write (count : ℕ)
  | rename
  | persistFails
  | connect
  | publishNbirth (timestampMillis : UInt64)
  | loseConnection
  | kill
  | hearNbirth
  | loseNbirth
  | hearNdeath (will : Bytes)

namespace EdgeNodeSessions

/-- No session yet, whatever is in the files. -/
structure IsFirst (s : EdgeNodeSessions) : Prop where
  process : s.process = .down
  sessions : s.sessions = []
  nbirths : s.nbirths = []
  wills : s.wills = []
  heard : s.host.heard = []

def step (s : EdgeNodeSessions) : SessionAction → Option EdgeNodeSessions
  | .start => match s.process with
    | .down => some { s with process := .nextBdSeq .read s.files.current }
    | _ => none
  | .startUnread => match s.process with
    | .down => some { s with process := .nextBdSeq .read 0 }
    | _ => none
  | .create => match s.process with
    | .nextBdSeq .read current =>
      some { s with files := { s.files with tempPath := some [] }, process := .nextBdSeq .created current }
    | _ => none
  | .write count => match s.process with
    | .nextBdSeq .created current =>
      let text := bdSeqText (current + 1)
      some { s with
        files := { s.files with tempPath := some (text.take count) }
        process := .nextBdSeq (if text.length ≤ count then .written else .created) current }
    | _ => none
  | .rename => match s.process with
    | .nextBdSeq .written current => some { s with files := ⟨s.files.tempPath, none⟩, process := .ready current }
    | _ => none
  | .persistFails => match s.process with
    | .nextBdSeq _ current => some { s with process := .ready current }
    | _ => none
  | .connect => match s.process with
    | .ready bdSeq => some { s with process := .connected bdSeq false, sessions := s.sessions ++ [bdSeq] }
    | _ => none
  | .publishNbirth timestampMillis => match s.process with
    | .connected bdSeq _ => some { s with nbirths := s.nbirths ++ [nbirthBytes bdSeq timestampMillis] }
    | _ => none
  | .loseConnection => match s.process with
    | .connected bdSeq _ => some { s with process := .connected bdSeq true, wills := ndeathBytes bdSeq :: s.wills }
    | _ => none
  | .kill => match s.process with
    | .connected bdSeq _ => some { s with process := .down, wills := ndeathBytes bdSeq :: s.wills }
    | _ => some { s with process := .down }
  | .hearNbirth => match s.nbirths with
    | payload :: nbirths => some { s with nbirths := nbirths, host := s.host.hearNbirth payload }
    | [] => none
  | .loseNbirth => match s.nbirths with
    | _ :: nbirths => some { s with nbirths := nbirths }
    | [] => none
  | .hearNdeath will => if will ∈ s.wills then some { s with host := s.host.hearNdeath will } else none

/-- A process that nothing interferes with does what `next_bd_seq` does. -/
theorem execute_nextBdSeq {s : EdgeNodeSessions} (hdown : s.process = .down) {count : ℕ}
    (hcount : (bdSeqText (s.files.current + 1)).length ≤ count) :
    execute step s [.start, .create, .write count, .rename] =
      some { s with files := (nextBdSeq s.files).2, process := .ready (nextBdSeq s.files).1 } := by
  simp [execute, step, hdown, hcount, nextBdSeq, List.take_of_length_le hcount]

/-- The file is read and written, and its number is not the last one there is. -/
def Persists (s : EdgeNodeSessions) : SessionAction → Prop
  | .start => s.files.current + 1 ≠ 0
  | .startUnread | .persistFails => False
  | _ => True

/-! ### Numbers grow -/

/-- A process has a number above those of the sessions before it, and the file one above its own. -/
def Numbered (s : EdgeNodeSessions) : Prop :=
  match s.process with
  | .down => ∀ bdSeq ∈ s.sessions, bdSeq < s.files.current
  | .nextBdSeq stage current =>
    (∀ bdSeq ∈ s.sessions, bdSeq < current) ∧ s.files.current = current ∧ current + 1 ≠ 0 ∧
      (stage = .written → s.files.tempPath = some (bdSeqText (current + 1)))
  | .ready current => (∀ bdSeq ∈ s.sessions, bdSeq < current) ∧ current < s.files.current
  | .connected current _ =>
    current ∈ s.sessions ∧ (∀ bdSeq ∈ s.sessions, bdSeq ≤ current) ∧ current < s.files.current

theorem lt_succ_of_ne {n : UInt64} (h : n + 1 ≠ 0) : n < n + 1 := by
  have hne : (n + 1).toNat ≠ 0 := fun hzero => h (UInt64.toNat_inj.mp hzero)
  have hlt := n.toNat_lt
  rw [UInt64.lt_iff_toNat_lt, UInt64.toNat_add] at *
  simp only [UInt64.toNat_one] at *
  omega

/-- The sessions so far have growing numbers, and the next one will go on above them. -/
structure Ordered (s : EdgeNodeSessions) : Prop where
  increasing : s.sessions.Pairwise (· < ·)
  numbered : s.Numbered

variable {s s' : EdgeNodeSessions}

theorem IsFirst.ordered (h : s.IsFirst) : s.Ordered := by
  refine ⟨by simp [h.sessions], ?_⟩
  rw [Numbered, h.process, h.sessions]
  simp

theorem Ordered.step {action : SessionAction} (hordered : s.Ordered) (hpersists : s.Persists action)
    (h : s.step action = some s') : s'.Ordered := by
  obtain ⟨hincreasing, hnumbered⟩ := hordered
  rw [Numbered] at hnumbered
  cases action with
  | start =>
    rw [EdgeNodeSessions.step] at h
    split at h <;> cases h
    next hprocess =>
    rw [hprocess] at hnumbered
    exact ⟨hincreasing, hnumbered, rfl, hpersists, by simp⟩
  | startUnread | persistFails => exact absurd hpersists id
  | create =>
    rw [EdgeNodeSessions.step] at h
    split at h <;> cases h
    next current hprocess =>
    rw [hprocess] at hnumbered
    obtain ⟨hbelow, hcurrent, hne, -⟩ := hnumbered
    exact ⟨hincreasing, hbelow, hcurrent, hne, by simp⟩
  | write count =>
    rw [EdgeNodeSessions.step] at h
    split at h <;> cases h
    next current hprocess =>
    rw [hprocess] at hnumbered
    obtain ⟨hbelow, hcurrent, hne, -⟩ := hnumbered
    refine ⟨hincreasing, hbelow, hcurrent, hne, ?_⟩
    intro hwritten
    -- all is written when the count reaches the length of the text
    have hcount : (bdSeqText (current + 1)).length ≤ count := by
      by_contra hshort
      rw [if_neg hshort] at hwritten
      cases hwritten
    exact congrArg some (List.take_of_length_le hcount)
  | rename =>
    rw [EdgeNodeSessions.step] at h
    split at h <;> cases h
    next current hprocess =>
    rw [hprocess] at hnumbered
    obtain ⟨hbelow, hcurrent, hne, hwritten⟩ := hnumbered
    refine ⟨hincreasing, hbelow, ?_⟩
    rw [hwritten rfl, current_bdSeqText]
    exact lt_succ_of_ne hne
  | connect =>
    rw [EdgeNodeSessions.step] at h
    split at h <;> cases h
    next bdSeq hprocess =>
    rw [hprocess] at hnumbered
    obtain ⟨hbelow, hfile⟩ := hnumbered
    refine ⟨?_, List.mem_append_right _ List.mem_cons_self, ?_, hfile⟩
    · refine List.pairwise_append.mpr ⟨hincreasing, List.pairwise_singleton _ _, ?_⟩
      intro earlier hearlier later hlater
      obtain rfl := List.mem_singleton.mp hlater
      exact hbelow earlier hearlier
    · intro earlier hearlier
      rcases List.mem_append.mp hearlier with hearlier | hearlier
      · exact UInt64.le_of_lt (hbelow earlier hearlier)
      · obtain rfl := List.mem_singleton.mp hearlier
        exact UInt64.le_refl earlier
  | publishNbirth timestampMillis =>
    rw [EdgeNodeSessions.step] at h
    split at h <;> cases h
    next bdSeq lost hprocess => exact ⟨hincreasing, by rwa [Numbered]⟩
  | loseConnection =>
    rw [EdgeNodeSessions.step] at h
    split at h <;> cases h
    next bdSeq lost hprocess =>
    rw [hprocess] at hnumbered
    exact ⟨hincreasing, hnumbered⟩
  | kill =>
    -- wherever the process is, what the file says is above all sessions
    have hbelow : ∀ bdSeq ∈ s.sessions, bdSeq < s.files.current := by
      split at hnumbered
      · exact hnumbered
      · obtain ⟨hbelow, hcurrent, -⟩ := hnumbered
        rwa [hcurrent]
      · exact fun bdSeq hbdSeq => UInt64.lt_trans (hnumbered.1 bdSeq hbdSeq) hnumbered.2
      · exact fun bdSeq hbdSeq => UInt64.lt_of_le_of_lt (hnumbered.2.1 bdSeq hbdSeq) hnumbered.2.2
    rw [EdgeNodeSessions.step] at h
    split at h <;> cases h <;> exact ⟨hincreasing, hbelow⟩
  | hearNbirth | loseNbirth =>
    rw [EdgeNodeSessions.step] at h
    split at h <;> cases h
    exact ⟨hincreasing, by rwa [Numbered]⟩
  | hearNdeath will =>
    obtain ⟨-, h⟩ := Option.ite_none_right_eq_some.mp h
    cases h
    exact ⟨hincreasing, by rwa [Numbered]⟩

/-! ### What a host makes of it -/

/-- All that is under way is of sessions there have been, older births first. The host has the
session that is connected for alive once it has heard its birth, and no older birth comes after. -/
structure Fenced (s : EdgeNodeSessions) : Prop where
  nbirths : ∀ payload ∈ s.nbirths, ∃ bdSeq ∈ s.sessions, bdSeqOf payload = some bdSeq
  inOrder : s.nbirths.Pairwise fun earlier later =>
    ∀ bdSeq ∈ bdSeqOf earlier, ∀ bdSeq' ∈ bdSeqOf later, bdSeq ≤ bdSeq'
  wills : ∀ will ∈ s.wills, ∃ bdSeq ∈ s.sessions, bdSeqOf will = some bdSeq ∧ s.process ≠ .connected bdSeq false
  heard : ∀ bdSeq ∈ s.host.heard, bdSeq ∈ s.sessions
  online : ∀ bdSeq, s.process = .connected bdSeq false → bdSeq ∈ s.host.heard →
    s.host.online = some bdSeq ∧ ∀ payload ∈ s.nbirths, bdSeqOf payload = some bdSeq

theorem IsFirst.fenced (h : s.IsFirst) : s.Fenced := by
  refine ⟨by simp [h.nbirths], by simp [h.nbirths], by simp [h.wills], by simp [h.heard], ?_⟩
  intro bdSeq hprocess
  rw [h.process] at hprocess
  cases hprocess

/-- What is under way stays as it was when a process that is not connected goes on. -/
theorem Fenced.of_process (hfenced : s.Fenced) {process : EdgeNodeProcess}
    (h : ∀ bdSeq, process ≠ .connected bdSeq false) (files : BdSeqFiles) :
    ({ s with files := files, process := process } : EdgeNodeSessions).Fenced where
  nbirths := hfenced.nbirths
  inOrder := hfenced.inOrder
  wills := by
    intro will hwill
    obtain ⟨bdSeq, hbdSeq, hcarried, -⟩ := hfenced.wills will hwill
    exact ⟨bdSeq, hbdSeq, hcarried, h bdSeq⟩
  heard := hfenced.heard
  online := fun bdSeq hprocess => absurd hprocess (h bdSeq)

/-- A session that ends leaves its death behind. -/
theorem Fenced.of_end (hfenced : s.Fenced) {bdSeq : UInt64} (hbdSeq : bdSeq ∈ s.sessions) {process : EdgeNodeProcess}
    (h : ∀ bdSeq, process ≠ .connected bdSeq false) :
    ({ s with process := process, wills := ndeathBytes bdSeq :: s.wills } : EdgeNodeSessions).Fenced where
  nbirths := hfenced.nbirths
  inOrder := hfenced.inOrder
  wills := by
    intro will hwill
    rcases List.mem_cons.mp hwill with rfl | hwill
    · exact ⟨bdSeq, hbdSeq, bdSeqOf_ndeathBytes bdSeq, h bdSeq⟩
    · obtain ⟨other, hother, hcarried, -⟩ := hfenced.wills will hwill
      exact ⟨other, hother, hcarried, h other⟩
  heard := hfenced.heard
  online := fun bdSeq hprocess => absurd hprocess (h bdSeq)

/-- A new session is above all that is under way. -/
theorem Fenced.connect (hfenced : s.Fenced) {bdSeq : UInt64} (hbelow : ∀ earlier ∈ s.sessions, earlier < bdSeq) :
    ({ s with process := .connected bdSeq false, sessions := s.sessions ++ [bdSeq] } : EdgeNodeSessions).Fenced where
  nbirths := by
    intro payload hpayload
    obtain ⟨other, hother, hcarried⟩ := hfenced.nbirths payload hpayload
    exact ⟨other, List.mem_append_left _ hother, hcarried⟩
  inOrder := hfenced.inOrder
  wills := by
    intro will hwill
    obtain ⟨other, hother, hcarried, -⟩ := hfenced.wills will hwill
    refine ⟨other, List.mem_append_left _ hother, hcarried, ?_⟩
    intro hsame
    cases hsame
    exact UInt64.lt_irrefl _ (hbelow bdSeq hother)
  heard := fun other hother => List.mem_append_left _ (hfenced.heard other hother)
  online := by
    intro other hsame hheard
    cases hsame
    exact absurd (hbelow bdSeq (hfenced.heard bdSeq hheard)) (UInt64.lt_irrefl _)

/-- A birth is of the newest session. -/
theorem Fenced.publishNbirth (hfenced : s.Fenced) {bdSeq : UInt64} {lost : Bool}
    (hprocess : s.process = .connected bdSeq lost) (hbdSeq : bdSeq ∈ s.sessions)
    (habove : ∀ earlier ∈ s.sessions, earlier ≤ bdSeq) (timestampMillis : UInt64) :
    ({ s with nbirths := s.nbirths ++ [nbirthBytes bdSeq timestampMillis] } : EdgeNodeSessions).Fenced where
  nbirths := by
    intro payload hpayload
    rcases List.mem_append.mp hpayload with hpayload | hpayload
    · exact hfenced.nbirths payload hpayload
    · obtain rfl := List.mem_singleton.mp hpayload
      exact ⟨bdSeq, hbdSeq, bdSeqOf_nbirthBytes bdSeq timestampMillis⟩
  inOrder := by
    refine List.pairwise_append.mpr ⟨hfenced.inOrder, List.pairwise_singleton _ _, ?_⟩
    intro earlier hearlier later hlater number hnumber number' hnumber'
    obtain rfl := List.mem_singleton.mp hlater
    rw [bdSeqOf_nbirthBytes] at hnumber'
    obtain rfl := Option.some.inj hnumber'
    obtain ⟨other, hother, hcarried⟩ := hfenced.nbirths earlier hearlier
    obtain rfl := Option.mem_unique hnumber hcarried
    exact habove number hother
  wills := hfenced.wills
  heard := hfenced.heard
  online := by
    intro other hsame hheard
    obtain ⟨honline, hothers⟩ := hfenced.online other hsame hheard
    refine ⟨honline, ?_⟩
    intro payload hpayload
    rcases List.mem_append.mp hpayload with hpayload | hpayload
    · exact hothers payload hpayload
    · obtain rfl := List.mem_singleton.mp hpayload
      obtain ⟨rfl, -⟩ := EdgeNodeProcess.connected.inj (hprocess.symm.trans hsame)
      exact bdSeqOf_nbirthBytes bdSeq timestampMillis

/-- A birth that arrives makes its session the one that is alive. -/
theorem Fenced.hearNbirth (hfenced : s.Fenced) (hordered : s.Ordered) {payload : Bytes} {nbirths : List Bytes}
    (h : s.nbirths = payload :: nbirths) :
    ({ s with nbirths := nbirths, host := s.host.hearNbirth payload } : EdgeNodeSessions).Fenced := by
  obtain ⟨hnbirths, hinOrder, hwills, hheard, honline⟩ := hfenced
  rw [h] at hnbirths hinOrder honline
  obtain ⟨hfirst, hrest⟩ := List.pairwise_cons.mp hinOrder
  obtain ⟨bdSeq, hbdSeq, hcarried⟩ := hnbirths payload List.mem_cons_self
  have hhost : s.host.hearNbirth payload = ⟨some bdSeq, bdSeq :: s.host.heard⟩ := by
    rw [SessionHost.hearNbirth, hcarried]
  refine ⟨fun other hother => hnbirths other (List.mem_cons_of_mem _ hother), hrest, hwills, ?_, ?_⟩
  · rw [hhost]
    intro other hother
    rcases List.mem_cons.mp hother with rfl | hother
    · exact hbdSeq
    · exact hheard other hother
  · intro current hprocess hcurrent
    rw [hhost] at hcurrent ⊢
    rcases List.mem_cons.mp hcurrent with rfl | hcurrent
    · refine ⟨rfl, ?_⟩
      intro later hlater
      obtain ⟨number, hnumber, hlaterCarried⟩ := hnbirths later (List.mem_cons_of_mem _ hlater)
      -- it is not below this one as it comes after it, and not above as this is the newest session
      have hle := hfirst later hlater current hcarried number hlaterCarried
      have hge : number ≤ current := by
        have hnumbered := hordered.numbered
        rw [Numbered, show s.process = .connected current false from hprocess] at hnumbered
        exact hnumbered.2.1 number hnumber
      rw [hlaterCarried, UInt64.le_antisymm hge hle]
    · obtain ⟨-, hothers⟩ := honline current hprocess hcurrent
      obtain rfl := Option.mem_unique hcarried (hothers payload List.mem_cons_self)
      exact ⟨rfl, fun other hother => hothers other (List.mem_cons_of_mem _ hother)⟩

/-- A birth that is lost is not missed by what comes after it. -/
theorem Fenced.loseNbirth (hfenced : s.Fenced) {payload : Bytes} {nbirths : List Bytes}
    (h : s.nbirths = payload :: nbirths) : ({ s with nbirths := nbirths } : EdgeNodeSessions).Fenced := by
  obtain ⟨hnbirths, hinOrder, hwills, hheard, honline⟩ := hfenced
  rw [h] at hnbirths hinOrder honline
  refine ⟨fun other hother => hnbirths other (List.mem_cons_of_mem _ hother), (List.pairwise_cons.mp hinOrder).2,
    hwills, hheard, ?_⟩
  intro bdSeq hprocess hbdSeq
  obtain ⟨hsame, hothers⟩ := honline bdSeq hprocess hbdSeq
  exact ⟨hsame, fun other hother => hothers other (List.mem_cons_of_mem _ hother)⟩

theorem heard_hearNdeath (host : SessionHost) (will : Bytes) : (host.hearNdeath will).heard = host.heard := by
  rw [SessionHost.hearNdeath]
  split <;> rfl

/-- A stale death changes nothing for the session that is connected. -/
theorem Fenced.hearNdeath (hfenced : s.Fenced) {will : Bytes} (hwill : will ∈ s.wills) :
    ({ s with host := s.host.hearNdeath will } : EdgeNodeSessions).Fenced := by
  obtain ⟨hnbirths, hinOrder, hwills, hheard, honline⟩ := hfenced
  refine ⟨hnbirths, hinOrder, hwills, ?_, ?_⟩
  · rwa [heard_hearNdeath]
  · intro bdSeq hprocess hbdSeq
    rw [heard_hearNdeath] at hbdSeq
    obtain ⟨hsame, hothers⟩ := honline bdSeq hprocess hbdSeq
    refine ⟨?_, hothers⟩
    obtain ⟨other, -, hcarried, hne⟩ := hwills will hwill
    rw [SessionHost.hearNdeath, if_neg]
    · exact hsame
    · rintro ⟨-, heq⟩
      rw [hsame, hcarried] at heq
      obtain rfl := Option.some.inj heq
      exact hne hprocess

theorem Fenced.step {action : SessionAction} (hfenced : s.Fenced) (hordered : s.Ordered)
    (h : s.step action = some s') : s'.Fenced := by
  have hnumbered := hordered.numbered
  rw [Numbered] at hnumbered
  cases action with
  | start | startUnread | create | write count | rename | persistFails =>
    rw [EdgeNodeSessions.step] at h
    split at h <;> cases h
    exact hfenced.of_process (by simp) _
  | connect =>
    rw [EdgeNodeSessions.step] at h
    split at h <;> cases h
    next bdSeq hprocess =>
    rw [hprocess] at hnumbered
    exact hfenced.connect hnumbered.1
  | publishNbirth timestampMillis =>
    rw [EdgeNodeSessions.step] at h
    split at h <;> cases h
    next bdSeq lost hprocess =>
    rw [hprocess] at hnumbered
    exact hfenced.publishNbirth hprocess hnumbered.1 hnumbered.2.1 timestampMillis
  | loseConnection =>
    rw [EdgeNodeSessions.step] at h
    split at h <;> cases h
    next bdSeq lost hprocess =>
    rw [hprocess] at hnumbered
    exact hfenced.of_end hnumbered.1 (by simp)
  | kill =>
    rw [EdgeNodeSessions.step] at h
    split at h <;> cases h
    · next bdSeq lost hprocess =>
      rw [hprocess] at hnumbered
      exact hfenced.of_end hnumbered.1 (by simp)
    · exact hfenced.of_process (by simp) s.files
  | hearNbirth =>
    rw [EdgeNodeSessions.step] at h
    split at h <;> cases h
    next payload nbirths hnbirths => exact hfenced.hearNbirth hordered hnbirths
  | loseNbirth =>
    rw [EdgeNodeSessions.step] at h
    split at h <;> cases h
    next payload nbirths hnbirths => exact hfenced.loseNbirth hnbirths
  | hearNdeath will =>
    obtain ⟨hwill, h⟩ := Option.ite_none_right_eq_some.mp h
    cases h
    exact hfenced.hearNdeath hwill

/-! ### Sessions that are over -/

/-- A session there has been, that is not connected, and no birth of which is under way. -/
structure Over (s : EdgeNodeSessions) (bdSeq : UInt64) : Prop where
  session : bdSeq ∈ s.sessions
  ended : ∀ lost, s.process ≠ .connected bdSeq lost
  noNbirth : ∀ payload ∈ s.nbirths, bdSeqOf payload ≠ some bdSeq

/-- A session that is over stays over, and when a host does not have it for alive it never will. -/
theorem Over.step {action : SessionAction} {bdSeq : UInt64} (hover : s.Over bdSeq)
    (hoffline : s.host.online ≠ some bdSeq)
    (hordered : s.Ordered) (h : s.step action = some s') : s'.Over bdSeq ∧ s'.host.online ≠ some bdSeq := by
  have hnumbered := hordered.numbered
  rw [Numbered] at hnumbered
  obtain ⟨hsession, hended, hnoNbirth⟩ := hover
  cases action with
  | start | startUnread | create | write count | rename | persistFails =>
    rw [EdgeNodeSessions.step] at h
    split at h <;> cases h
    exact ⟨⟨hsession, by simp, hnoNbirth⟩, hoffline⟩
  | connect =>
    rw [EdgeNodeSessions.step] at h
    split at h <;> cases h
    next current hprocess =>
    rw [hprocess] at hnumbered
    refine ⟨⟨List.mem_append_left _ hsession, ?_, hnoNbirth⟩, hoffline⟩
    intro lost hsame
    cases hsame
    exact UInt64.lt_irrefl _ (hnumbered.1 bdSeq hsession)
  | publishNbirth timestampMillis =>
    rw [EdgeNodeSessions.step] at h
    split at h <;> cases h
    next current lost hprocess =>
    refine ⟨⟨hsession, hended, ?_⟩, hoffline⟩
    intro payload hpayload
    rcases List.mem_append.mp hpayload with hpayload | hpayload
    · exact hnoNbirth payload hpayload
    · obtain rfl := List.mem_singleton.mp hpayload
      rw [bdSeqOf_nbirthBytes]
      rintro hsame
      obtain rfl := Option.some.inj hsame
      exact hended lost hprocess
  | loseConnection =>
    rw [EdgeNodeSessions.step] at h
    split at h <;> cases h
    next current lost hprocess =>
    refine ⟨⟨hsession, ?_, hnoNbirth⟩, hoffline⟩
    intro lost' hsame
    cases hsame
    exact hended lost hprocess
  | kill =>
    rw [EdgeNodeSessions.step] at h
    split at h <;> cases h <;> exact ⟨⟨hsession, by simp, hnoNbirth⟩, hoffline⟩
  | hearNbirth =>
    rw [EdgeNodeSessions.step] at h
    split at h <;> cases h
    next payload nbirths hnbirths =>
    rw [hnbirths] at hnoNbirth
    refine ⟨⟨hsession, hended, fun other hother => hnoNbirth other (List.mem_cons_of_mem _ hother)⟩, ?_⟩
    have hother := hnoNbirth payload List.mem_cons_self
    simp only [SessionHost.hearNbirth]
    split
    · next number hcarried => rwa [← hcarried]
    · exact hoffline
  | loseNbirth =>
    rw [EdgeNodeSessions.step] at h
    split at h <;> cases h
    next payload nbirths hnbirths =>
    rw [hnbirths] at hnoNbirth
    exact ⟨⟨hsession, hended, fun other hother => hnoNbirth other (List.mem_cons_of_mem _ hother)⟩, hoffline⟩
  | hearNdeath will =>
    obtain ⟨-, h⟩ := Option.ite_none_right_eq_some.mp h
    cases h
    refine ⟨⟨hsession, hended, hnoNbirth⟩, ?_⟩
    simp only [SessionHost.hearNdeath]
    split
    · simp
    · exact hoffline

/-- A host that hears the death of a session does not have it for alive. -/
theorem online_hearNdeath {host : SessionHost} {will : Bytes} {bdSeq : UInt64} (h : bdSeqOf will = some bdSeq) :
    (host.hearNdeath will).online ≠ some bdSeq := by
  rw [SessionHost.hearNdeath, h]
  split
  · simp
  · next hother => exact fun hsame => hother ⟨rfl, hsame⟩

/-! ### Every run -/

theorem ordered_fenced_execute {start : EdgeNodeSessions} {actions : List SessionAction}
    (hstart : start.Ordered ∧ start.Fenced) (hpersists : Permitted step Persists start actions)
    (hrun : execute step start actions = some s) : s.Ordered ∧ s.Fenced := by
  refine @invariant_of_execute _ _ step Persists (fun t => t.Ordered ∧ t.Fenced) ?_ _ _ hstart _ hpersists hrun
  rintro t action t' ⟨hordered, hfenced⟩ hpermitted hstep
  exact ⟨hordered.step hpermitted hstep, hfenced.step hordered hstep⟩

/-- When the number is persisted at every start, sessions have growing numbers across all
processes, wherever these are killed. A host that has heard the birth of the session that is
connected has it for alive, whichever deaths of older ones come late; and once it has heard the
death of a session that is over, it never has this one for alive again. -/
theorem sessions_told_apart {start : EdgeNodeSessions} (hstart : start.IsFirst) {actions : List SessionAction}
    (hpersists : Permitted step Persists start actions) (hrun : execute step start actions = some s) :
    s.sessions.Pairwise (· < ·) ∧
      (∀ bdSeq, s.process = .connected bdSeq false → bdSeq ∈ s.host.heard → s.host.online = some bdSeq) ∧
      ∀ bdSeq will, s.Over bdSeq → bdSeqOf will = some bdSeq → ∀ later t,
        Permitted step Persists s (.hearNdeath will :: later) →
        execute step s (.hearNdeath will :: later) = some t → t.host.online ≠ some bdSeq := by
  have hinv := ordered_fenced_execute ⟨hstart.ordered, hstart.fenced⟩ hpersists hrun
  refine ⟨hinv.1.increasing, fun bdSeq hprocess hheard => (hinv.2.online bdSeq hprocess hheard).1, ?_⟩
  intro bdSeq will hover hcarried later t hlater hexecute
  obtain ⟨u, hdeath, hrest⟩ := execute_cons_eq_some.mp hexecute
  have hordered : u.Ordered := hinv.1.step hlater.1 hdeath
  have hstill : u.Over bdSeq ∧ u.host.online ≠ some bdSeq := by
    obtain ⟨-, hdeath⟩ := Option.ite_none_right_eq_some.mp hdeath
    cases hdeath
    exact ⟨⟨hover.session, hover.ended, hover.noNbirth⟩, online_hearNdeath hcarried⟩
  refine (@invariant_of_execute _ _ step Persists
    (fun t => t.Ordered ∧ t.Over bdSeq ∧ t.host.online ≠ some bdSeq) ?_ _ _ ⟨hordered, hstill⟩ _ (hlater.2 u hdeath)
    hrest).2.2
  rintro v action v' ⟨hordered, hover, hoffline⟩ hpermitted hstep
  exact ⟨hordered.step hpermitted hstep, hover.step hoffline hordered hstep⟩

/-- The number in the file grows by one a process at most. -/
theorem current_step_le {action : SessionAction} (hordered : s.Ordered) (hpersists : s.Persists action)
    (h : s.step action = some s') : s'.files.current.toNat ≤ s.files.current.toNat + 1 := by
  have hnumbered := hordered.numbered
  rw [Numbered] at hnumbered
  cases action with
  | rename =>
    rw [EdgeNodeSessions.step] at h
    split at h <;> cases h
    next current hprocess =>
    rw [hprocess] at hnumbered
    obtain ⟨-, hcurrent, -, hwritten⟩ := hnumbered
    rw [hwritten rfl, current_bdSeqText, hcurrent, UInt64.toNat_add]
    exact Nat.mod_le _ _
  | hearNdeath will =>
    obtain ⟨-, h⟩ := Option.ite_none_right_eq_some.mp h
    cases h
    exact Nat.le_succ _
  | _ =>
    rw [EdgeNodeSessions.step] at h
    split at h <;> cases h <;> exact Nat.le_succ _

/-- So numbers last for any run of which there can be one. -/
theorem permitted_of_length {actions : List SessionAction} (hordered : s.Ordered)
    (hsucceeds : ∀ action ∈ actions, action ≠ .startUnread ∧ action ≠ .persistFails)
    (hlength : s.files.current.toNat + actions.length < 2 ^ 64) : Permitted step Persists s actions := by
  induction actions generalizing s with
  | nil => trivial
  | cons action actions ih =>
    rw [List.length_cons] at hlength
    have hpersists : s.Persists action := by
      obtain ⟨hunread, hfails⟩ := hsucceeds action List.mem_cons_self
      cases action with
      | start =>
        intro hzero
        have hnat := congrArg UInt64.toNat hzero
        rw [UInt64.toNat_add, UInt64.toNat_one, Nat.mod_eq_of_lt (by omega)] at hnat
        exact absurd hnat (Nat.succ_ne_zero _)
      | startUnread => exact absurd rfl hunread
      | persistFails => exact absurd rfl hfails
      | _ => trivial
    refine ⟨hpersists, ?_⟩
    intro s' hstep
    refine ih (hordered.step hpersists hstep) (fun other hother => hsucceeds other (List.mem_cons_of_mem _ hother)) ?_
    have := current_step_le hordered hpersists hstep
    omega

/-- No file yet, and a host that has heard of nobody. -/
def first : EdgeNodeSessions := ⟨⟨none, none⟩, .down, [], [], [], ⟨none, []⟩⟩

/-- What `next_bd_seq` does on a sound file system, and the connection after it. -/
def connecting (timestampMillis : UInt64) : List SessionAction :=
  [.start, .create, .write 1, .rename, .connect, .publishNbirth timestampMillis, .hearNbirth]

/-- A session, a process that is killed while it writes, and a second session; only then the
death of the first arrives. -/
def restartRun : List SessionAction :=
  connecting 5 ++ [SessionAction.kill, .start, .create, .kill] ++ connecting 9 ++
    [SessionAction.hearNdeath (ndeathBytes 0)]

theorem sessions_told_apart_restart : ∃ s, execute step first restartRun = some s ∧
    s.process = .connected 1 false ∧ s.host.online = some 1 := by
  obtain ⟨s, hrun⟩ := Option.isSome_iff_exists.mp
    (show (execute step first restartRun).isSome = true by decide +kernel)
  have hfirst : first.IsFirst := ⟨rfl, rfl, rfl, rfl, rfl⟩
  have hdata : (execute step first restartRun).map (fun t => (t.process, t.host.heard)) =
      some (.connected 1 false, [1, 0]) := by decide +kernel
  rw [hrun, Option.map_some, Option.some.injEq, Prod.mk.injEq] at hdata
  refine ⟨s, hrun, hdata.1, ?_⟩
  refine (sessions_told_apart hfirst (permitted_of_length hfirst.ordered ?_ (by decide +kernel)) hrun).2.1 1 hdata.1 ?_
  · intro action haction
    simp only [restartRun, connecting, List.mem_append, List.mem_cons, List.not_mem_nil, or_false] at haction
    grind
  · rw [hdata.2]
    exact List.mem_cons_self

/-- When the file cannot be renamed the second session has the number of the first, and the late
death of the first is taken for its own. -/
theorem unpersisted_session_dropped : ∃ s, execute step first ([.start, .persistFails, .connect, .publishNbirth 5,
    .hearNbirth, .kill, .start, .persistFails, .connect, .publishNbirth 9, .hearNbirth,
    .hearNdeath (ndeathBytes 0)]) = some s ∧
      s.process = .connected 0 false ∧ s.host.online = none := by
  refine Option.map_eq_some_iff.mp (?_ : Option.map (fun t : EdgeNodeSessions => (t.process, t.host.online)) _ =
    some (.connected 0 false, none)) |>.imp fun s h => ⟨h.1, congrArg Prod.fst h.2, congrArg Prod.snd h.2⟩
  decide +kernel

end EdgeNodeSessions

end InfusedModbus.Client
