import InfusedModbus.Foundation.Execution
import InfusedModbus.Server.Admin

/-! The roster of approved clients in memory and on disk. A command changes the set in
memory, writes a temporary file and renames it over the real one, all under one
lock; the process may crash between any two of these steps, and is started again with
the file that it left and any maximum. -/

namespace InfusedModbus.Server

open Foundation Foundation.Outcome Protocol Datafs

inductive RosterChange where
  | approve | revoke
  deriving DecidableEq, Repr

/-- How far the file is behind a change in memory. -/
inductive SaveStage where
  | changed | opened | written | renamed
  deriving DecidableEq, Repr

/-- The command that holds the lock on the approved clients. -/
structure LockHolder (α : Type) where
  admin : α
  change : RosterChange
  fingerprint : Fingerprint
  stage : SaveStage

structure RosterProcess (α : Type) where
  approved : ApprovedClients
  holder : Option (LockHolder α)

/-- How the last command that named a fingerprint ended. -/
inductive Fate where
  | unnamed | approved | refused | revoked | unfinished
  deriving DecidableEq, Repr

def RosterChange.fate : RosterChange → Fate
  | .approve => .approved
  | .revoke => .revoked

/-- What a fate says about the next restoration, given what was in the first file. -/
def Fate.Restores (fate : Fate) (before after : Prop) : Prop :=
  match fate with
  | .unnamed => after ↔ before
  | .approved => after
  | .refused | .revoked => ¬after
  | .unfinished => True

/-- Whether a fate is met depends on membership alone. -/
theorem Fate.Restores.congr {fate : Fate} {before after after' : Prop} (h : fate.Restores before after)
    (hiff : after' ↔ after) : fate.Restores before after' := by
  cases fate with
  | unnamed => exact hiff.trans h
  | approved => exact hiff.mpr h
  | refused | revoked => exact fun hafter => h (hiff.mp hafter)
  | unfinished => trivial

/-- The files, the process while it runs, and what became of each fingerprint. -/
structure Roster (α : Type) where
  file : Option (List Char)
  temporary : Option (List Char)
  process : Option (RosterProcess α)
  fate : Fingerprint → Fate

inductive RosterAction (α : Type) where
  | start (maxClients : Option ℕ)
  | line (admin : α) (text : List Char)
  | openTemporary
  | writePart (text : List Char)
  | write (order : List Fingerprint)
  | rename
  | answer
  | crash

namespace Roster

variable {α : Type} (toml : TomlFormat)

/-- The approved clients of a new process. -/
def restore (maxClients : Option ℕ) (fingerprints : List Fingerprint) : ApprovedClients :=
  fingerprints.foldl ApprovedClients.seed { ApprovedClients.new with maxClients := maxClients }

/-- Before the first process. -/
def initial (file temporary : Option (List Char)) : Roster α := ⟨file, temporary, none, fun _ => .unnamed⟩

variable (roster : Roster α)

/-- Take the lock for a change that goes to the file. -/
def change (approved : ApprovedClients) (admin : α) (change : RosterChange) (fingerprint : Fingerprint) :
    Roster α :=
  { roster with
    process := some ⟨approved, some ⟨admin, change, fingerprint, .changed⟩⟩
    fate := Function.update roster.fate fingerprint .unfinished }

/-- A command that found the lock free. -/
def applyCommand (approved : ApprovedClients) (admin : α) : AdminCommand → Roster α
  | .approve fingerprint =>
    match approved.insert fingerprint with
    | (_, .atCapacity) => { roster with fate := Function.update roster.fate fingerprint .refused }
    | (approved, _) => roster.change approved admin .approve fingerprint
  | .revoke fingerprint => roster.change (approved.remove fingerprint).1 admin .revoke fingerprint
  | .list => roster

/-- Move the lock holder to its next stage. -/
def advance (process : RosterProcess α) (holder : LockHolder α) (stage : SaveStage)
    (temporary : Option (List Char)) : Roster α :=
  { roster with
    temporary := temporary
    process := some { process with holder := some { holder with stage := stage } } }

/-- The temporary file takes the place of the real one. -/
def replaceFile (process : RosterProcess α) (holder : LockHolder α) : Roster α :=
  { roster.advance process holder .renamed none with file := roster.temporary }

/-- The lock is free again and the command is answered. -/
def release (process : RosterProcess α) (holder : LockHolder α) : Roster α :=
  { roster with
    process := some { process with holder := none }
    fate := Function.update roster.fate holder.fingerprint holder.change.fate }

/-- The steps of the command that holds the lock; the set is written in whatever order
it is iterated, and a crash may leave any part of that. -/
def save (process : RosterProcess α) (holder : LockHolder α) : RosterAction α → Option (Roster α)
  | .openTemporary =>
    if holder.stage = .changed then some (roster.advance process holder .opened (some [])) else none
  | .writePart text =>
    if holder.stage = .opened then some (roster.advance process holder .opened (some text)) else none
  | .write order =>
    if holder.stage = .opened ∧ order.Nodup ∧ order.toFinset = process.approved.fingerprints then
      some (roster.advance process holder .written (some (serialized toml order)))
    else none
  | .rename =>
    if holder.stage = .written then some (roster.replaceFile process holder) else none
  | .answer =>
    if holder.stage = .renamed then some (roster.release process holder) else none
  | _ => none

def step : RosterAction α → Option (Roster α)
  | .start maxClients =>
    match roster.process, load toml roster.file with
    | none, .ok fingerprints => some { roster with process := some ⟨restore maxClients fingerprints, none⟩ }
    | _, _ => none
  | .crash => roster.process.map fun _ => { roster with process := none }
  | .line admin text =>
    match roster.process with
    | none => none
    | some process =>
      match AdminCommand.parse (trimEnd text) with
      | .ok command => if process.holder.isNone then some (roster.applyCommand process.approved admin command) else none
      | .err _ | .panic => some roster
  | action =>
    match roster.process with
    | some process => process.holder.bind fun holder => roster.save toml process holder action
    | none => none

/-! ### What must hold -/

/-- What holds in a state: a crash now loses no finished command, and while nobody holds
the lock the file and the memory agree. -/
structure Durable (first : Option (List Char)) : Prop where
  readable : (∃ fingerprints, load toml first = .ok fingerprints) →
    ∃ fingerprints, load toml roster.file = .ok fingerprints
  durable : ∀ before after, load toml first = .ok before → load toml roster.file = .ok after →
    ∀ maxClients fingerprint, (roster.fate fingerprint).Restores (fingerprint ∈ before)
      ((restore maxClients after).contains fingerprint = true)
  current : ∀ process, roster.process = some process → process.holder = none →
    ∃ fingerprints, load toml roster.file = .ok fingerprints ∧
      process.approved.fingerprints = fingerprints.toFinset

/-- What holds of a line: one that is refused changes nothing, and an approval keeps to
the maximum. -/
structure Bounded (text : List Char) (after : Roster α) : Prop where
  malformed : ∀ error, AdminCommand.parse (trimEnd text) = .err error → after = roster
  refused : ∀ process fingerprint, roster.process = some process →
    AdminCommand.parse (trimEnd text) = .ok (.approve fingerprint) →
    (process.approved.insert fingerprint).2 = .atCapacity → after.process = roster.process ∧ after.file = roster.file
  bounded : ∀ process process' fingerprint maxClients, roster.process = some process →
    after.process = some process' → AdminCommand.parse (trimEnd text) = .ok (.approve fingerprint) →
    process.approved.maxClients = some maxClients → process'.approved = process.approved ∨
      process'.approved.fingerprints.card ≤ maxClients

/-! ### The invariant -/

theorem restore_eq (maxClients : Option ℕ) (fingerprints : List Fingerprint) :
    restore maxClients fingerprints = ⟨fingerprints.toFinset, maxClients⟩ := by
  have hseed : ∀ (approved : ApprovedClients), fingerprints.foldl ApprovedClients.seed approved =
      ⟨approved.fingerprints ∪ fingerprints.toFinset, approved.maxClients⟩ := by
    induction fingerprints with
    | nil => simp
    | cons fingerprint fingerprints ih =>
      intro approved
      rw [List.foldl_cons, ih]
      simp [ApprovedClients.seed, Finset.insert_union]
  rw [restore, hseed]
  simp [ApprovedClients.new]

/-- The set in a readable file. -/
def Saved (file : Option (List Char)) (saved : Finset Fingerprint) : Prop :=
  ∃ fingerprints, load toml file = .ok fingerprints ∧ fingerprints.toFinset = saved

/-- A change in memory differs from the file in its own fingerprint only. -/
structure Changes (approved : ApprovedClients) (holder : LockHolder α) (saved : Finset Fingerprint) : Prop where
  others : ∀ fingerprint, fingerprint ≠ holder.fingerprint →
    (fingerprint ∈ approved.fingerprints ↔ fingerprint ∈ saved)
  own : holder.change.fate.Restores False (holder.fingerprint ∈ approved.fingerprints)
  unfinished : roster.fate holder.fingerprint = .unfinished
  written : holder.stage = .written → Saved toml roster.temporary approved.fingerprints
  renamed : holder.stage = .renamed → approved.fingerprints = saved

/-- The file holds what every finished command left, and the memory is at most one
change ahead of it. -/
structure Invariant (first saved : Finset Fingerprint) : Prop where
  file : Saved toml roster.file saved
  fates : ∀ fingerprint, (roster.fate fingerprint).Restores (fingerprint ∈ first) (fingerprint ∈ saved)
  idle : ∀ process, roster.process = some process → process.holder = none → process.approved.fingerprints = saved
  busy : ∀ process holder, roster.process = some process → process.holder = some holder →
    roster.Changes toml process.approved holder saved

section Invariant

variable {toml roster} {first saved : Finset Fingerprint}

theorem Saved.unique {file : Option (List Char)} (h : Saved toml file saved) {fingerprints : List Fingerprint}
    (hload : load toml file = .ok fingerprints) : fingerprints.toFinset = saved := by
  obtain ⟨fingerprints', hload', rfl⟩ := h
  rw [hload] at hload'
  rw [ok.inj hload']

theorem Saved.serialized
    (htoml : ∀ fingerprints : List Fingerprint,
      toml.fromStr (toml.toString (fingerprints.map Fingerprint.toText)) = some (fingerprints.map Fingerprint.toText))
    (order : List Fingerprint) : Saved toml (some (serialized toml order)) order.toFinset :=
  ⟨order, load_serialized htoml order, rfl⟩

/-- A change keeps the file, and is unfinished from now on. -/
theorem Invariant.change (h : roster.Invariant toml first saved) {approved : ApprovedClients} {admin : α}
    {change : RosterChange} {fingerprint : Fingerprint}
    (hothers : ∀ other, other ≠ fingerprint → (other ∈ approved.fingerprints ↔ other ∈ saved))
    (hown : change.fate.Restores False (fingerprint ∈ approved.fingerprints)) :
    (roster.change approved admin change fingerprint).Invariant toml first saved := by
  refine ⟨h.file, fun other => ?_, ?_, ?_⟩
  · simp only [Roster.change, Function.update_apply]
    split
    · trivial
    · exact h.fates other
  · rintro process hprocess hidle
    obtain rfl := Option.some.inj hprocess
    cases hidle
  · rintro process holder hprocess hholder
    obtain rfl := Option.some.inj hprocess
    obtain rfl := Option.some.inj hholder
    refine ⟨hothers, hown, ?_, ?_, ?_⟩
    · simp [Roster.change]
    · intro hstage
      cases hstage
    · intro hstage
      cases hstage

/-- A command that finds the lock free. -/
theorem Invariant.applyCommand (h : roster.Invariant toml first saved) {process : RosterProcess α}
    (hprocess : roster.process = some process) (hfree : process.holder = none) (admin : α) (command : AdminCommand) :
    (roster.applyCommand process.approved admin command).Invariant toml first saved := by
  have hidle := h.idle process hprocess hfree
  cases command with
  | list => exact h
  | revoke fingerprint =>
    refine h.change (fun other hother => ?_) ?_
    · simp [ApprovedClients.remove, hidle, hother]
    · simp [ApprovedClients.remove, RosterChange.fate, Fate.Restores]
  | approve fingerprint =>
    simp only [Roster.applyCommand]
    split
    · next hinsert =>
      have hrefused : (process.approved.insert fingerprint).2 = .atCapacity := by rw [hinsert]
      have hnotMem := (ApprovedClients.insert_of_atCapacity hrefused).2
      refine ⟨h.file, fun other => ?_, h.idle, fun process' holder hprocess' hholder => ?_⟩
      · simp only [Function.update_apply]
        split
        · next heq =>
          rw [heq, ← hidle]
          exact hnotMem
        · exact h.fates other
      · rw [hprocess] at hprocess'
        obtain rfl := Option.some.inj hprocess'
        rw [hfree] at hholder
        cases hholder
    · next approved outcome hne hinsert =>
      have hset := @ApprovedClients.fingerprints_insert_of_ne process.approved fingerprint
        (by rw [hinsert]; exact hne)
      rw [hinsert, hidle] at hset
      dsimp only at hset
      refine h.change (fun other hother => ?_) ?_
      · simp [hset, hother]
      · simp [hset, RosterChange.fate, Fate.Restores]

/-- A step towards the file that leaves memory and file as they are. -/
theorem Invariant.advance (h : roster.Invariant toml first saved) {process : RosterProcess α} {holder : LockHolder α}
    (hprocess : roster.process = some process) (hholder : process.holder = some holder) {stage : SaveStage}
    {temporary : Option (List Char)} (hstage : stage ≠ .renamed)
    (hwritten : stage = .written → Saved toml temporary process.approved.fingerprints) :
    (roster.advance process holder stage temporary).Invariant toml first saved := by
  have hbusy := h.busy process holder hprocess hholder
  refine ⟨h.file, h.fates, fun process' hprocess' hfree => ?_, fun process' holder' hprocess' hholder' => ?_⟩
  · obtain rfl := Option.some.inj hprocess'
    cases hfree
  · obtain rfl := Option.some.inj hprocess'
    obtain rfl := Option.some.inj hholder'
    exact ⟨hbusy.others, hbusy.own, hbusy.unfinished, hwritten, fun heq => absurd heq hstage⟩

/-- The rename puts the memory's set into the file. -/
theorem Invariant.rename (h : roster.Invariant toml first saved) {process : RosterProcess α} {holder : LockHolder α}
    (hprocess : roster.process = some process) (hholder : process.holder = some holder)
    (hstage : holder.stage = .written) :
    (roster.replaceFile process holder).Invariant toml first process.approved.fingerprints := by
  have hbusy := h.busy process holder hprocess hholder
  refine ⟨hbusy.written hstage, fun fingerprint => ?_, fun process' hprocess' hfree => ?_,
    fun process' holder' hprocess' hholder' => ?_⟩
  · by_cases hown : fingerprint = holder.fingerprint
    · show (roster.fate fingerprint).Restores _ _
      rw [hown, hbusy.unfinished]
      trivial
    · exact (h.fates fingerprint).congr (hbusy.others fingerprint hown)
  · obtain rfl := Option.some.inj hprocess'
    cases hfree
  · obtain rfl := Option.some.inj hprocess'
    obtain rfl := Option.some.inj hholder'
    exact ⟨fun _ _ => Iff.rfl, hbusy.own, hbusy.unfinished, nofun, fun _ => rfl⟩

/-- The answer closes the fate of its fingerprint. -/
theorem Invariant.answer (h : roster.Invariant toml first saved) {process : RosterProcess α} {holder : LockHolder α}
    (hprocess : roster.process = some process) (hholder : process.holder = some holder)
    (hstage : holder.stage = .renamed) :
    (roster.release process holder).Invariant toml first saved := by
  have hbusy := h.busy process holder hprocess hholder
  have hsaved := hbusy.renamed hstage
  refine ⟨h.file, fun fingerprint => ?_, fun process' hprocess' _ => ?_, fun process' holder' hprocess' hholder' => ?_⟩
  · simp only [Roster.release, Function.update_apply]
    split
    · next heq =>
      have hown := hbusy.own
      rw [hsaved, ← heq] at hown
      revert hown
      cases holder.change with
      | approve => exact id
      | revoke => exact id
    · exact h.fates fingerprint
  · obtain rfl := Option.some.inj hprocess'
    exact hsaved
  · obtain rfl := Option.some.inj hprocess'
    cases hholder'

variable (htoml : ∀ fingerprints : List Fingerprint,
  toml.fromStr (toml.toString (fingerprints.map Fingerprint.toText)) = some (fingerprints.map Fingerprint.toText))

include htoml in
theorem Invariant.save (h : roster.Invariant toml first saved) {process : RosterProcess α} {holder : LockHolder α}
    (hprocess : roster.process = some process) (hholder : process.holder = some holder) {action : RosterAction α}
    {after : Roster α} (hsave : roster.save toml process holder action = some after) :
    ∃ saved', after.Invariant toml first saved' := by
  cases action with
  | openTemporary =>
    simp only [Roster.save, Option.ite_none_right_eq_some, Option.some.injEq] at hsave
    obtain ⟨hstage, rfl⟩ := hsave
    exact ⟨saved, h.advance hprocess hholder (by simp) (by simp)⟩
  | writePart text =>
    simp only [Roster.save, Option.ite_none_right_eq_some, Option.some.injEq] at hsave
    obtain ⟨hstage, rfl⟩ := hsave
    exact ⟨saved, h.advance hprocess hholder (by simp) (by simp)⟩
  | write order =>
    simp only [Roster.save, Option.ite_none_right_eq_some, Option.some.injEq] at hsave
    obtain ⟨⟨hstage, -, horder⟩, rfl⟩ := hsave
    exact ⟨saved, h.advance hprocess hholder (by simp) fun _ => horder ▸ Saved.serialized htoml order⟩
  | rename =>
    simp only [Roster.save, Option.ite_none_right_eq_some, Option.some.injEq] at hsave
    obtain ⟨hstage, rfl⟩ := hsave
    exact ⟨process.approved.fingerprints, h.rename hprocess hholder hstage⟩
  | answer =>
    simp only [Roster.save, Option.ite_none_right_eq_some, Option.some.injEq] at hsave
    obtain ⟨hstage, rfl⟩ := hsave
    exact ⟨saved, h.answer hprocess hholder hstage⟩
  | start | line | crash => cases hsave

include htoml in
/-- Every step keeps the invariant, for a saved set that only a rename replaces. -/
theorem Invariant.step (h : roster.Invariant toml first saved) {action : RosterAction α} {after : Roster α}
    (hstep : roster.step toml action = some after) : ∃ saved', after.Invariant toml first saved' := by
  cases action with
  | start maxClients =>
    simp only [Roster.step] at hstep
    split at hstep
    · next fingerprints hdown hload =>
      obtain rfl := Option.some.inj hstep
      refine ⟨saved, h.file, h.fates, fun process hprocess _ => ?_, fun process holder hprocess hholder => ?_⟩
      · obtain rfl := Option.some.inj hprocess
        rw [restore_eq]
        exact h.file.unique hload
      · obtain rfl := Option.some.inj hprocess
        cases hholder
    · cases hstep
  | crash =>
    obtain ⟨process, -, rfl⟩ := Option.map_eq_some_iff.mp hstep
    exact ⟨saved, h.file, h.fates, nofun, nofun⟩
  | line admin text =>
    simp only [Roster.step] at hstep
    split at hstep
    · cases hstep
    · next process hprocess =>
      split at hstep
      · next command hparse =>
        simp only [Option.ite_none_right_eq_some, Option.some.injEq] at hstep
        obtain ⟨hfree, rfl⟩ := hstep
        exact ⟨saved, h.applyCommand hprocess (Option.isNone_iff_eq_none.mp hfree) admin command⟩
      · obtain rfl := Option.some.inj hstep
        exact ⟨saved, h⟩
      · obtain rfl := Option.some.inj hstep
        exact ⟨saved, h⟩
  | openTemporary | writePart text | write order | rename | answer =>
    simp only [Roster.step] at hstep
    split at hstep
    · next process hprocess =>
      obtain ⟨holder, hholder, hsave⟩ := Option.bind_eq_some_iff.mp hstep
      exact h.save htoml hprocess hholder hsave
    · cases hstep

end Invariant

section Runs

variable {toml : TomlFormat} {roster : Roster α}

theorem Invariant.durable {first : List Fingerprint} {saved : Finset Fingerprint} {firstFile : Option (List Char)}
    (h : roster.Invariant toml first.toFinset saved) (hfirst : load toml firstFile = .ok first) :
    roster.Durable toml firstFile := by
  refine ⟨fun _ => ?_, fun before after hbefore hafter maxClients fingerprint => ?_, fun process hprocess hfree => ?_⟩
  · obtain ⟨fingerprints, hload, -⟩ := h.file
    exact ⟨fingerprints, hload⟩
  · obtain rfl := ok.inj (hfirst.symm.trans hbefore)
    have hsaved := h.file.unique hafter
    have hfate := h.fates fingerprint
    rw [List.mem_toFinset] at hfate
    refine hfate.congr ?_
    rw [restore_eq, ApprovedClients.contains, decide_eq_true_iff, hsaved]
  · obtain ⟨fingerprints, hload, hsaved⟩ := h.file
    exact ⟨fingerprints, hload, (h.idle process hprocess hfree).trans hsaved.symm⟩

theorem invariant_initial {file : Option (List Char)} (temporary : Option (List Char)) {first : List Fingerprint}
    (hfirst : load toml file = .ok first) :
    (initial file temporary : Roster α).Invariant toml first.toFinset first.toFinset where
  file := ⟨first, hfirst, rfl⟩
  fates := fun _ => Iff.rfl
  idle := fun _ hprocess => by cases hprocess
  busy := fun _ _ hprocess => by cases hprocess

/-- With an unreadable file no process ever comes up. -/
theorem stuck_step {firstFile : Option (List Char)} (hfirst : ∀ fingerprints, load toml firstFile ≠ .ok fingerprints)
    {action : RosterAction α} {after : Roster α} (hstuck : roster.file = firstFile ∧ roster.process = none)
    (hstep : roster.step toml action = some after) : after.file = firstFile ∧ after.process = none := by
  obtain ⟨rfl, hdown⟩ := hstuck
  cases action with
  | start maxClients =>
    simp only [step] at hstep
    split at hstep
    · next hload => exact absurd hload (hfirst _)
    · cases hstep
  | crash => simp [step, hdown] at hstep
  | _ => simp [step, hdown] at hstep

/-- A refused line changes nothing, and an approval keeps to the maximum. -/
theorem bounded_line {admin : α} {text : List Char} {after : Roster α}
    (hstep : roster.step toml (.line admin text) = some after) : roster.Bounded text after := by
  simp only [step] at hstep
  split at hstep
  · cases hstep
  next process hprocess =>
  refine ⟨fun error herror => ?_, fun process' fingerprint hprocess' hparse hcapacity => ?_,
    fun process' process'' fingerprint maxClients hprocess' hafter hparse hmax => ?_⟩
  · rw [herror] at hstep
    exact (Option.some.inj hstep).symm
  · obtain rfl := Option.some.inj (hprocess.symm.trans hprocess')
    rw [hparse] at hstep
    simp only [Option.ite_none_right_eq_some, Option.some.injEq, applyCommand] at hstep
    obtain ⟨-, rfl⟩ := hstep
    split
    · exact ⟨rfl, rfl⟩
    · next hne hinsert =>
      rw [hinsert] at hcapacity
      exact absurd hcapacity hne
  · obtain rfl := Option.some.inj (hprocess.symm.trans hprocess')
    rw [hparse] at hstep
    simp only [Option.ite_none_right_eq_some, Option.some.injEq, applyCommand] at hstep
    obtain ⟨-, rfl⟩ := hstep
    have hcard := @ApprovedClients.card_insert_le process.approved fingerprint maxClients hmax
    split at hafter
    · obtain rfl := Option.some.inj (hprocess.symm.trans hafter)
      exact .inl rfl
    · next hinsert =>
      obtain rfl := Option.some.inj hafter
      rwa [hinsert] at hcard

/-- Whatever the order of commands, crashes and restarts: the next restoration agrees
with every finished command, the file with the memory while nobody holds the lock, and
no line breaks the bound. -/
theorem roster_is_durable
    (htoml : ∀ fingerprints : List Fingerprint,
      toml.fromStr (toml.toString (fingerprints.map Fingerprint.toText)) = some (fingerprints.map Fingerprint.toText))
    {file temporary : Option (List Char)} {actions : List (RosterAction α)}
    (hrun : execute (step toml) (initial file temporary) actions = some roster) :
    roster.Durable toml file ∧
      ∀ admin text after, roster.step toml (.line admin text) = some after → roster.Bounded text after := by
  refine ⟨?_, fun admin text after => bounded_line⟩
  have hany : Permitted (step toml) (fun _ _ => True) (initial file temporary) actions :=
    permitted_of_forall (fun _ _ _ => trivial) _
  by_cases hfirst : ∃ first, load toml file = .ok first
  · obtain ⟨first, hfirst⟩ := hfirst
    obtain ⟨saved, hinv⟩ := @invariant_of_execute _ _ _ _
      (fun roster => ∃ saved, Invariant toml roster first.toFinset saved)
      (fun before action after ⟨saved, hbefore⟩ _ hstep => hbefore.step htoml hstep) _ _
      ⟨first.toFinset, invariant_initial temporary hfirst⟩ _ hany hrun
    exact hinv.durable hfirst
  · simp only [not_exists] at hfirst
    obtain ⟨hfile, hdown⟩ := @invariant_of_execute _ _ _ _ (fun roster => roster.file = file ∧ roster.process = none)
      (fun before action after hbefore _ hstep => stuck_step hfirst hbefore hstep) _ _ ⟨rfl, rfl⟩ _ hany hrun
    exact ⟨fun ⟨fingerprints, h⟩ => absurd h (hfirst fingerprints), fun before _ h => absurd h (hfirst before),
      fun process hprocess => by rw [hdown] at hprocess; cases hprocess⟩

end Runs

/-! ### A file with one client -/

/-- The pieces of a list of strings after its first, cut at the quotes. -/
def tomlPieces : List (List Char) → List (List Char)
  | [] => ["]\n".toList]
  | text :: texts => ", ".toList :: text :: tomlPieces texts

/-- The pieces inside the quotes. -/
def insideQuotes : List (List Char) → List (List Char)
  | _ :: text :: pieces => text :: insideQuotes pieces
  | _ => []

/-- The one form of the file that is written, for strings without quotes. -/
def plainToml : TomlFormat where
  toString texts :=
    match texts with
    | [] => "fingerprints = []\n".toList
    | text :: texts => ['"'].intercalate ("fingerprints = [".toList :: text :: tomlPieces texts)
  fromStr source := some (insideQuotes (source.splitOn '"'))

theorem notMem_intercalate {c : Char} {separator : List Char} (hseparator : c ∉ separator) {texts : List (List Char)}
    (htexts : ∀ text ∈ texts, c ∉ text) : c ∉ separator.intercalate texts := by
  induction texts with
  | nil => simp
  | cons text texts ih =>
    cases texts with
    | nil => simpa using htexts
    | cons next texts =>
      have hrest := ih fun text' hmem => htexts text' (by simp [hmem])
      have htext := htexts text (by simp)
      rw [List.intercalate_cons_cons]
      simp only [List.mem_append, not_or]
      exact ⟨⟨htext, hseparator⟩, hrest⟩

theorem quote_notMem_toText (fingerprint : Fingerprint) : '"' ∉ fingerprint.toText := by
  refine notMem_intercalate (by decide) fun text hmem => ?_
  obtain ⟨byte, -, rfl⟩ := List.mem_map.mp hmem
  have hbytes : ∀ n < 256, '"' ∉ hexByte (UInt8.ofNat n) := by decide +kernel
  have hbyte := hbytes byte.toNat byte.toNat_lt
  rwa [UInt8.ofNat_toNat] at hbyte

theorem plainToml_fromStr_toString {texts : List (List Char)} (hquote : ∀ text ∈ texts, '"' ∉ text) :
    plainToml.fromStr (plainToml.toString texts) = some texts := by
  have hinside : ∀ texts, insideQuotes (tomlPieces texts) = texts := by
    intro texts
    induction texts with
    | nil => rfl
    | cons text texts ih => rw [tomlPieces, insideQuotes, ih]
  have hpieces : ∀ texts : List (List Char), (∀ text ∈ texts, '"' ∉ text) → ∀ piece ∈ tomlPieces texts, '"' ∉ piece := by
    intro texts htexts
    induction texts with
    | nil =>
      intro piece hmem
      obtain rfl := List.mem_singleton.mp hmem
      decide
    | cons text texts ih =>
      have hrest := ih fun text' hmem => htexts text' (by simp [hmem])
      intro piece hmem
      rcases List.mem_cons.mp hmem with rfl | hmem
      · decide
      rcases List.mem_cons.mp hmem with rfl | hmem
      · exact htexts piece (by simp)
      · exact hrest piece hmem
  cases texts with
  | nil => decide
  | cons text texts =>
    have hrest := hpieces texts fun text' hmem => hquote text' (by simp [hmem])
    simp only [plainToml]
    rw [List.splitOn_intercalate, insideQuotes, hinside]
    · intro piece hmem
      rcases List.mem_cons.mp hmem with rfl | hmem
      · decide
      rcases List.mem_cons.mp hmem with rfl | hmem
      · exact hquote piece (by simp)
      · exact hrest piece hmem
    · simp

/-- A client to approve. -/
def technician : Fingerprint := ⟨List.replicate 32 (UInt8.ofNat 0), rfl⟩

/-- One client is approved and the process starts again. -/
def approvedThenRestarted : List (RosterAction Unit) :=
  [.start (some 1), .line () ("APPROVE ".toList ++ technician.toText), .openTemporary, .write [technician], .rename,
    .answer, .crash, .start none]

theorem roster_is_durable_one : ∃ roster,
    execute (step plainToml) (initial none none) approvedThenRestarted = some roster ∧
      ∀ after, load plainToml roster.file = .ok after → (restore none after).contains technician = true := by
  have hquotes : ∀ fingerprints : List Fingerprint, plainToml.fromStr (plainToml.toString (fingerprints.map
      Fingerprint.toText)) = some (fingerprints.map Fingerprint.toText) := by
    intro fingerprints
    refine plainToml_fromStr_toString fun text hmem => ?_
    obtain ⟨fingerprint, -, rfl⟩ := List.mem_map.mp hmem
    exact quote_notMem_toText fingerprint
  obtain ⟨roster, hrun, hfate⟩ : ∃ roster,
      execute (step plainToml) (initial none none) approvedThenRestarted = some roster ∧
        roster.fate technician = .approved := ⟨_, rfl, rfl⟩
  refine ⟨roster, hrun, fun after hafter => ?_⟩
  have hdurable := (roster_is_durable hquotes hrun).1.durable [] after rfl hafter none technician
  rwa [hfate] at hdurable

end Roster

end InfusedModbus.Server
