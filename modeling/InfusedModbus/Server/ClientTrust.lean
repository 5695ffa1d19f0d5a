import InfusedModbus.Protocol.Fingerprint
import Mathlib.Data.Finset.Card

/-! The approved clients and the connections they hold. Approval is bounded by a
configured maximum, except at startup; connections are bounded for each fingerprint,
and are ended by dropping the sender that their task listens to. -/

namespace InfusedModbus.Server

open Foundation Protocol

/-! ### Approved clients -/

/-- The fingerprints that may connect; without a maximum their number is unlimited. -/
structure ApprovedClients where
  fingerprints : Finset Fingerprint
  maxClients : Option ℕ

inductive ApprovalOutcome where
  | approved | alreadyApproved | atCapacity
  deriving DecidableEq, Repr

namespace ApprovedClients

def new : ApprovedClients := ⟨∅, none⟩

def withMaxClients (maxClients : ℕ) : ApprovedClients := ⟨∅, some maxClients⟩

variable (self : ApprovedClients) (fingerprint : Fingerprint)

def isAtCapacity : Bool := self.maxClients.any fun maxClients => maxClients ≤ self.fingerprints.card

/-- Approve a client; approving it again is never refused. -/
def insert : ApprovedClients × ApprovalOutcome :=
  if fingerprint ∈ self.fingerprints then (self, .alreadyApproved)
  else if self.isAtCapacity then (self, .atCapacity)
  else ({ self with fingerprints := Insert.insert fingerprint self.fingerprints }, .approved)

/-- Approve a client of a former run, whatever the maximum is now. -/
def seed : ApprovedClients := { self with fingerprints := Insert.insert fingerprint self.fingerprints }

def contains : Bool := fingerprint ∈ self.fingerprints

def remove : ApprovedClients × Bool :=
  ({ self with fingerprints := self.fingerprints.erase fingerprint }, fingerprint ∈ self.fingerprints)

variable {self fingerprint}

@[simp] theorem maxClients_insert : (self.insert fingerprint).1.maxClients = self.maxClients := by
  unfold insert
  split
  · rfl
  · split <;> rfl

/-- An approval that is not refused adds exactly its client. -/
theorem fingerprints_insert_of_ne (h : (self.insert fingerprint).2 ≠ .atCapacity) :
    (self.insert fingerprint).1.fingerprints = Insert.insert fingerprint self.fingerprints := by
  unfold insert at h ⊢
  split
  · next hmem => exact (Finset.insert_eq_of_mem hmem).symm
  · next hmem =>
    rw [if_neg hmem] at h
    split
    · next hcapacity => exact absurd (by rw [if_pos hcapacity]) h
    · rfl

/-- A refused approval changes nothing, and its client was not approved. -/
theorem insert_of_atCapacity (h : (self.insert fingerprint).2 = .atCapacity) :
    (self.insert fingerprint).1 = self ∧ fingerprint ∉ self.fingerprints := by
  unfold insert at h ⊢
  by_cases hmem : fingerprint ∈ self.fingerprints
  · rw [if_pos hmem] at h
    cases h
  · rw [if_neg hmem]
    split
    · exact ⟨rfl, hmem⟩
    · next hcapacity =>
      rw [if_neg hmem, if_neg hcapacity] at h
      cases h

/-- Approval never takes the set past its maximum. -/
theorem card_insert_le {maxClients : ℕ} (hmax : self.maxClients = some maxClients) :
    (self.insert fingerprint).1 = self ∨ (self.insert fingerprint).1.fingerprints.card ≤ maxClients := by
  unfold insert
  split
  · exact .inl rfl
  · next hmem =>
    split
    · exact .inl rfl
    · next hcapacity =>
      have hroom : self.fingerprints.card < maxClients := by simpa [isAtCapacity, hmax] using hcapacity
      refine .inr ?_
      rw [Finset.card_insert_of_notMem hmem]
      exact hroom

end ApprovedClients

/-! ### Live connections -/

/-- What a connection gives back when it ends on its own. -/
structure ConnectionHandle where
  fingerprint : Fingerprint
  id : UInt64
  deriving DecidableEq

/-- The cancellation senders of the open connections, under their fingerprint and id;
each is named by the task that holds its receiver. -/
structure LiveConnections (ι : Type) where
  byFingerprint : Fingerprint → List (UInt64 × ι)
  nextId : UInt64
  maxConnectionsPerFingerprint : Option ℕ

namespace LiveConnections

variable {ι : Type}

def new : LiveConnections ι := ⟨fun _ => [], 0, none⟩

def withMaxConnectionsPerFingerprint (maxConnections : ℕ) : LiveConnections ι := ⟨fun _ => [], 0, some maxConnections⟩

/-- Insert under an id; a sender that was there is dropped. -/
def insertSender (senders : List (UInt64 × ι)) (id : UInt64) (task : ι) : List (UInt64 × ι) :=
  (id, task) :: senders.filter fun sender => sender.1 ≠ id

variable (self : LiveConnections ι)

/-- A slot for a connection, unless its fingerprint holds as many as it may. -/
def register (fingerprint : Fingerprint) (task : ι) : Option (ConnectionHandle × LiveConnections ι) :=
  let currentCount := (self.byFingerprint fingerprint).length
  if self.maxConnectionsPerFingerprint.any fun max => max ≤ currentCount then none
  else
    some (⟨fingerprint, self.nextId⟩,
      { self with
        byFingerprint := Function.update self.byFingerprint fingerprint
          (insertSender (self.byFingerprint fingerprint) self.nextId task)
        nextId := self.nextId + 1 })

/-- Remove one registration; none if it was revoked before. -/
def deregister (handle : ConnectionHandle) : LiveConnections ι :=
  { self with
    byFingerprint := Function.update self.byFingerprint handle.fingerprint
      ((self.byFingerprint handle.fingerprint).filter fun sender => sender.1 ≠ handle.id) }

/-- Drop every sender of a fingerprint. -/
def revoke (fingerprint : Fingerprint) : LiveConnections ι × ℕ :=
  ({ self with byFingerprint := Function.update self.byFingerprint fingerprint [] },
    (self.byFingerprint fingerprint).length)

variable {self}

theorem register_eq_some {fingerprint : Fingerprint} {task : ι} {handle : ConnectionHandle}
    {after : LiveConnections ι} (h : self.register fingerprint task = some (handle, after)) :
    (∀ max, self.maxConnectionsPerFingerprint = some max → (self.byFingerprint fingerprint).length < max) ∧
      handle = ⟨fingerprint, self.nextId⟩ ∧
      after = { self with
        byFingerprint := Function.update self.byFingerprint fingerprint
          (insertSender (self.byFingerprint fingerprint) self.nextId task)
        nextId := self.nextId + 1 } := by
  unfold register at h
  dsimp only at h
  split at h
  · cases h
  · next hroom =>
    obtain ⟨rfl, rfl⟩ := Prod.mk.inj (Option.some.inj h)
    refine ⟨fun max hmax => ?_, rfl, rfl⟩
    simpa [hmax] using hroom

theorem mem_insertSender {senders : List (UInt64 × ι)} {id : UInt64} {task : ι} {sender : UInt64 × ι} :
    sender ∈ insertSender senders id task ↔ sender = (id, task) ∨ sender ∈ senders ∧ sender.1 ≠ id := by
  simp [insertSender]

theorem length_insertSender_le (senders : List (UInt64 × ι)) (id : UInt64) (task : ι) :
    (insertSender senders id task).length ≤ senders.length + 1 := by
  simp only [insertSender, List.length_cons]
  exact Nat.succ_le_succ (List.length_filter_le _ _)

end LiveConnections

end InfusedModbus.Server
