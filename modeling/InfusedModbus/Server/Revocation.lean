import InfusedModbus.Foundation.Execution
import InfusedModbus.Server.ClientTrust

/-! Accepting TLS connections while clients are approved and revoked. Each connection
task checks the certificate, ends the handshake, registers and serves, and gives its
registration back; each admin line locks the approved clients and then, for a
revocation, the live connections. The locks are taken one after the other, so any
other step may come in between. -/

namespace InfusedModbus.Server

open Foundation Protocol

/-- Where a connection task stands. -/
inductive Phase (κ : Type) where
  | connecting
  | verified (certificate : κ)
  | established (certificate : κ)
  | serving (handle : ConnectionHandle)
  | untracked (certificate : κ)
  | ending (handle : ConnectionHandle)
  | closed
  deriving DecidableEq

/-- The tables and the tasks. An admin connection that has removed a client and not yet
ended its connections keeps the fingerprint, and whether it was approved again since;
`revoked` records the fingerprints with an answered revocation and no approval since. -/
structure TlsServer (ι κ α : Type) where
  approved : ApprovedClients
  live : LiveConnections ι
  phase : ι → Phase κ
  revoking : α → Option (Fingerprint × Bool)
  revoked : Fingerprint → Bool

/-- What can happen next. -/
inductive TlsAction (ι κ α : Type) where
  | verifyClientCert (task : ι) (certificate : κ)
  | completeHandshake (task : ι)
  | abandonHandshake (task : ι)
  | register (task : ι)
  | finish (task : ι)
  | cancelled (task : ι)
  | deregister (task : ι)
  | approve (fingerprint : Fingerprint)
  | remove (admin : α) (fingerprint : Fingerprint)
  | terminate (admin : α)

namespace TlsServer

variable {ι κ α : Type} [DecidableEq ι]

/-- A server as it starts, with the clients of a former run approved. -/
def start (approved : ApprovedClients) (maxConnectionsPerFingerprint : Option ℕ) : TlsServer ι κ α where
  approved := approved
  live := { LiveConnections.new with maxConnectionsPerFingerprint := maxConnectionsPerFingerprint }
  phase := fun _ => .connecting
  revoking := fun _ => none
  revoked := fun _ => false

variable (fingerprintOfCertificate : κ → Option Fingerprint) (server : TlsServer ι κ α)

def setPhase (task : ι) (phase : Phase κ) : TlsServer ι κ α :=
  { server with phase := Function.update server.phase task phase }

/-- The task holds a handle that it has not given back. -/
def Holds (task : ι) (handle : ConnectionHandle) : Prop :=
  server.phase task = .serving handle ∨ server.phase task = .ending handle

/-- The task's cancellation sender has not been dropped. -/
def Registered (task : ι) (handle : ConnectionHandle) : Prop :=
  (handle.id, task) ∈ server.live.byFingerprint handle.fingerprint

instance (task : ι) (handle : ConnectionHandle) : Decidable (server.Registered task handle) :=
  inferInstanceAs (Decidable (_ ∈ _))

/-- The certificate check: a client that is not approved never gets past the handshake. -/
def verifyClientCert (certificate : κ) : Phase κ :=
  match fingerprintOfCertificate certificate with
  | none => .closed
  | some fingerprint => if server.approved.contains fingerprint then .verified certificate else .closed

/-- The task has its slot and serves. -/
def admitted (task : ι) (handle : ConnectionHandle) (live : LiveConnections ι) : TlsServer ι κ α :=
  { server.setPhase task (.serving handle) with live := live }

/-- The task of an established connection asks for a slot. -/
def registerTask (task : ι) (certificate : κ) : TlsServer ι κ α :=
  match fingerprintOfCertificate certificate with
  | none => server.setPhase task (.untracked certificate)
  | some fingerprint =>
    match server.live.register fingerprint task with
    | none => server.setPhase task .closed
    | some (handle, live) => server.admitted task handle live

/-- An approval also counts against the revocations that are still under way. -/
def approve (fingerprint : Fingerprint) : TlsServer ι κ α :=
  match server.approved.insert fingerprint with
  | (_, .atCapacity) => server
  | (approved, _) =>
    { server with
      approved := approved
      revoking := fun admin => (server.revoking admin).map fun pending =>
        (pending.1, pending.2 || pending.1 = fingerprint)
      revoked := Function.update server.revoked fingerprint false }

/-- The second half of a revocation, after which it is answered. -/
def terminate [DecidableEq α] (admin : α) (fingerprint : Fingerprint) (approvedSince : Bool) : TlsServer ι κ α :=
  { server with
    live := (server.live.revoke fingerprint).1
    revoking := Function.update server.revoking admin none
    revoked := Function.update server.revoked fingerprint (server.revoked fingerprint || !approvedSince) }

def step [DecidableEq α] (fingerprintOfCertificate : κ → Option Fingerprint) (server : TlsServer ι κ α) :
    TlsAction ι κ α → Option (TlsServer ι κ α)
  | .verifyClientCert task certificate =>
    match server.phase task with
    | .connecting => some (server.setPhase task (server.verifyClientCert fingerprintOfCertificate certificate))
    | _ => none
  | .completeHandshake task =>
    match server.phase task with
    | .verified certificate => some (server.setPhase task (.established certificate))
    | _ => none
  | .abandonHandshake task =>
    match server.phase task with
    | .connecting | .verified _ => some (server.setPhase task .closed)
    | _ => none
  | .register task =>
    match server.phase task with
    | .established certificate => some (server.registerTask fingerprintOfCertificate task certificate)
    | _ => none
  | .finish task =>
    match server.phase task with
    | .serving handle => some (server.setPhase task (.ending handle))
    | .untracked _ => some (server.setPhase task .closed)
    | _ => none
  | .cancelled task =>
    match server.phase task with
    | .serving handle => if server.Registered task handle then none else some (server.setPhase task (.ending handle))
    | _ => none
  | .deregister task =>
    match server.phase task with
    | .ending handle => some { server.setPhase task .closed with live := server.live.deregister handle }
    | _ => none
  | .approve fingerprint => some (server.approve fingerprint)
  | .remove admin fingerprint =>
    match server.revoking admin with
    | none => some { server with
        approved := (server.approved.remove fingerprint).1
        revoking := Function.update server.revoking admin (some (fingerprint, false)) }
    | some _ => none
  | .terminate admin =>
    (server.revoking admin).map fun pending => server.terminate admin pending.1 pending.2

/-! ### What must hold -/

/-- The task serves requests for the fingerprint and nothing tells it to stop: it is
registered, or was never registered at all. -/
inductive ServesUncancelled (task : ι) (fingerprint : Fingerprint) : Prop where
  | registered (handle : ConnectionHandle) (hphase : server.phase task = .serving handle)
      (hfingerprint : handle.fingerprint = fingerprint) (hsender : server.Registered task handle)
  | untracked (certificate : κ) (hphase : server.phase task = .untracked certificate)

/-- What holds in a state: an answered revocation is final until the next approval, and
no fingerprint holds more connections than it may. -/
structure Revokes : Prop where
  final : ∀ fingerprint, server.revoked fingerprint = true → ∀ task, ¬server.ServesUncancelled task fingerprint
  bounded : ∀ max, server.live.maxConnectionsPerFingerprint = some max →
    ∀ fingerprint, (server.live.byFingerprint fingerprint).length ≤ max

/-- What holds of a step: a revocation cancels nobody else, and whoever gives back a
registration gives back its own. -/
structure Spares (action : TlsAction ι κ α) (after : TlsServer ι κ α) : Prop where
  revocation : ∀ admin fingerprint, (action = .remove admin fingerprint ∨
      action = .terminate admin ∧ ∃ approvedSince, server.revoking admin = some (fingerprint, approvedSince)) →
    ∀ other, other ≠ fingerprint → after.live.byFingerprint other = server.live.byFingerprint other
  deregistration : ∀ task, action = .deregister task → ∀ other, other ≠ task →
    ∀ handle, server.Registered other handle → after.Registered other handle

/-- A task registers a fingerprint only while no revocation of it has been answered
since its last approval, and while the ids have not run out. -/
def Timely : TlsAction ι κ α → Prop
  | .register task => ∀ certificate fingerprint, server.phase task = .established certificate →
      fingerprintOfCertificate certificate = some fingerprint →
      server.revoked fingerprint = false ∧ server.live.nextId + 1 ≠ 0
  | _ => True

/-! ### The invariant -/

/-- Certificates past the check are readable, and registrations belong to distinct
tasks that still hold them. -/
structure Invariant : Prop extends server.Revokes where
  readable : ∀ task certificate,
    (server.phase task = .verified certificate ∨ server.phase task = .established certificate) →
    (fingerprintOfCertificate certificate).isSome
  tracked : ∀ task certificate, server.phase task ≠ .untracked certificate
  held : ∀ task handle, server.Registered task handle → server.Holds task handle
  issued : ∀ task handle, server.Holds task handle → handle.id.toNat < server.live.nextId.toNat
  distinct : ∀ task task' handle handle', server.Holds task handle → server.Holds task' handle' →
    handle.id = handle'.id → task = task'

section Invariant

variable {fingerprintOfCertificate server}

theorem phase_setPhase (task other : ι) (phase : Phase κ) :
    (server.setPhase task phase).phase other = if other = task then phase else server.phase other := by
  simp [setPhase, Function.update_apply]

omit [DecidableEq ι] in
theorem holds_unique {task : ι} {handle handle' : ConnectionHandle} (h : server.Holds task handle)
    (h' : server.Holds task handle') : handle = handle' := by
  have heq := h.imp (fun hserving => hserving.symm) (fun hending => hending.symm)
  rcases heq with heq | heq <;> rcases h' with h' | h' <;> cases heq.trans h' <;> rfl

omit [DecidableEq ι] in
theorem invariant_start (approved : ApprovedClients) (maxConnectionsPerFingerprint : Option ℕ) :
    (start approved maxConnectionsPerFingerprint : TlsServer ι κ α).Invariant fingerprintOfCertificate where
  final := fun _ h => absurd h (by simp [start])
  bounded := fun _ _ _ => Nat.zero_le _
  readable := by rintro task certificate (h | h) <;> cases h
  tracked := fun _ _ h => by cases h
  held := fun _ _ h => by cases h
  issued := by rintro task handle (h | h) <;> cases h
  distinct := by rintro task task' handle handle' (h | h) <;> cases h

/-- A task without a registration moves on and gets no handle. -/
theorem Invariant.setPhase (h : server.Invariant fingerprintOfCertificate) {task : ι} {phase : Phase κ}
    (hbefore : ∀ handle, ¬server.Registered task handle)
    (hreadable : ∀ certificate, (phase = .verified certificate ∨ phase = .established certificate) →
      (fingerprintOfCertificate certificate).isSome)
    (htracked : ∀ certificate, phase ≠ .untracked certificate)
    (hafter : ∀ handle, phase ≠ .serving handle ∧ phase ≠ .ending handle) :
    (server.setPhase task phase).Invariant fingerprintOfCertificate := by
  have hholds : ∀ other handle, (server.setPhase task phase).Holds other handle →
      other ≠ task ∧ server.Holds other handle := by
    intro other handle hheld
    by_cases hother : other = task
    · subst hother
      simp only [Holds, phase_setPhase, if_true] at hheld
      exact absurd hheld (not_or.mpr (hafter handle))
    · simp only [Holds, phase_setPhase, if_neg hother] at hheld
      exact ⟨hother, hheld⟩
  refine ⟨⟨fun fingerprint hrevoked other hserves => ?_, h.bounded⟩, fun other certificate hphase => ?_,
    fun other certificate hphase => ?_, fun other handle hregistered => ?_, fun other handle hheld => ?_,
    fun other other' handle handle' hheld hheld' => ?_⟩
  · rcases hserves with ⟨handle, hphase, hfingerprint, hsender⟩ | ⟨certificate, hphase⟩
    · rw [phase_setPhase] at hphase
      split at hphase
      · exact (hafter handle).1 hphase
      · exact h.final fingerprint hrevoked other (.registered handle hphase hfingerprint hsender)
    · rw [phase_setPhase] at hphase
      split at hphase
      · exact htracked certificate hphase
      · exact h.tracked other certificate hphase
  · simp only [phase_setPhase] at hphase
    split at hphase
    · exact hreadable certificate hphase
    · exact h.readable other certificate hphase
  · rw [phase_setPhase] at hphase
    split at hphase
    · exact htracked certificate hphase
    · exact h.tracked other certificate hphase
  · have hother : other ≠ task := fun heq => hbefore handle (heq ▸ hregistered)
    simp only [Holds, phase_setPhase, if_neg hother]
    exact h.held other handle hregistered
  · exact h.issued other handle (hholds other handle hheld).2
  · exact h.distinct other other' handle handle' (hholds other handle hheld).2 (hholds other' handle' hheld').2

omit [DecidableEq ι] in
theorem Invariant.not_registered (h : server.Invariant fingerprintOfCertificate) {task : ι}
    (hbefore : ∀ handle, ¬server.Holds task handle) (handle : ConnectionHandle) :
    ¬server.Registered task handle :=
  fun hregistered => hbefore handle (h.held task handle hregistered)

/-- A task that stops serving keeps its handle until it gives it back. -/
theorem Invariant.stop (h : server.Invariant fingerprintOfCertificate) {task : ι} {handle : ConnectionHandle}
    (hserving : server.phase task = .serving handle) :
    (server.setPhase task (.ending handle)).Invariant fingerprintOfCertificate := by
  have hholds : ∀ other handle', (server.setPhase task (.ending handle)).Holds other handle' ↔
      server.Holds other handle' := by
    intro other handle'
    by_cases hother : other = task
    · subst hother
      simp [Holds, phase_setPhase, hserving]
    · simp only [Holds, phase_setPhase, if_neg hother]
  refine ⟨⟨fun fingerprint hrevoked other hserves => ?_, h.bounded⟩, fun other certificate hphase => ?_,
    fun other certificate hphase => ?_, fun other handle' hregistered => ?_, fun other handle' hheld => ?_,
    fun other other' handle' handle'' hheld hheld' => ?_⟩
  · rcases hserves with ⟨handle', hphase, hfingerprint, hsender⟩ | ⟨certificate, hphase⟩
    · rw [phase_setPhase] at hphase
      split at hphase
      · cases hphase
      · exact h.final fingerprint hrevoked other (.registered handle' hphase hfingerprint hsender)
    · rw [phase_setPhase] at hphase
      split at hphase
      · cases hphase
      · exact h.tracked other certificate hphase
  · simp only [phase_setPhase] at hphase
    split at hphase
    · rcases hphase with hphase | hphase <;> cases hphase
    · exact h.readable other certificate hphase
  · rw [phase_setPhase] at hphase
    split at hphase
    · cases hphase
    · exact h.tracked other certificate hphase
  · exact (hholds other handle').mpr (h.held other handle' hregistered)
  · exact h.issued other handle' ((hholds other handle').mp hheld)
  · exact h.distinct other other' handle' handle'' ((hholds other handle').mp hheld)
      ((hholds other' handle'').mp hheld')

omit [DecidableEq ι] in
/-- The senders left behind by a registration that is given back or revoked. -/
theorem Invariant.shrink (h : server.Invariant fingerprintOfCertificate) {after : TlsServer ι κ α}
    (hphase : after.phase = server.phase)
    (hmax : after.live.maxConnectionsPerFingerprint = server.live.maxConnectionsPerFingerprint)
    (hnext : after.live.nextId = server.live.nextId)
    (hsub : ∀ fingerprint, (after.live.byFingerprint fingerprint).Sublist (server.live.byFingerprint fingerprint))
    (hrevoked : ∀ fingerprint, after.revoked fingerprint = true →
      server.revoked fingerprint = true ∨ after.live.byFingerprint fingerprint = []) :
    after.Invariant fingerprintOfCertificate := by
  have hregistered : ∀ task handle, after.Registered task handle → server.Registered task handle :=
    fun task handle hmem => (hsub handle.fingerprint).subset hmem
  have hholds : ∀ task handle, after.Holds task handle ↔ server.Holds task handle := by
    intro task handle
    simp only [Holds, hphase]
  refine ⟨⟨fun fingerprint hflag task hserves => ?_, fun max hcap fingerprint => ?_⟩, ?_, ?_, ?_, ?_, ?_⟩
  · rcases hserves with ⟨handle, hserving, rfl, hsender⟩ | ⟨certificate, huntracked⟩
    · rcases hrevoked handle.fingerprint hflag with hbefore | hnone
      · exact h.final handle.fingerprint hbefore task
          (.registered handle (hphase ▸ hserving) rfl (hregistered task handle hsender))
      · rw [Registered, hnone] at hsender
        cases hsender
    · exact h.tracked task certificate (hphase ▸ huntracked)
  · exact (hsub fingerprint).length_le.trans (h.bounded max (hmax ▸ hcap) fingerprint)
  · rw [hphase]
    exact h.readable
  · rw [hphase]
    exact h.tracked
  · exact fun task handle hmem => (hholds task handle).mpr (h.held task handle (hregistered task handle hmem))
  · intro task handle hheld
    rw [hnext]
    exact h.issued task handle ((hholds task handle).mp hheld)
  · exact fun task task' handle handle' hheld hheld' =>
      h.distinct task task' handle handle' ((hholds task handle).mp hheld) ((hholds task' handle').mp hheld')

/-- A task that gives back its registration. -/
theorem Invariant.deregister (h : server.Invariant fingerprintOfCertificate) {task : ι}
    {handle : ConnectionHandle} (hending : server.phase task = .ending handle) :
    TlsServer.Invariant fingerprintOfCertificate
      { server.setPhase task .closed with live := server.live.deregister handle } := by
  have hsub : ∀ fingerprint, ((server.live.deregister handle).byFingerprint fingerprint).Sublist
      (server.live.byFingerprint fingerprint) := by
    intro fingerprint
    simp only [LiveConnections.deregister, Function.update_apply]
    split
    · next heq =>
      rw [heq]
      exact List.filter_sublist
    · exact List.Sublist.refl _
  have hshrunk : TlsServer.Invariant fingerprintOfCertificate
      { server with live := server.live.deregister handle } := h.shrink rfl rfl rfl hsub fun _ hrevoked => .inl hrevoked
  refine hshrunk.setPhase (fun handle' hregistered => ?_) (by simp) (by simp) (by simp)
  have hheld : server.Holds task handle' := h.held task handle' ((hsub handle'.fingerprint).subset hregistered)
  obtain rfl := holds_unique hheld (.inr hending)
  simp [Registered, LiveConnections.deregister] at hregistered

/-- A task that gets a slot gets an id that nobody holds. -/
theorem Invariant.register (h : server.Invariant fingerprintOfCertificate) {task : ι}
    (hbefore : ∀ handle, ¬server.Holds task handle) {fingerprint : Fingerprint} {handle : ConnectionHandle}
    {live : LiveConnections ι} (hregister : server.live.register fingerprint task = some (handle, live))
    (hrevoked : server.revoked fingerprint = false) (hnext : server.live.nextId + 1 ≠ 0) :
    (server.admitted task handle live).Invariant fingerprintOfCertificate := by
  obtain ⟨hroom, rfl, rfl⟩ := LiveConnections.register_eq_some hregister
  have hsucc : (server.live.nextId + 1).toNat = server.live.nextId.toNat + 1 := by
    have hlt := server.live.nextId.toNat_lt
    have hne : (server.live.nextId + 1).toNat ≠ 0 := fun h0 => hnext (UInt64.toNat_inj.mp h0)
    rw [UInt64.toNat_add] at hne ⊢
    simp only [UInt64.reduceToNat] at hne ⊢
    omega
  generalize hlive : ({ server.live with
    byFingerprint := Function.update server.live.byFingerprint fingerprint
      (LiveConnections.insertSender (server.live.byFingerprint fingerprint) server.live.nextId task)
    nextId := server.live.nextId + 1 } : LiveConnections ι) = live
  have hphase : ∀ other, (server.admitted task ⟨fingerprint, server.live.nextId⟩ live).phase other =
      if other = task then .serving ⟨fingerprint, server.live.nextId⟩ else server.phase other :=
    fun other => phase_setPhase task other _
  have hholds : ∀ other handle, (server.admitted task ⟨fingerprint, server.live.nextId⟩ live).Holds other handle →
      other = task ∧ handle = ⟨fingerprint, server.live.nextId⟩ ∨ other ≠ task ∧ server.Holds other handle := by
    intro other handle hheld
    by_cases hother : other = task
    · subst hother
      simp only [Holds, hphase, if_true, reduceCtorEq, or_false, Phase.serving.injEq] at hheld
      exact .inl ⟨rfl, hheld.symm⟩
    · simp only [Holds, hphase, if_neg hother] at hheld
      exact .inr ⟨hother, hheld⟩
  have hregistered : ∀ other handle, (server.admitted task ⟨fingerprint, server.live.nextId⟩ live).Registered other handle →
      other = task ∧ handle = ⟨fingerprint, server.live.nextId⟩ ∨ server.Registered other handle := by
    intro other handle hmem
    simp only [Registered, admitted, ← hlive, Function.update_apply] at hmem
    split at hmem
    · next hfingerprint =>
      rcases LiveConnections.mem_insertSender.mp hmem with heq | ⟨hold, -⟩
      · obtain ⟨hid, rfl⟩ := Prod.mk.inj heq
        exact .inl ⟨rfl, by cases handle; simp_all⟩
      · exact .inr (by rw [Registered, hfingerprint]; exact hold)
    · exact .inr hmem
  refine ⟨⟨fun revokedFingerprint hflag other hserves => ?_, fun max hcap other => ?_⟩,
    fun other certificate hat => ?_, fun other certificate hat => ?_, fun other handle hmem => ?_,
    fun other handle hheld => ?_, fun other other' handle handle' hheld hheld' hid => ?_⟩
  · rcases hserves with ⟨handle, hat, rfl, hsender⟩ | ⟨certificate, hat⟩
    · rcases hregistered other handle hsender with ⟨rfl, rfl⟩ | hold
      · cases hrevoked.symm.trans hflag
      · have hother : other ≠ task := fun heq => hbefore handle (heq ▸ h.held other handle hold)
        rw [hphase, if_neg hother] at hat
        exact h.final handle.fingerprint hflag other (.registered handle hat rfl hold)
    · rw [hphase] at hat
      split at hat
      · cases hat
      · exact h.tracked other certificate hat
  · simp only [admitted, ← hlive, Function.update_apply] at hcap ⊢
    split
    · exact (LiveConnections.length_insertSender_le _ _ _).trans (hroom max hcap)
    · exact h.bounded max hcap other
  · simp only [hphase] at hat
    split at hat
    · rcases hat with hat | hat <;> cases hat
    · exact h.readable other certificate hat
  · rw [hphase] at hat
    split at hat
    · cases hat
    · exact h.tracked other certificate hat
  · rcases hregistered other handle hmem with ⟨rfl, rfl⟩ | hold
    · simp [Holds, hphase]
    · have hother : other ≠ task := fun heq => hbefore handle (heq ▸ h.held other handle hold)
      simp only [Holds, hphase, if_neg hother]
      exact h.held other handle hold
  · have hnextId : (server.admitted task ⟨fingerprint, server.live.nextId⟩ live).live.nextId =
        server.live.nextId + 1 := by simp only [admitted, ← hlive]
    rw [hnextId]
    rcases hholds other handle hheld with ⟨-, rfl⟩ | ⟨-, hold⟩
    · rw [hsucc]
      exact Nat.lt_succ_self _
    · have hissued := h.issued other handle hold
      omega
  · rcases hholds other handle hheld with ⟨rfl, rfl⟩ | ⟨-, hold⟩ <;>
      rcases hholds other' handle' hheld' with ⟨rfl, rfl⟩ | ⟨-, hold'⟩
    · rfl
    · have hissued := h.issued other' handle' hold'
      rw [← hid] at hissued
      exact absurd hissued (Nat.lt_irrefl _)
    · have hissued := h.issued other handle hold
      rw [hid] at hissued
      exact absurd hissued (Nat.lt_irrefl _)
    · exact h.distinct other other' handle handle' hold hold' hid

omit [DecidableEq ι] in
/-- An approval only lifts revocations. -/
theorem Invariant.approve (h : server.Invariant fingerprintOfCertificate) (fingerprint : Fingerprint) :
    (server.approve fingerprint).Invariant fingerprintOfCertificate := by
  unfold TlsServer.approve
  split
  · exact h
  · refine h.shrink rfl rfl rfl (fun _ => List.Sublist.refl _) fun other hflag => .inl ?_
    simp only [Function.update_apply] at hflag
    split at hflag
    · cases hflag
    · exact hflag

omit [DecidableEq ι] in
/-- A revocation ends with no sender left for its fingerprint. -/
theorem Invariant.terminate [DecidableEq α] (h : server.Invariant fingerprintOfCertificate) (admin : α)
    (fingerprint : Fingerprint) (approvedSince : Bool) :
    (server.terminate admin fingerprint approvedSince).Invariant fingerprintOfCertificate := by
  have hlive : ∀ other, (server.terminate admin fingerprint approvedSince).live.byFingerprint other =
      if other = fingerprint then [] else server.live.byFingerprint other := by
    intro other
    simp [TlsServer.terminate, LiveConnections.revoke, Function.update_apply]
  refine h.shrink rfl rfl rfl (fun other => ?_) fun other hflag => ?_
  · rw [hlive]
    split
    · exact List.nil_sublist _
    · exact List.Sublist.refl _
  · rw [hlive]
    simp only [TlsServer.terminate, Function.update_apply] at hflag
    split
    · exact .inr rfl
    · next hother =>
      rw [if_neg hother] at hflag
      exact .inl hflag

theorem Invariant.registerTask (h : server.Invariant fingerprintOfCertificate) {task : ι} {certificate : κ}
    (hphase : server.phase task = .established certificate)
    (htimely : server.Timely fingerprintOfCertificate (.register task)) :
    (server.registerTask fingerprintOfCertificate task certificate).Invariant fingerprintOfCertificate := by
  have hbefore : ∀ handle, ¬server.Holds task handle := by
    rintro handle (hheld | hheld) <;> cases hphase.symm.trans hheld
  unfold TlsServer.registerTask
  cases hfingerprint : fingerprintOfCertificate certificate with
  | none =>
    have hreadable := h.readable task certificate (.inr hphase)
    rw [hfingerprint] at hreadable
    cases hreadable
  | some fingerprint =>
    obtain ⟨hrevoked, hnext⟩ := htimely certificate fingerprint hphase hfingerprint
    dsimp only
    split
    · exact h.setPhase (h.not_registered hbefore) (by simp) (by simp) (by simp)
    · next hregister => exact h.register hbefore hregister hrevoked hnext

/-- Every timely step keeps the invariant. -/
theorem Invariant.step [DecidableEq α] (h : server.Invariant fingerprintOfCertificate) {action : TlsAction ι κ α}
    (htimely : server.Timely fingerprintOfCertificate action) {after : TlsServer ι κ α}
    (hstep : server.step fingerprintOfCertificate action = some after) :
    after.Invariant fingerprintOfCertificate := by
  cases action with
  | verifyClientCert task certificate =>
    simp only [TlsServer.step] at hstep
    split at hstep
    · next hphase =>
      obtain rfl := Option.some.inj hstep
      have hbefore : ∀ handle, ¬server.Holds task handle := by
        rintro handle (hheld | hheld) <;> cases hphase.symm.trans hheld
      unfold TlsServer.verifyClientCert
      split
      · exact h.setPhase (h.not_registered hbefore) (by simp) (by simp) (by simp)
      · next fingerprint hfingerprint =>
        split
        · exact h.setPhase (h.not_registered hbefore) (by simp [hfingerprint]) (by simp) (by simp)
        · exact h.setPhase (h.not_registered hbefore) (by simp) (by simp) (by simp)
    · cases hstep
  | completeHandshake task =>
    simp only [TlsServer.step] at hstep
    split at hstep
    · next certificate hphase =>
      obtain rfl := Option.some.inj hstep
      have hbefore : ∀ handle, ¬server.Holds task handle := by
        rintro handle (hheld | hheld) <;> cases hphase.symm.trans hheld
      have hreadable := h.readable task certificate (.inl hphase)
      exact h.setPhase (h.not_registered hbefore) (by simp [hreadable]) (by simp) (by simp)
    · cases hstep
  | abandonHandshake task =>
    simp only [TlsServer.step] at hstep
    split at hstep
    · next hphase =>
      obtain rfl := Option.some.inj hstep
      have hbefore : ∀ handle, ¬server.Holds task handle := by
        rintro handle (hheld | hheld) <;> cases hphase.symm.trans hheld
      exact h.setPhase (h.not_registered hbefore) (by simp) (by simp) (by simp)
    · next certificate hphase =>
      obtain rfl := Option.some.inj hstep
      have hbefore : ∀ handle, ¬server.Holds task handle := by
        rintro handle (hheld | hheld) <;> cases hphase.symm.trans hheld
      exact h.setPhase (h.not_registered hbefore) (by simp) (by simp) (by simp)
    · cases hstep
  | register task =>
    simp only [TlsServer.step] at hstep
    split at hstep
    · next certificate hphase =>
      obtain rfl := Option.some.inj hstep
      exact h.registerTask hphase htimely
    · cases hstep
  | finish task =>
    simp only [TlsServer.step] at hstep
    split at hstep
    · next handle hphase =>
      obtain rfl := Option.some.inj hstep
      exact h.stop hphase
    · next certificate hphase => exact absurd hphase (h.tracked task certificate)
    · cases hstep
  | cancelled task =>
    simp only [TlsServer.step] at hstep
    split at hstep
    · next handle hphase =>
      split at hstep
      · cases hstep
      · obtain rfl := Option.some.inj hstep
        exact h.stop hphase
    · cases hstep
  | deregister task =>
    simp only [TlsServer.step] at hstep
    split at hstep
    · next handle hphase =>
      obtain rfl := Option.some.inj hstep
      exact h.deregister hphase
    · cases hstep
  | approve fingerprint =>
    obtain rfl := Option.some.inj hstep
    exact h.approve fingerprint
  | remove admin fingerprint =>
    simp only [TlsServer.step] at hstep
    split at hstep
    · obtain rfl := Option.some.inj hstep
      exact h.shrink rfl rfl rfl (fun _ => List.Sublist.refl _) fun _ hflag => .inl hflag
    · cases hstep
  | terminate admin =>
    obtain ⟨pending, -, rfl⟩ := Option.map_eq_some_iff.mp hstep
    exact h.terminate admin pending.1 pending.2

/-- No step of a revocation or a deregistration touches somebody else's registration. -/
theorem Invariant.spares [DecidableEq α] (h : server.Invariant fingerprintOfCertificate)
    {action : TlsAction ι κ α} {after : TlsServer ι κ α} (hstep : server.step fingerprintOfCertificate action = some after) :
    server.Spares action after := by
  constructor
  · rintro admin fingerprint (rfl | ⟨rfl, approvedSince, hpending⟩) other hother
    · simp only [TlsServer.step] at hstep
      split at hstep
      · obtain rfl := Option.some.inj hstep
        rfl
      · cases hstep
    · simp only [TlsServer.step, hpending, Option.map_some, Option.some.injEq] at hstep
      subst hstep
      simp [TlsServer.terminate, LiveConnections.revoke, hother]
  · rintro task rfl other hother handle hregistered
    simp only [TlsServer.step] at hstep
    split at hstep
    · next ended hphase =>
      obtain rfl := Option.some.inj hstep
      have hid : handle.id ≠ ended.id := fun hid =>
        hother (h.distinct other task handle ended (h.held other handle hregistered) (.inr hphase) hid)
      simp only [Registered, LiveConnections.deregister, Function.update_apply] at hregistered ⊢
      split
      · next hfingerprint =>
        rw [← hfingerprint]
        exact List.mem_filter.mpr ⟨hregistered, by simpa using hid⟩
      · exact hregistered
    · cases hstep

end Invariant

/-- In every state of a run whose registrations are timely, an answered revocation is
final, connections are bounded, and the next step spares everybody it is not about. -/
theorem revocation_is_final [DecidableEq α] {approved : ApprovedClients} {maxConnectionsPerFingerprint : Option ℕ}
    {actions : List (TlsAction ι κ α)}
    (htimely : Permitted (step fingerprintOfCertificate) (Timely fingerprintOfCertificate)
      (start approved maxConnectionsPerFingerprint) actions)
    (hrun : execute (step fingerprintOfCertificate) (start approved maxConnectionsPerFingerprint) actions =
      some server) :
    server.Revokes ∧ ∀ action after, server.step fingerprintOfCertificate action = some after →
      server.Spares action after := by
  have hinv : server.Invariant fingerprintOfCertificate := by
    refine @invariant_of_execute _ _ _ _ (Invariant fingerprintOfCertificate) ?_ _ _ ?_ _ htimely hrun
    · exact fun before action after hbefore hpermit hstep => hbefore.step hpermit hstep
    · exact invariant_start approved maxConnectionsPerFingerprint
  exact ⟨hinv.toRevokes, fun action after hstep => hinv.spares hstep⟩

/-! ### One client -/

/-- A client and its certificate. -/
def client : Fingerprint := ⟨List.replicate 32 0, rfl⟩

/-- The client connects and is served, then it is revoked. -/
def servedThenRevoked : List (TlsAction ℕ Fingerprint Unit) :=
  [.approve client, .verifyClientCert 0 client, .completeHandshake 0, .register 0, .remove () client, .terminate ()]

theorem timely_servedThenRevoked :
    Permitted (step some) (Timely some) (start .new (some 5) : TlsServer ℕ Fingerprint Unit) servedThenRevoked := by
  refine ⟨trivial, fun _ h1 => ⟨trivial, fun _ h2 => ⟨trivial, fun _ h3 => ⟨?_, fun _ _ =>
    ⟨trivial, fun _ _ => ⟨trivial, fun _ _ => trivial⟩⟩⟩⟩⟩⟩
  obtain rfl := Option.some.inj h1
  obtain rfl := Option.some.inj h2
  obtain rfl := Option.some.inj h3
  rintro certificate fingerprint hphase hfingerprint
  obtain rfl : certificate = client := by injection hphase with h; exact h.symm
  obtain rfl := Option.some.inj hfingerprint
  exact ⟨rfl, by decide⟩

theorem revocation_is_final_client : ∃ server,
    execute (step some) (start .new (some 5)) servedThenRevoked = some server ∧
    server.revoked client = true ∧ ¬server.ServesUncancelled 0 client := by
  refine ⟨_, rfl, rfl, ?_⟩
  exact (revocation_is_final some _ timely_servedThenRevoked rfl).1.final client rfl 0

/-- The client passes the check, is revoked, and only then takes its slot. -/
def revokedWhileConnecting : List (TlsAction ℕ Fingerprint Unit) :=
  [.approve client, .verifyClientCert 0 client, .remove () client, .terminate (), .completeHandshake 0, .register 0]

theorem revoked_client_served : ∃ server,
    execute (step some) (start .new (some 5)) revokedWhileConnecting = some server ∧
      server.revoked client = true ∧ server.ServesUncancelled 0 client ∧ ¬server.Revokes := by
  have hserves : ∃ server, execute (step some) (start .new (some 5)) revokedWhileConnecting = some server ∧
      server.revoked client = true ∧ server.ServesUncancelled 0 client :=
    ⟨_, rfl, rfl, .registered ⟨client, 0⟩ rfl rfl (by decide)⟩
  obtain ⟨server, hrun, hrevoked, hserves⟩ := hserves
  exact ⟨server, hrun, hrevoked, hserves, fun h => h.final client hrevoked 0 hserves⟩

end TlsServer

end InfusedModbus.Server
