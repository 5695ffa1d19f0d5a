import InfusedModbus.Client.EdgeNode
import InfusedModbus.Client.SparkplugChangeTracker
import InfusedModbus.Datafs.Staging
import InfusedModbus.Protocol.DeviceDescription

/-! Which machines are subscribed. An active machine has two tasks, one that polls it and one
that publishes what has changed; the two are started and aborted together. The session also
holds the stores that polling fills and every call that was made to the MQTT client, with
whether the client accepted it. -/

namespace InfusedModbus.Client

open Foundation Protocol Datafs

/-! ### Tasks -/

/-- A ticker owns the tracker of what it published. -/
inductive TaskWork where
  | polling
  | ddataTicker (tracker : ChangeTracker)

structure Task where
  machine : MachineDescription
  work : TaskWork
  aborted : Bool

/-- The two tasks of an active machine, by their numbers. -/
structure MachineTasks where
  polling : ℕ
  ddataTicker : ℕ
  deriving DecidableEq, Repr

/-- The tasks are numbered as they are spawned. -/
structure Session where
  stores : Store String MachineStores
  tasks : Store ℕ Task
  spawned : ℕ
  active : Store String MachineTasks
  published : List (PublishCall × Bool)

namespace Session

def spawn (s : Session) (machine : MachineDescription) (work : TaskWork) : ℕ × Session :=
  (s.spawned, { s with tasks := s.tasks.set s.spawned ⟨machine, work, false⟩, spawned := s.spawned + 1 })

def abort (s : Session) (task : ℕ) : Session :=
  match s.tasks.get task with
  | some spawned => { s with tasks := s.tasks.set task { spawned with aborted := true } }
  | none => s

def abortBoth (s : Session) (tasks : MachineTasks) : Session := (s.abort tasks.polling).abort tasks.ddataTicker

/-! ### Activating and deactivating -/

def isActive (s : Session) (machineName : String) : Bool := (s.active.get machineName).isSome

/-- The tasks of a machine that was active already are aborted. -/
def activate (s : Session) (machineName : String) (tasks : MachineTasks) : Session :=
  let inserted := { s with active := s.active.set machineName tasks }
  match s.active.get machineName with
  | some previous => inserted.abortBoth previous
  | none => inserted

/-- Whether the machine was active. -/
def deactivate (s : Session) (machineName : String) : Bool × Session :=
  match s.active.get machineName with
  | some tasks => (true, ({ s with active := s.active.remove machineName } : Session).abortBoth tasks)
  | none => (false, s)

/-! ### Publishing -/

/-- Make the call; the client accepts it or not. Data without metrics makes no call. -/
def publish (accepts : ℕ → Bool) (s : Session) (call : PublishCall) : Bool × Session :=
  if call.isNoop then (true, s)
  else
    let accepted := accepts s.published.length
    (accepted, { s with published := s.published ++ [(call, accepted)] })

/-- What was handed to the client, in order. -/
def calls (s : Session) : List PublishCall := s.published.map Prod.fst

/-- What the client accepted, in order. -/
def accepted (s : Session) : List PublishCall := (s.published.filter Prod.snd).map Prod.fst

end Session

end InfusedModbus.Client
