import InfusedModbus.Client.SparkplugTranslator
import InfusedModbus.Client.SubscriptionState

/-! Commands. A command to a device is decoded into staged writes, metric by metric. A command
to the node asks for a rebirth, or for machines to be subscribed and unsubscribed; a rebirth
request is all that is looked at in its payload. -/

namespace InfusedModbus.Client

open Foundation Foundation.Outcome Protocol Datafs
open Sparkplug (MetricValue Metric Payload)

/-! ### Requests to the node -/

def rebirthMetricName : String := "Node Control/Rebirth"
def subscribeMetricName : String := "Node Control/Subscribe"
def unsubscribeMetricName : String := "Node Control/Unsubscribe"

def isRebirthRequest (payload : Payload) : Bool :=
  payload.metrics.any fun metric => metric.name == rebirthMetricName && metric.value.eq (.boolean true)

/-- A metric of the name whose value is no text is skipped. -/
def requestedMachineNames (payload : Payload) (metricName : String) : List String :=
  (payload.metrics.filter fun metric => metric.name == metricName).filterMap fun metric =>
    match metric.value with
    | .string machineName => some machineName
    | _ => none

def subscribeRequests (payload : Payload) : List String := requestedMachineNames payload subscribeMetricName
def unsubscribeRequests (payload : Payload) : List String := requestedMachineNames payload unsubscribeMetricName

/-! ### Commands to a device -/

/-- The name a metric of a command goes by: its alias if it has one, else its name. -/
def commandedName (machine : MachineDescription) (aliases : AliasAllocator) (metric : Metric) : Option String :=
  match metric.metricAlias with
  | some metricAlias =>
    match aliases.metricForAlias metricAlias with
    | some (owningMachine, metricName) => if owningMachine = machine.name then some metricName else none
    | none => none
  | none => if metric.name.isEmpty then none else some metric.name

/-- A metric that cannot be resolved or staged is skipped. -/
def decodeDcmdMetrics (machine : MachineDescription) (aliases : AliasAllocator) (payload : Payload) :
    Store String StagedValue :=
  payload.metrics.foldl (fun staged metric =>
    match commandedName machine aliases metric with
    | some metricName =>
      match metricValueToStagedValue machine metricName metric.value with
      | .ok stagedValue => staged.set metricName stagedValue
      | .error _ => staged
    | none => staged) .empty

/-! ### The handler of node commands -/

section Handler

variable (machines : List MachineDescription) (aliases : AliasAllocator) (accepts : ℕ → Bool) (now : UInt64)

/-- The tracker of a new ticker starts from the placeholders. -/
def handleSubscribe (machineName : String) (s : Session) : Outcome Empty Session :=
  if s.isActive machineName then .ok s
  else
    match machines.find? fun machine => machine.name == machineName with
    | none => .ok s
    | some machine =>
      match s.stores.get machineName with
      | none => .ok s
      | some _ => do
        let (polling, s) := s.spawn machine .polling
        let (_, tracker) ← ChangeTracker.new.changedMetrics (buildMachineMetricsNullPlaceholders machine aliases now)
        let (ddataTicker, s) := s.spawn machine (.ddataTicker tracker)
        pure (s.activate machineName ⟨polling, ddataTicker⟩)

def handleUnsubscribe (machineName : String) (s : Session) : Session :=
  if !machines.any fun machine => machine.name == machineName then s
  else
    match s.deactivate machineName with
    | (false, s) => s
    | (true, s) => (s.publish accepts (.ddeath machineName)).2

/-- The births of a rebirth, from the values the stores have. -/
def rebirthMachine (s : Session) (machine : MachineDescription) : Session :=
  match s.stores.get machine.name with
  | none => s
  | some stores => (s.publish accepts (.dbirth machine.name (buildMachineMetrics machine aliases now stores))).2

/-- One turn of `run_ncmd_handler`. -/
def handleNcmd (payload : Payload) (s : Session) : Outcome Empty Session :=
  if isRebirthRequest payload then
    match s.publish accepts .nbirth with
    | (false, s) => .ok s
    | (true, s) => .ok (machines.foldl (rebirthMachine aliases accepts now) s)
  else do
    let s ← (subscribeRequests payload).foldlM (fun s machineName => handleSubscribe machines aliases now machineName s) s
    pure ((unsubscribeRequests payload).foldl (fun s machineName => handleUnsubscribe machines accepts machineName s) s)

/-- A tick of a ticker that has not been aborted, up to what it publishes. -/
def tickMetrics (task : ℕ) (s : Session) : Outcome Empty (List Metric × Session) :=
  match s.tasks.get task with
  | some ⟨machine, .ddataTicker tracker, false⟩ =>
    match s.stores.get machine.name with
    | none => .ok ([], s)
    | some stores => do
      let (changed, tracker) ← tracker.changedMetrics (buildMachineMetrics machine aliases now stores)
      pure (changed, { s with tasks := s.tasks.set task ⟨machine, .ddataTicker tracker, false⟩ })
  | _ => .ok ([], s)

/-- The rest of it. -/
def publishDdata (task : ℕ) (changed : List Metric) (s : Session) : Session :=
  match s.tasks.get task with
  | some spawned => (s.publish accepts (.ddata spawned.machine.name changed)).2
  | none => s

/-- One turn of a ticker. -/
def tick (task : ℕ) (s : Session) : Outcome Empty Session := do
  let (changed, s) ← tickMetrics aliases now task s
  pure (publishDdata accepts task changed s)

end Handler

end InfusedModbus.Client
