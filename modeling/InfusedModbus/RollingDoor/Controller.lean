import InfusedModbus.Foundation.Execution
import InfusedModbus.Server.DataSocket
import InfusedModbus.Server.LocalInputs

/-! A rolling door on a server of its own. A control loop samples the emergency stop and
the light barrier, takes the open and close commands, drives the motor and shows where the
door is, point by point; a panel sets the two safety inputs, and masters send requests.
All three work on the same stores, so anything can happen between two accesses of the
control loop. -/

namespace InfusedModbus.RollingDoor

open Foundation Foundation.Outcome Protocol Datafs Server

def machineName : String := "RollingDoor"
def motorStepPercent : ℕ := 5

inductive DoorState where
  | idle
  | opening
  | closing
  deriving DecidableEq, Repr

/-- The one machine of the device description. -/
def rollingDoor : MachineDescription where
  name := machineName
  unitId := 1
  registers := []
  coils := [⟨"Open_Command", 1⟩, ⟨"Close_Command", 2⟩]
  discreteInputs := [⟨"Emergency_Stop", 1⟩, ⟨"Light_Barrier", 2⟩, ⟨"Motor_Running", 3⟩, ⟨"Fully_Open", 4⟩,
    ⟨"Fully_Closed", 5⟩]
  inputRegisters := [⟨"Door_Position", 1, .u8, none⟩]
  fileRecords := []
  memLayout := .abcd
  inputRegisterMemLayout := .abcd
  serverId := some "rolling-door-demo"

def serverOptions : ServerOptions where
  readCoils := true
  writeSingleCoil := true
  writeMultipleCoils := true
  readDiscreteInputs := true
  readInputRegisters := true
  readDeviceIdentification := true

/-- The server of the door, whatever the text of its description is. -/
def doorProcess (tomlSource : String) (fc43BulkTransfer : Fc43BulkTransfer) (floats : FloatParser) : ServerProcess where
  description := ⟨[rollingDoor], List.nodup_singleton _⟩
  serverOptions := serverOptions
  tomlSource := tomlSource
  fc43BulkTransfer := fc43BulkTransfer
  floats := floats

/-! ### The control loop -/

/-- Where a tick of the control loop is: at an access to the stores, with what it has read. -/
inductive Moment where
  | readEmergencyStop
  | readLightBarrier (emergencyStop : Bool)
  | readOpenCommand (lightBarrier : Bool)
  | clearOpenCommand (lightBarrier : Bool)
  | readCloseCommand (lightBarrier openRequested : Bool)
  | clearCloseCommand (lightBarrier openRequested : Bool)
  | showMotor
  | showOpen
  | showClosed
  | showPosition
  deriving DecidableEq, Repr

structure Controller where
  position : ℕ
  state : DoorState
  moment : Moment
  deriving DecidableEq, Repr

namespace Controller

def start : Controller := ⟨0, .idle, .readEmergencyStop⟩

/-- The motor raises the door by a step; the sum saturates at that of a byte. -/
def raise (controller : Controller) : Controller :=
  let position := min (min (controller.position + motorStepPercent) 255) 100
  ⟨position, if position = 100 then .idle else .opening, .showMotor⟩

def lower (controller : Controller) : Controller :=
  let position := controller.position - motorStepPercent
  ⟨position, if position = 0 then .idle else .closing, .showMotor⟩

/-- What the two safety inputs make of the state; an idle door looks for commands first. -/
def sampled (controller : Controller) (emergencyStop lightBarrier : Bool) : Controller :=
  if emergencyStop then ⟨controller.position, .idle, .showMotor⟩
  else
    match controller.state with
    | .idle => { controller with moment := .readOpenCommand lightBarrier }
    | .opening => controller.raise
    | .closing => if lightBarrier then ⟨controller.position, .opening, .showMotor⟩ else controller.lower

def commanded (controller : Controller) (openRequested closeRequested lightBarrier : Bool) : Controller :=
  let state : DoorState :=
    if openRequested && decide (controller.position < 100) then .opening
    else if closeRequested && decide (0 < controller.position) && !lightBarrier then .closing
    else controller.state
  ⟨controller.position, state, .showMotor⟩

/-- One access of the control loop. A point that is not there would be a panic. -/
def step (controller : Controller) (handle : ServerHandle) : Outcome Empty (ServerHandle × Controller) :=
  match controller.moment with
  | .readEmergencyStop => do
    let value ← unwrap (handle.getDiscreteInput machineName "Emergency_Stop")
    pure (handle, { controller with moment := .readLightBarrier value.value })
  | .readLightBarrier emergencyStop => do
    let value ← unwrap (handle.getDiscreteInput machineName "Light_Barrier")
    pure (handle, controller.sampled emergencyStop value.value)
  | .readOpenCommand lightBarrier => do
    let value ← unwrap (handle.getCoil machineName "Open_Command")
    pure (handle, { controller with
      moment := if value.value then .clearOpenCommand lightBarrier else .readCloseCommand lightBarrier false })
  | .clearOpenCommand lightBarrier => do
    let handle ← unwrap (handle.setCoil machineName "Open_Command" ⟨false⟩)
    pure (handle, { controller with moment := .readCloseCommand lightBarrier true })
  | .readCloseCommand lightBarrier openRequested => do
    let value ← unwrap (handle.getCoil machineName "Close_Command")
    pure (handle, if value.value then { controller with moment := .clearCloseCommand lightBarrier openRequested }
      else controller.commanded openRequested false lightBarrier)
  | .clearCloseCommand lightBarrier openRequested => do
    let handle ← unwrap (handle.setCoil machineName "Close_Command" ⟨false⟩)
    pure (handle, controller.commanded openRequested true lightBarrier)
  | .showMotor => do
    let handle ← unwrap (handle.setDiscreteInput machineName "Motor_Running" ⟨controller.state ≠ .idle⟩)
    pure (handle, { controller with moment := .showOpen })
  | .showOpen => do
    let handle ← unwrap (handle.setDiscreteInput machineName "Fully_Open" ⟨controller.position = 100⟩)
    pure (handle, { controller with moment := .showClosed })
  | .showClosed => do
    let handle ← unwrap (handle.setDiscreteInput machineName "Fully_Closed" ⟨controller.position = 0⟩)
    pure (handle, { controller with moment := .showPosition })
  | .showPosition => do
    let handle ← unwrap (handle.setInputRegister machineName "Door_Position" (.u8 (UInt8.ofNat controller.position)))
    pure (handle, { controller with moment := .readEmergencyStop })

end Controller

/-! ### The door among its masters -/

/-- The inputs of the panel. -/
inductive Switch where
  | emergencyStop
  | lightBarrier
  deriving DecidableEq, Repr

def Switch.name : Switch → String
  | .emergencyStop => "Emergency_Stop"
  | .lightBarrier => "Light_Barrier"

structure Door where
  handle : ServerHandle
  controller : Controller

inductive DoorAction where
  | request (unitId : UInt8) (pdu : Bytes)
  | panel (switch : Switch) (on : Bool)
  | control
  deriving DecidableEq, Repr

namespace Door

def start (process : ServerProcess) : Door := ⟨process.start, .start⟩

/-- Nothing comes of an access that panics. -/
def step (process : ServerProcess) (door : Door) : DoorAction → Option Door
  | .request unitId pdu => some { door with handle := (process.step door.handle (.request unitId pdu)).1 }
  | .panel switch on =>
    match door.handle.setDiscreteInput machineName switch.name ⟨on⟩ with
    | .ok handle => some { door with handle := handle }
    | _ => none
  | .control =>
    match door.controller.step door.handle with
    | .ok (handle, controller) => some ⟨handle, controller⟩
    | _ => none

end Door

/-! ### What is seen of the stores -/

/-- The discrete inputs and the position as a master reads them; no position before the
first tick is over. -/
structure Panel where
  input : String → Bool
  position : Option UInt8

def Panel.set (panel : Panel) (name : String) (value : Bool) : Panel :=
  { panel with input := Function.update panel.input name value }

@[simp] theorem Panel.input_set_self (panel : Panel) (name : String) (value : Bool) :
    (panel.set name value).input name = value := Function.update_self _ _ _

theorem Panel.input_set_of_ne (panel : Panel) {name name' : String} (value : Bool) (h : name' ≠ name) :
    (panel.set name value).input name' = panel.input name' := Function.update_of_ne h _ _

@[simp] theorem Panel.position_set (panel : Panel) (name : String) (value : Bool) :
    (panel.set name value).position = panel.position := rfl

/-- The panel of a machine. -/
def panelOf (machine : ServerMachineState) : Panel where
  input name := ((machine.discreteInputStore.get name).getD ⟨false⟩).value
  position :=
    match machine.inputRegisterStore.get "Door_Position" with
    | some (.u8 position) => some position
    | _ => none

/-- The stores hold the door under its name, and that is its panel. -/
def Shows (handle : ServerHandle) (panel : Panel) : Prop :=
  ∃ machine, Store.get handle machineName = some machine ∧ machine.unset = .fresh rollingDoor ∧ panelOf machine = panel

def inputNames : List String := rollingDoor.discreteInputs.map DiscreteInputDescription.name
def coilNames : List String := rollingDoor.coils.map CoilDescription.name

section Shows

variable {handle : ServerHandle} {panel : Panel}

theorem Shows.unique {panel' : Panel} (h : Shows handle panel) (h' : Shows handle panel') : panel = panel' := by
  obtain ⟨machine, hget, -, rfl⟩ := h
  obtain ⟨machine', hget', -, rfl⟩ := h'
  rw [Option.some.inj (hget.symm.trans hget')]

theorem shows_start (tomlSource : String) (fc43BulkTransfer : Fc43BulkTransfer) (floats : FloatParser) :
    Shows (doorProcess tomlSource fc43BulkTransfer floats).start ⟨fun _ => false, none⟩ :=
  ⟨.fresh rollingDoor, Store.get_set_self _ _ _, rfl, rfl⟩

theorem any_discreteInput {machine : ServerMachineState} (hunset : machine.unset = .fresh rollingDoor) {name : String}
    (hname : name ∈ inputNames) : machine.discreteInputs.any (fun entry => entry.name == name) = true := by
  rw [show machine.discreteInputs = rollingDoor.discreteInputs from
    (@configured_alike _ (.fresh rollingDoor) hunset).discreteInputs]
  obtain ⟨entry, hentry, rfl⟩ := List.mem_map.mp hname
  exact List.any_eq_true.mpr ⟨entry, hentry, beq_self_eq_true _⟩

theorem any_coil {machine : ServerMachineState} (hunset : machine.unset = .fresh rollingDoor) {name : String}
    (hname : name ∈ coilNames) : machine.coils.any (fun coil => coil.name == name) = true := by
  rw [show machine.coils = rollingDoor.coils from (@configured_alike _ (.fresh rollingDoor) hunset).coils]
  obtain ⟨coil, hcoil, rfl⟩ := List.mem_map.mp hname
  exact List.any_eq_true.mpr ⟨coil, hcoil, beq_self_eq_true _⟩

theorem Shows.getDiscreteInput (h : Shows handle panel) (name : String) (hname : name ∈ inputNames) :
    handle.getDiscreteInput machineName name = .ok ⟨panel.input name⟩ := by
  obtain ⟨machine, hget, hunset, rfl⟩ := h
  rw [ServerHandle.getDiscreteInput, ServerHandle.machine_eq_ok.mpr hget, ok_bind,
    if_pos (any_discreteInput hunset hname)]
  rfl

theorem Shows.getCoil (h : Shows handle panel) (name : String) (hname : name ∈ coilNames) :
    ∃ value, handle.getCoil machineName name = .ok value := by
  obtain ⟨machine, hget, hunset, rfl⟩ := h
  rw [ServerHandle.getCoil, ServerHandle.machine_eq_ok.mpr hget, ok_bind, if_pos (any_coil hunset hname)]
  exact ⟨_, rfl⟩

theorem Shows.setDiscreteInput (h : Shows handle panel) (name : String) (hname : name ∈ inputNames) (value : Bool) :
    ∃ handle', handle.setDiscreteInput machineName name ⟨value⟩ = .ok handle' ∧
      Shows handle' (panel.set name value) := by
  obtain ⟨machine, hget, hunset, rfl⟩ := h
  rw [ServerHandle.setDiscreteInput, ServerHandle.machine_eq_ok.mpr hget, ok_bind,
    if_pos (any_discreteInput hunset hname)]
  refine ⟨_, rfl, _, Store.get_set_self _ _ _, hunset, ?_⟩
  rw [panelOf, panelOf, Panel.set, Panel.mk.injEq]
  refine ⟨?_, rfl⟩
  funext name'
  by_cases hsame : name' = name
  · subst hsame
    rw [Function.update_self, Store.get_set_self]
    rfl
  · rw [Function.update_of_ne hsame, Store.get_set_of_ne _ _ hsame]

theorem Shows.setCoil (h : Shows handle panel) (name : String) (hname : name ∈ coilNames) (value : CoilValue) :
    ∃ handle', handle.setCoil machineName name value = .ok handle' ∧ Shows handle' panel := by
  obtain ⟨machine, hget, hunset, rfl⟩ := h
  rw [ServerHandle.setCoil, ServerHandle.machine_eq_ok.mpr hget, ok_bind, if_pos (any_coil hunset hname)]
  exact ⟨_, rfl, _, Store.get_set_self _ _ _, hunset, rfl⟩

theorem Shows.setPosition (h : Shows handle panel) (position : UInt8) :
    ∃ handle', handle.setInputRegister machineName "Door_Position" (.u8 position) = .ok handle' ∧
      Shows handle' { panel with position := some position } := by
  obtain ⟨machine, hget, hunset, rfl⟩ := h
  have hfind : machine.inputRegisters.find? (fun entry => entry.name == "Door_Position") =
      some ⟨"Door_Position", 1, .u8, none⟩ := by
    rw [show machine.inputRegisters = rollingDoor.inputRegisters from
      (@configured_alike _ (.fresh rollingDoor) hunset).inputRegisters]
    rfl
  rw [ServerHandle.setInputRegister, ServerHandle.machine_eq_ok.mpr hget, ok_bind, hfind]
  refine ⟨_, rfl, _, Store.get_set_self _ _ _, hunset, ?_⟩
  rw [panelOf, Store.get_set_self]
  rfl

/-- No request shows on the panel. -/
theorem Shows.request {process : ServerProcess} (h : Shows handle panel) (unitId : UInt8) (pdu : Bytes) :
    Shows (process.step handle (.request unitId pdu)).1 panel := by
  obtain ⟨machine, hget, hunset, rfl⟩ := h
  have hinputs := congrArg (fun store => Store.get store machineName)
    (@ServerProcess.inputsOf_request process handle unitId pdu)
  rw [get_inputsOf, get_inputsOf, hget, Option.map_some, Option.map_eq_some_iff] at hinputs
  obtain ⟨machine', hget', hsame⟩ := hinputs
  refine ⟨machine', hget', ?_, ?_⟩
  · have hconfigured : machine'.inputs.unset = machine.inputs.unset := by rw [hsame]
    exact hconfigured.trans hunset
  · have hpanel : panelOf machine'.inputs = panelOf machine.inputs := by rw [hsame]
    exact hpanel

end Shows

/-! ### The door as it moves -/

/-- One access of the control loop as the panel sees it. What it finds in a coil is up to
the masters. -/
inductive Moves : Panel → Controller → Panel → Controller → Prop where
  | readEmergencyStop (panel : Panel) (position : ℕ) (state : DoorState) :
      Moves panel ⟨position, state, .readEmergencyStop⟩ panel
        ⟨position, state, .readLightBarrier (panel.input "Emergency_Stop")⟩
  | readLightBarrier (panel : Panel) (position : ℕ) (state : DoorState) (emergencyStop : Bool) :
      Moves panel ⟨position, state, .readLightBarrier emergencyStop⟩ panel
        (Controller.sampled ⟨position, state, .readLightBarrier emergencyStop⟩ emergencyStop
          (panel.input "Light_Barrier"))
  | readOpenCommand (panel : Panel) (position : ℕ) (state : DoorState) (lightBarrier found : Bool) :
      Moves panel ⟨position, state, .readOpenCommand lightBarrier⟩ panel
        ⟨position, state, if found then .clearOpenCommand lightBarrier else .readCloseCommand lightBarrier false⟩
  | clearOpenCommand (panel : Panel) (position : ℕ) (state : DoorState) (lightBarrier : Bool) :
      Moves panel ⟨position, state, .clearOpenCommand lightBarrier⟩ panel
        ⟨position, state, .readCloseCommand lightBarrier true⟩
  | readCloseCommand (panel : Panel) (position : ℕ) (state : DoorState) (lightBarrier openRequested found : Bool) :
      Moves panel ⟨position, state, .readCloseCommand lightBarrier openRequested⟩ panel
        (if found then ⟨position, state, .clearCloseCommand lightBarrier openRequested⟩
        else Controller.commanded ⟨position, state, .readCloseCommand lightBarrier openRequested⟩ openRequested false
          lightBarrier)
  | clearCloseCommand (panel : Panel) (position : ℕ) (state : DoorState) (lightBarrier openRequested : Bool) :
      Moves panel ⟨position, state, .clearCloseCommand lightBarrier openRequested⟩ panel
        (Controller.commanded ⟨position, state, .clearCloseCommand lightBarrier openRequested⟩ openRequested true
          lightBarrier)
  | showMotor (panel : Panel) (position : ℕ) (state : DoorState) :
      Moves panel ⟨position, state, .showMotor⟩ (panel.set "Motor_Running" (decide (state ≠ .idle)))
        ⟨position, state, .showOpen⟩
  | showOpen (panel : Panel) (position : ℕ) (state : DoorState) :
      Moves panel ⟨position, state, .showOpen⟩ (panel.set "Fully_Open" (decide (position = 100)))
        ⟨position, state, .showClosed⟩
  | showClosed (panel : Panel) (position : ℕ) (state : DoorState) :
      Moves panel ⟨position, state, .showClosed⟩ (panel.set "Fully_Closed" (decide (position = 0)))
        ⟨position, state, .showPosition⟩
  | showPosition (panel : Panel) (position : ℕ) (state : DoorState) :
      Moves panel ⟨position, state, .showPosition⟩ { panel with position := some (UInt8.ofNat position) }
        ⟨position, state, .readEmergencyStop⟩

/-- The control loop never finds a point missing, and moves the door on. -/
theorem Controller.step_moves {handle : ServerHandle} {panel : Panel} (controller : Controller)
    (h : Shows handle panel) :
    ∃ handle' controller' panel', controller.step handle = .ok (handle', controller') ∧ Shows handle' panel' ∧
      Moves panel controller panel' controller' := by
  obtain ⟨position, state, moment⟩ := controller
  cases moment with
  | readEmergencyStop =>
    refine ⟨handle, _, panel, ?_, h, .readEmergencyStop panel position state⟩
    rw [step, h.getDiscreteInput "Emergency_Stop" (by decide)]
    rfl
  | readLightBarrier emergencyStop =>
    refine ⟨handle, _, panel, ?_, h, .readLightBarrier panel position state emergencyStop⟩
    rw [step, h.getDiscreteInput "Light_Barrier" (by decide)]
    rfl
  | readOpenCommand lightBarrier =>
    obtain ⟨value, hget⟩ := h.getCoil "Open_Command" (by decide)
    refine ⟨handle, _, panel, ?_, h, .readOpenCommand panel position state lightBarrier value.value⟩
    rw [step, hget]
    rfl
  | clearOpenCommand lightBarrier =>
    obtain ⟨handle', hset, hshows⟩ := h.setCoil "Open_Command" (by decide) ⟨false⟩
    refine ⟨handle', _, panel, ?_, hshows, .clearOpenCommand panel position state lightBarrier⟩
    rw [step, hset]
    rfl
  | readCloseCommand lightBarrier openRequested =>
    obtain ⟨value, hget⟩ := h.getCoil "Close_Command" (by decide)
    refine ⟨handle, _, panel, ?_, h, .readCloseCommand panel position state lightBarrier openRequested value.value⟩
    rw [step, hget]
    rfl
  | clearCloseCommand lightBarrier openRequested =>
    obtain ⟨handle', hset, hshows⟩ := h.setCoil "Close_Command" (by decide) ⟨false⟩
    refine ⟨handle', _, panel, ?_, hshows, .clearCloseCommand panel position state lightBarrier openRequested⟩
    rw [step, hset]
    rfl
  | showMotor =>
    obtain ⟨handle', hset, hshows⟩ := h.setDiscreteInput "Motor_Running" (by decide) (decide (state ≠ .idle))
    refine ⟨handle', _, _, ?_, hshows, .showMotor panel position state⟩
    rw [step, hset]
    rfl
  | showOpen =>
    obtain ⟨handle', hset, hshows⟩ := h.setDiscreteInput "Fully_Open" (by decide) (decide (position = 100))
    refine ⟨handle', _, _, ?_, hshows, .showOpen panel position state⟩
    rw [step, hset]
    rfl
  | showClosed =>
    obtain ⟨handle', hset, hshows⟩ := h.setDiscreteInput "Fully_Closed" (by decide) (decide (position = 0))
    refine ⟨handle', _, _, ?_, hshows, .showClosed panel position state⟩
    rw [step, hset]
    rfl
  | showPosition =>
    obtain ⟨handle', hset, hshows⟩ := h.setPosition (UInt8.ofNat position)
    refine ⟨handle', _, _, ?_, hshows, .showPosition panel position state⟩
    rw [step, hset]
    rfl

/-- What an action does to the panel and the control loop. -/
inductive Acts : Panel → Controller → DoorAction → Panel → Controller → Prop where
  | request (panel : Panel) (controller : Controller) (unitId : UInt8) (pdu : Bytes) :
      Acts panel controller (.request unitId pdu) panel controller
  | panel (panel : Panel) (controller : Controller) (switch : Switch) (on : Bool) :
      Acts panel controller (.panel switch on) (panel.set switch.name on) controller
  | control (panel panel' : Panel) (controller controller' : Controller)
      (h : Moves panel controller panel' controller') :
      Acts panel controller .control panel' controller'

/-- Every action is possible, and does that. -/
theorem Door.step_acts (process : ServerProcess) {door : Door} {panel : Panel} (h : Shows door.handle panel)
    (action : DoorAction) : ∃ door' panel', door.step process action = some door' ∧ Shows door'.handle panel' ∧
      Acts panel door.controller action panel' door'.controller := by
  cases action with
  | request unitId pdu => exact ⟨_, panel, rfl, h.request unitId pdu, .request panel door.controller unitId pdu⟩
  | panel switch on =>
    have hname : switch.name ∈ inputNames := by cases switch <;> decide
    obtain ⟨handle', hset, hshows⟩ := h.setDiscreteInput switch.name hname on
    refine ⟨{ door with handle := handle' }, _, ?_, hshows, .panel panel door.controller switch on⟩
    rw [step, hset]
  | control =>
    obtain ⟨handle', controller', panel', hstep, hshows, hmoves⟩ := door.controller.step_moves h
    refine ⟨⟨handle', controller'⟩, panel', ?_, hshows, .control panel panel' door.controller controller' hmoves⟩
    rw [step, hstep]

end InfusedModbus.RollingDoor
