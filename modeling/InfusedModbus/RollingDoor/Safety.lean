import InfusedModbus.RollingDoor.Controller

/-! What the rolling door never does, and what it does in time, whatever the masters send
and however their requests and the switches of the panel fall between the accesses of the
control loop. -/

namespace InfusedModbus.RollingDoor

open Foundation Protocol Datafs Server

/-! ### What a tick does -/

namespace Controller

/-- What comes of the two samples. -/
inductive Sampled (controller : Controller) : Bool → Bool → Controller → Prop where
  | stopped (lightBarrier : Bool) : Sampled controller true lightBarrier ⟨controller.position, .idle, .showMotor⟩
  | waiting (lightBarrier : Bool) (h : controller.state = .idle) :
      Sampled controller false lightBarrier ⟨controller.position, .idle, .readOpenCommand lightBarrier⟩
  | raised (lightBarrier : Bool) (h : controller.state = .opening) :
      Sampled controller false lightBarrier controller.raise
  | reversed (h : controller.state = .closing) :
      Sampled controller false true ⟨controller.position, .opening, .showMotor⟩
  | lowered (h : controller.state = .closing) : Sampled controller false false controller.lower

theorem sampled_cases (controller : Controller) (emergencyStop lightBarrier : Bool) :
    Sampled controller emergencyStop lightBarrier (controller.sampled emergencyStop lightBarrier) := by
  obtain ⟨position, state, moment⟩ := controller
  cases emergencyStop with
  | true => exact .stopped lightBarrier
  | false =>
    cases state with
    | idle => exact .waiting lightBarrier rfl
    | opening => exact .raised lightBarrier rfl
    | closing =>
      cases lightBarrier with
      | true => exact .reversed rfl
      | false => exact .lowered rfl

end Controller

/-- The motor has not been driven in this tick. -/
@[simp] def Moment.beforeMotor : Moment → Bool
  | .showMotor | .showOpen | .showClosed | .showPosition => false
  | _ => true

/-- A command is being looked for. -/
@[simp] def Moment.atCommands : Moment → Bool
  | .readOpenCommand _ | .clearOpenCommand _ | .readCloseCommand _ _ | .clearCloseCommand _ _ => true
  | _ => false

/-- The position that was shown last. -/
def Panel.shown (panel : Panel) : ℕ := (panel.position.getD 0).toNat

/-- Where the door is, as far as the motor input goes. -/
def ShowsMotor (panel : Panel) (controller : Controller) : Prop :=
  panel.input "Motor_Running" = decide (controller.state ≠ .idle)

def ShowsOpen (panel : Panel) (controller : Controller) : Prop :=
  panel.input "Fully_Open" = decide (controller.position = 100)

def ShowsClosed (panel : Panel) (controller : Controller) : Prop :=
  panel.input "Fully_Closed" = decide (controller.position = 0)

/-- How many of the inputs that show the door this tick has set; before it moves the door
they are those of the last tick. -/
@[simp] def Moment.shownInputs : Moment → ℕ
  | .showMotor => 0
  | .showOpen => 1
  | .showClosed => 2
  | _ => 3

theorem Moment.shownInputs_of_beforeMotor {moment : Moment} (h : moment.beforeMotor = true) :
    moment.shownInputs = 3 := by
  cases moment <;> first | rfl | exact absurd h (by decide)

/-- The first inputs, that many of them, tell where the door is now. -/
def Due (count : ℕ) (panel : Panel) (controller : Controller) : Prop :=
  count ≤ controller.moment.shownInputs ∧ (controller.moment.beforeMotor = true → panel.position ≠ none)

structure UpToDate (panel : Panel) (controller : Controller) : Prop where
  motor : Due 1 panel controller → ShowsMotor panel controller
  fullyOpen : Due 2 panel controller → ShowsOpen panel controller
  fullyClosed : Due 3 panel controller → ShowsClosed panel controller

/-- An input that the tick has yet to set tells of the position that was shown last. -/
structure Outdated (panel : Panel) (controller : Controller) : Prop where
  fullyOpen : controller.moment.beforeMotor = true ∨ controller.moment.shownInputs < 2 →
    panel.input "Fully_Open" = true → panel.shown = 100
  fullyClosed : controller.moment.beforeMotor = true ∨ controller.moment.shownInputs < 3 →
    panel.input "Fully_Closed" = true → panel.shown = 0

structure DoorInvariant (panel : Panel) (controller : Controller) : Prop where
  steps : motorStepPercent ∣ controller.position
  le : controller.position ≤ 100
  near : controller.position ≤ panel.shown + motorStepPercent ∧ panel.shown ≤ controller.position + motorStepPercent
  settled : controller.moment.beforeMotor = true → panel.shown = controller.position
  waiting : controller.moment.atCommands = true → controller.state = .idle
  upToDate : UpToDate panel controller
  outdated : Outdated panel controller

theorem doorInvariant_start : DoorInvariant ⟨fun _ => false, none⟩ .start where
  steps := ⟨0, rfl⟩
  le := Nat.zero_le _
  near := ⟨Nat.zero_le _, Nat.zero_le _⟩
  settled _ := rfl
  waiting h := absurd h (by simp [Controller.start])
  upToDate := ⟨fun h => absurd rfl (h.2 rfl), fun h => absurd rfl (h.2 rfl), fun h => absurd rfl (h.2 rfl)⟩
  outdated := ⟨fun _ h => absurd h (by simp), fun _ h => absurd h (by simp)⟩

section Preserved

variable {panel : Panel} {position : ℕ} {state : DoorState} {moment : Moment}

/-- The tick goes on before it moves the door. -/
theorem DoorInvariant.wait (h : DoorInvariant panel ⟨position, state, moment⟩) (hbefore : moment.beforeMotor = true)
    {moment' : Moment} (hbefore' : moment'.beforeMotor = true) (hwaiting : moment'.atCommands = true → state = .idle) :
    DoorInvariant panel ⟨position, state, moment'⟩ := by
  have hdue : ∀ count, Due count panel ⟨position, state, moment'⟩ → Due count panel ⟨position, state, moment⟩ := by
    rintro count ⟨hcount, hshown⟩
    exact ⟨(Moment.shownInputs_of_beforeMotor hbefore).ge.trans'
        (hcount.trans (Moment.shownInputs_of_beforeMotor hbefore').le),
      fun _ => hshown hbefore'⟩
  refine ⟨h.steps, h.le, h.near, fun _ => h.settled hbefore, hwaiting, ?_, ?_⟩
  · exact ⟨fun hcount => h.upToDate.motor (hdue 1 hcount), fun hcount => h.upToDate.fullyOpen (hdue 2 hcount),
      fun hcount => h.upToDate.fullyClosed (hdue 3 hcount)⟩
  · exact ⟨fun _ => h.outdated.fullyOpen (.inl hbefore), fun _ => h.outdated.fullyClosed (.inl hbefore)⟩

/-- The motor is driven, by a step at most. -/
theorem DoorInvariant.act (h : DoorInvariant panel ⟨position, state, moment⟩) (hbefore : moment.beforeMotor = true)
    {position' : ℕ} (state' : DoorState) (hsteps : motorStepPercent ∣ position') (hle : position' ≤ 100)
    (hnear : position' ≤ position + motorStepPercent ∧ position ≤ position' + motorStepPercent) :
    DoorInvariant panel ⟨position', state', .showMotor⟩ := by
  have hshown : panel.shown = position := h.settled hbefore
  refine ⟨hsteps, hle, hshown ▸ hnear, fun hnever => absurd hnever (by simp), fun hnever => absurd hnever (by simp),
    ?_, ?_⟩
  · exact ⟨fun hdue => absurd hdue.1 (by simp), fun hdue => absurd hdue.1 (by simp),
      fun hdue => absurd hdue.1 (by simp)⟩
  · exact ⟨fun _ => h.outdated.fullyOpen (.inl hbefore), fun _ => h.outdated.fullyClosed (.inl hbefore)⟩

/-- The position stays where it is. -/
theorem DoorInvariant.hold (h : DoorInvariant panel ⟨position, state, moment⟩) (hbefore : moment.beforeMotor = true)
    (state' : DoorState) : DoorInvariant panel ⟨position, state', .showMotor⟩ :=
  h.act hbefore state' h.steps h.le ⟨Nat.le_add_right _ _, Nat.le_add_right _ _⟩

theorem DoorInvariant.sampled (h : DoorInvariant panel ⟨position, state, moment⟩) (hbefore : moment.beforeMotor = true)
    (emergencyStop lightBarrier : Bool) :
    DoorInvariant panel (Controller.sampled ⟨position, state, moment⟩ emergencyStop lightBarrier) := by
  obtain ⟨n, hn⟩ := h.steps
  have hle := h.le
  dsimp only at hn hle
  have hcases := Controller.sampled_cases ⟨position, state, moment⟩ emergencyStop lightBarrier
  generalize Controller.sampled ⟨position, state, moment⟩ emergencyStop lightBarrier = controller' at hcases ⊢
  cases hcases with
  | stopped => exact h.hold hbefore .idle
  | waiting _ hidle =>
    obtain rfl : state = .idle := hidle
    exact h.wait hbefore rfl fun _ => rfl
  | raised =>
    refine h.act hbefore _ ?_ ?_ ?_
    all_goals
      simp only [motorStepPercent] at hn ⊢
      omega
  | reversed => exact h.hold hbefore .opening
  | lowered =>
    refine h.act hbefore _ ?_ ?_ ?_
    all_goals
      simp only [motorStepPercent] at hn ⊢
      omega

end Preserved

/-- No access of the control loop breaks the invariant. -/
theorem DoorInvariant.moves {panel panel' : Panel} {controller controller' : Controller}
    (h : DoorInvariant panel controller)
    (hmoves : Moves panel controller panel' controller') : DoorInvariant panel' controller' := by
  cases hmoves with
  | readEmergencyStop position state => exact h.wait rfl rfl fun hnever => absurd hnever (by simp)
  | readLightBarrier position state emergencyStop => exact h.sampled rfl emergencyStop _
  | readOpenCommand position state lightBarrier found =>
    cases found with
    | false => exact h.wait rfl rfl fun _ => h.waiting rfl
    | true => exact h.wait rfl rfl fun _ => h.waiting rfl
  | clearOpenCommand position state lightBarrier => exact h.wait rfl rfl fun _ => h.waiting rfl
  | readCloseCommand position state lightBarrier openRequested found =>
    cases found with
    | false =>
      exact h.hold rfl _
    | true => exact h.wait rfl rfl fun _ => h.waiting rfl
  | clearCloseCommand position state lightBarrier openRequested => exact h.hold rfl _
  | showMotor position state =>
    refine ⟨h.steps, h.le, h.near, fun hnever => absurd hnever (by simp), fun hnever => absurd hnever (by simp), ?_, ?_⟩
    · exact ⟨fun _ => panel.input_set_self _ _, fun hdue => absurd hdue.1 (by simp),
        fun hdue => absurd hdue.1 (by simp)⟩
    · refine ⟨fun _ hopen => h.outdated.fullyOpen (.inr (by simp)) ?_,
        fun _ hclosed => h.outdated.fullyClosed (.inr (by simp)) ?_⟩
      · rwa [panel.input_set_of_ne _ (by decide)] at hopen
      · rwa [panel.input_set_of_ne _ (by decide)] at hclosed
  | showOpen position state =>
    refine ⟨h.steps, h.le, h.near, fun hnever => absurd hnever (by simp), fun hnever => absurd hnever (by simp), ?_, ?_⟩
    · refine ⟨fun _ => ?_, fun _ => panel.input_set_self _ _, fun hdue => absurd hdue.1 (by simp)⟩
      exact (panel.input_set_of_ne _ (by decide)).trans
        (h.upToDate.motor ⟨le_rfl, fun hnever => absurd hnever (by simp)⟩)
    · refine ⟨fun hnever => absurd hnever (by simp), fun _ hclosed => h.outdated.fullyClosed (.inr (by simp)) ?_⟩
      rwa [panel.input_set_of_ne _ (by decide)] at hclosed
  | showClosed position state =>
    refine ⟨h.steps, h.le, h.near, fun hnever => absurd hnever (by simp), fun hnever => absurd hnever (by simp), ?_, ?_⟩
    · refine ⟨fun _ => ?_, fun _ => ?_, fun _ => panel.input_set_self _ _⟩
      · exact (panel.input_set_of_ne _ (by decide)).trans
          (h.upToDate.motor ⟨by simp, fun hnever => absurd hnever (by simp)⟩)
      · exact (panel.input_set_of_ne _ (by decide)).trans
          (h.upToDate.fullyOpen ⟨le_rfl, fun hnever => absurd hnever (by simp)⟩)
    · exact ⟨fun hnever => absurd hnever (by simp), fun hnever => absurd hnever (by simp)⟩
  | showPosition position state =>
    have hshown : ({ panel with position := some (UInt8.ofNat position) } : Panel).shown = position := by
      have hle := h.le
      dsimp only at hle
      rw [Panel.shown, Option.getD_some, UInt8.toNat_ofNat_of_lt']
      simp only [UInt8.size]
      omega
    have hdue : ∀ count ≤ 3, Due count panel ⟨position, state, .showPosition⟩ := fun count hcount =>
      ⟨hcount, fun hnever => absurd hnever (by simp)⟩
    refine ⟨h.steps, h.le, ?_, fun _ => hshown, fun hnever => absurd hnever (by simp), ?_, ?_⟩
    · rw [hshown]
      exact ⟨Nat.le_add_right _ _, Nat.le_add_right _ _⟩
    · exact ⟨fun _ => h.upToDate.motor (hdue 1 (by omega)), fun _ => h.upToDate.fullyOpen (hdue 2 (by omega)),
        fun _ => h.upToDate.fullyClosed (hdue 3 le_rfl)⟩
    · refine ⟨fun _ hopen => ?_, fun _ hclosed => ?_⟩
      · rw [hshown]
        exact of_decide_eq_true ((h.upToDate.fullyOpen (hdue 2 (by omega))).symm.trans hopen)
      · rw [hshown]
        exact of_decide_eq_true ((h.upToDate.fullyClosed (hdue 3 le_rfl)).symm.trans hclosed)

/-- The switches of the panel show nothing of the door. -/
theorem DoorInvariant.panel {panel : Panel} {controller : Controller} (h : DoorInvariant panel controller)
    (switch : Switch)
    (on : Bool) : DoorInvariant (panel.set switch.name on) controller := by
  have hmotor : (panel.set switch.name on).input "Motor_Running" = panel.input "Motor_Running" :=
    panel.input_set_of_ne on (by cases switch <;> decide)
  have hopen : (panel.set switch.name on).input "Fully_Open" = panel.input "Fully_Open" :=
    panel.input_set_of_ne on (by cases switch <;> decide)
  have hclosed : (panel.set switch.name on).input "Fully_Closed" = panel.input "Fully_Closed" :=
    panel.input_set_of_ne on (by cases switch <;> decide)
  refine ⟨h.steps, h.le, h.near, h.settled, h.waiting, ?_, ?_⟩
  · exact ⟨fun hdue => hmotor.trans (h.upToDate.motor hdue), fun hdue => hopen.trans (h.upToDate.fullyOpen hdue),
      fun hdue => hclosed.trans (h.upToDate.fullyClosed hdue)⟩
  · exact ⟨fun hold hset => h.outdated.fullyOpen hold (hopen.symm.trans hset),
      fun hold hset => h.outdated.fullyClosed hold (hclosed.symm.trans hset)⟩

theorem DoorInvariant.acts {panel panel' : Panel} {controller controller' : Controller} {action : DoorAction}
    (h : DoorInvariant panel controller) (hacts : Acts panel controller action panel' controller') :
    DoorInvariant panel' controller' := by
  cases hacts with
  | request unitId pdu => exact h
  | panel _ switch on => exact h.panel switch on
  | control _ _ _ hmoves => exact h.moves hmoves

/-! ### Runs -/

/-- What the stores show and where the control loop is. -/
def Door.Is (inv : Panel → Controller → Prop) (door : Door) : Prop :=
  ∃ panel, Shows door.handle panel ∧ inv panel door.controller

/-- Every run of good actions is possible and keeps what each of them keeps. -/
theorem run_of_acts {process : ServerProcess} {inv : Panel → Controller → Prop} {good : DoorAction → Prop}
    (hacts : ∀ panel controller action panel' controller', inv panel controller → good action →
      Acts panel controller action panel' controller' → inv panel' controller')
    {door : Door} (h : door.Is inv) {actions : List DoorAction} (hgood : ∀ action ∈ actions, good action) :
    ∃ door', execute (Door.step process) door actions = some door' ∧ door'.Is inv := by
  induction actions generalizing door with
  | nil => exact ⟨door, rfl, h⟩
  | cons action actions ih =>
    obtain ⟨haction, hactions⟩ := List.forall_mem_cons.mp hgood
    obtain ⟨panel, hshows, hinv⟩ := h
    obtain ⟨between, panel', hstep, hshows', hact⟩ := Door.step_acts process hshows action
    obtain ⟨door', hrun, his⟩ := ih ⟨panel', hshows', hacts _ _ _ _ _ hinv haction hact⟩ hactions
    exact ⟨door', execute_cons_eq_some.mpr ⟨between, hstep, hrun⟩, his⟩

/-- Whoever reads the door reads a door that is not open and closed at once, and at most one
step of the motor behind. Between two ticks, once there was one, everything is exact. -/
structure DoorShown (panel : Panel) (controller : Controller) : Prop where
  steps : motorStepPercent ∣ controller.position
  le : controller.position ≤ 100
  near : controller.position ≤ panel.shown + motorStepPercent ∧ panel.shown ≤ controller.position + motorStepPercent
  notBoth : ¬(panel.input "Fully_Open" = true ∧ panel.input "Fully_Closed" = true)
  exact : controller.moment = .readEmergencyStop → panel.position ≠ none → panel.shown = controller.position ∧
    ShowsMotor panel controller ∧ ShowsOpen panel controller ∧ ShowsClosed panel controller

theorem DoorInvariant.shown {panel : Panel} {controller : Controller} (h : DoorInvariant panel controller) :
    DoorShown panel controller where
  steps := h.steps
  le := h.le
  near := h.near
  notBoth := by
    rintro ⟨hopen, hclosed⟩
    have hnear := h.near
    simp only [motorStepPercent] at hnear
    by_cases hold : controller.moment.beforeMotor = true ∨ controller.moment.shownInputs < 2
    · have h100 := h.outdated.fullyOpen hold hopen
      have h0 := h.outdated.fullyClosed (hold.imp id fun hlt => hlt.trans (by omega)) hclosed
      omega
    · obtain ⟨hbefore, hcount⟩ := not_or.mp hold
      have h100 : controller.position = 100 :=
        of_decide_eq_true ((h.upToDate.fullyOpen ⟨by omega, fun hnever => absurd hnever hbefore⟩).symm.trans hopen)
      by_cases hthree : controller.moment.shownInputs < 3
      · have h0 := h.outdated.fullyClosed (.inr hthree) hclosed
        omega
      · have h0 : controller.position = 0 :=
          of_decide_eq_true
            ((h.upToDate.fullyClosed ⟨by omega, fun hnever => absurd hnever hbefore⟩).symm.trans hclosed)
        omega
  exact hmoment hposition := by
    have hdue : ∀ count ≤ 3, Due count panel controller := by
      intro count hcount
      rw [Due, hmoment]
      exact ⟨hcount, fun _ => hposition⟩
    exact ⟨h.settled (by rw [hmoment]; rfl), h.upToDate.motor (hdue 1 (by omega)),
      h.upToDate.fullyOpen (hdue 2 (by omega)),
      h.upToDate.fullyClosed (hdue 3 le_rfl)⟩

section Runs

variable (tomlSource : String) (fc43BulkTransfer : Fc43BulkTransfer) (floats : FloatParser)

theorem start_is : (Door.start (doorProcess tomlSource fc43BulkTransfer floats)).Is DoorInvariant :=
  ⟨_, shows_start tomlSource fc43BulkTransfer floats, doorInvariant_start⟩

/-- The door that some actions lead to. -/
def Reached (process : ServerProcess) (door : Door) : Prop :=
  ∃ actions, execute (Door.step process) (Door.start process) actions = some door

variable {tomlSource fc43BulkTransfer floats} in
theorem Reached.is {door : Door} (h : Reached (doorProcess tomlSource fc43BulkTransfer floats) door) :
    door.Is DoorInvariant := by
  obtain ⟨actions, hrun⟩ := h
  obtain ⟨door', hrun', his⟩ :=
    @run_of_acts (doorProcess tomlSource fc43BulkTransfer floats) DoorInvariant (fun _ => True)
      (fun _ _ _ _ _ hinv _ hacts => hinv.acts hacts) _ (start_is tomlSource fc43BulkTransfer floats) actions
      fun _ _ => trivial
  obtain rfl := Option.some.inj (hrun.symm.trans hrun')
  exact his

/-- No sequence of requests, switches and accesses of the control loop makes that panic, or
leads the door anywhere but to a multiple of a motor step between closed and open, or shows
it wrongly. -/
theorem door_shown_rightly (actions : List DoorAction) :
    ∃ door, execute (Door.step (doorProcess tomlSource fc43BulkTransfer floats))
        (Door.start (doorProcess tomlSource fc43BulkTransfer floats)) actions = some door ∧ door.Is DoorShown := by
  obtain ⟨door, hrun, panel, hshows, hinv⟩ :=
    @run_of_acts (doorProcess tomlSource fc43BulkTransfer floats) DoorInvariant (fun _ => True)
      (fun _ _ _ _ _ hinv _ hacts => hinv.acts hacts) _ (start_is tomlSource fc43BulkTransfer floats) actions
      fun _ _ => trivial
  exact ⟨door, hrun, panel, hshows, hinv.shown⟩

end Runs

end InfusedModbus.RollingDoor
