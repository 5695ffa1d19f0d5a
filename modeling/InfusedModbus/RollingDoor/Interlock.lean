import InfusedModbus.RollingDoor.Safety

/-! The interlocks of the rolling door. While the emergency stop is pressed the door comes
to rest within a tick and stays there; while something is in the light barrier the door
never goes down, and one that was on its way goes up until it is open. -/

namespace InfusedModbus.RollingDoor

open Foundation Protocol Datafs Server

/-! ### Progress -/

section Progress

variable {process : ServerProcess} {goal inv : Panel → Controller → Prop} {good : DoorAction → Prop}
  {rank : Controller → ℕ}

/-- Where the control loop comes closer to its goal with every access, and nothing else takes
it away, it gets there. -/
theorem reaches_of_rank
    (hacts : ∀ panel controller action panel' controller', inv panel controller → good action →
      Acts panel controller action panel' controller' → goal panel' controller' ∨
        inv panel' controller' ∧ rank controller' + (if action = .control then 1 else 0) ≤ rank controller)
    {door : Door} (h : door.Is inv) {actions : List DoorAction} (hgood : ∀ action ∈ actions, good action)
    (hmany : rank door.controller < actions.count .control) :
    ∃ earlier later, actions = earlier ++ later ∧
      ∃ door', execute (Door.step process) door earlier = some door' ∧ door'.Is goal := by
  induction actions generalizing door with
  | nil => exact absurd hmany (Nat.not_lt_zero _)
  | cons action actions ih =>
    obtain ⟨haction, hactions⟩ := List.forall_mem_cons.mp hgood
    obtain ⟨panel, hshows, hinv⟩ := h
    obtain ⟨between, panel', hstep, hshows', hact⟩ := Door.step_acts process hshows action
    rcases hacts _ _ _ _ _ hinv haction hact with hgoal | ⟨hinv', hrank⟩
    · exact ⟨[action], actions, rfl, between, execute_cons_eq_some.mpr ⟨between, hstep, rfl⟩, panel', hshows', hgoal⟩
    · have hcount : rank between.controller < actions.count .control := by
        by_cases hcontrol : action = .control
        · rw [hcontrol, List.count_cons_self] at hmany
          rw [if_pos hcontrol] at hrank
          omega
        · rw [List.count_cons_of_ne hcontrol] at hmany
          omega
      obtain ⟨earlier, later, rfl, door', hrun, hgoal⟩ := ih ⟨panel', hshows', hinv'⟩ hactions hcount
      exact ⟨action :: earlier, later, rfl, door', execute_cons_eq_some.mpr ⟨between, hstep, hrun⟩, hgoal⟩

end Progress

/-! ### The emergency stop -/

/-- The motor is off and shown to be off, and no sample from before the stop is left. -/
structure Halted (position : ℕ) (panel : Panel) (controller : Controller) : Prop where
  pressed : panel.input "Emergency_Stop" = true
  position_eq : controller.position = position
  idle : controller.state = .idle
  motor : panel.input "Motor_Running" = false
  moment : controller.moment.atCommands = false ∧ controller.moment ≠ .readLightBarrier false

/-- How many accesses it takes at most until the stop is seen and the motor shown to be off. -/
@[simp] def stopRank (controller : Controller) : ℕ :=
  match controller.moment with
  | .showMotor => if controller.state = .idle then 0 else 7
  | .readLightBarrier true => 1
  | .readEmergencyStop => 2
  | .showPosition => 3
  | .showClosed => 4
  | .showOpen => 5
  | .clearCloseCommand _ _ => 8
  | .readCloseCommand _ _ => 9
  | .clearOpenCommand _ => 10
  | .readOpenCommand _ => 11
  | .readLightBarrier false => 12

/-- The stop is pressed, and since then the door has moved at most once. -/
structure Stopping (position : ℕ) (panel : Panel) (controller : Controller) : Prop where
  inv : DoorInvariant panel controller
  pressed : panel.input "Emergency_Stop" = true
  near : controller.position ≤ position + motorStepPercent ∧ position ≤ controller.position + motorStepPercent
  unmoved : controller.moment = .readLightBarrier false → controller.position = position

/-- Nobody releases the emergency stop. -/
def KeepsStop (action : DoorAction) : Prop := action ≠ .panel .emergencyStop false

theorem Halted.acts {position : ℕ} {panel panel' : Panel} {controller controller' : Controller} {action : DoorAction}
    (h : Halted position panel controller) (hgood : KeepsStop action)
    (hacts : Acts panel controller action panel' controller') : Halted position panel' controller' := by
  obtain ⟨hpressed, hposition, hidle, hmotor, hcommands, hsample⟩ := h
  cases hacts with
  | request unitId pdu => exact ⟨hpressed, hposition, hidle, hmotor, hcommands, hsample⟩
  | panel _ switch on =>
    refine ⟨?_, hposition, hidle, ?_, hcommands, hsample⟩
    · cases switch with
      | emergencyStop =>
        cases on with
        | true => exact panel.input_set_self _ _
        | false => exact absurd rfl hgood
      | lightBarrier => exact (panel.input_set_of_ne _ (by decide)).trans hpressed
    · exact (panel.input_set_of_ne _ (by cases switch <;> decide)).trans hmotor
  | control _ _ _ hmoves =>
    cases hmoves with
    | readEmergencyStop _ state =>
      refine ⟨hpressed, hposition, hidle, hmotor, rfl, ?_⟩
      rw [hpressed]
      simp
    | readLightBarrier _ state emergencyStop =>
      cases emergencyStop with
      | false => exact absurd rfl hsample
      | true => exact ⟨hpressed, hposition, rfl, hmotor, rfl, by simp [Controller.sampled]⟩
    | readOpenCommand => simp at hcommands
    | clearOpenCommand => simp at hcommands
    | readCloseCommand => simp at hcommands
    | clearCloseCommand => simp at hcommands
    | showMotor _ state =>
      obtain rfl : state = .idle := hidle
      exact ⟨(panel.input_set_of_ne _ (by decide)).trans hpressed, hposition, rfl, panel.input_set_self _ _, rfl,
        by simp⟩
    | showOpen _ state =>
      exact ⟨(panel.input_set_of_ne _ (by decide)).trans hpressed, hposition, hidle,
        (panel.input_set_of_ne _ (by decide)).trans hmotor, rfl, by simp⟩
    | showClosed _ state =>
      exact ⟨(panel.input_set_of_ne _ (by decide)).trans hpressed, hposition, hidle,
        (panel.input_set_of_ne _ (by decide)).trans hmotor, rfl, by simp⟩
    | showPosition _ state => exact ⟨hpressed, hposition, hidle, hmotor, rfl, by simp⟩

/-- At rest, a step of the motor from there at most. -/
def HaltedNear (position : ℕ) (panel : Panel) (controller : Controller) : Prop :=
  Halted controller.position panel controller ∧ controller.position ≤ position + motorStepPercent ∧
    position ≤ controller.position + motorStepPercent

/-- The last sample from before the stop moves the door by a step at most. -/
theorem sampled_near {panel : Panel} {position : ℕ} {state : DoorState} {moment : Moment}
    (h : DoorInvariant panel ⟨position, state, moment⟩) (emergencyStop lightBarrier : Bool) :
    (Controller.sampled ⟨position, state, moment⟩ emergencyStop lightBarrier).position ≤ position + motorStepPercent ∧
      position ≤
        (Controller.sampled ⟨position, state, moment⟩ emergencyStop lightBarrier).position + motorStepPercent := by
  have hle := h.le
  have hcases := Controller.sampled_cases ⟨position, state, moment⟩ emergencyStop lightBarrier
  generalize Controller.sampled ⟨position, state, moment⟩ emergencyStop lightBarrier = controller' at hcases ⊢
  dsimp only at hle
  cases hcases with
  | raised =>
    simp only [Controller.raise, motorStepPercent]
    omega
  | lowered =>
    simp only [Controller.lower, motorStepPercent]
    omega
  | _ => exact ⟨Nat.le_add_right _ _, Nat.le_add_right _ _⟩

theorem stopRank_showMotor_le (position : ℕ) (state : DoorState) : stopRank ⟨position, state, .showMotor⟩ ≤ 7 := by
  simp only [stopRank]
  split
  · exact Nat.zero_le _
  · exact le_rfl

/-- Behind its sample the tick does not sample again. -/
theorem stopRank_sampled (position : ℕ) (state : DoorState) (moment : Moment) (lightBarrier : Bool) :
    stopRank (Controller.sampled ⟨position, state, moment⟩ false lightBarrier) < 12 ∧
      (Controller.sampled ⟨position, state, moment⟩ false lightBarrier).moment ≠ .readLightBarrier false := by
  have hcases := Controller.sampled_cases ⟨position, state, moment⟩ false lightBarrier
  generalize Controller.sampled ⟨position, state, moment⟩ false lightBarrier = controller' at hcases ⊢
  cases hcases with
  | waiting => exact ⟨by simp, by simp⟩
  | raised => exact ⟨(stopRank_showMotor_le _ _).trans_lt (by omega), by simp [Controller.raise]⟩
  | reversed => exact ⟨by simp, by simp⟩
  | lowered => exact ⟨(stopRank_showMotor_le _ _).trans_lt (by omega), by simp [Controller.lower]⟩

theorem Stopping.acts {position : ℕ} {panel panel' : Panel} {controller controller' : Controller} {action : DoorAction}
    (h : Stopping position panel controller) (hgood : KeepsStop action)
    (hacts : Acts panel controller action panel' controller') : HaltedNear position panel' controller' ∨
      Stopping position panel' controller' ∧
        stopRank controller' + (if action = .control then 1 else 0) ≤ stopRank controller := by
  have hinv := h.inv.acts hacts
  obtain ⟨hbefore, hpressed, hnear, hunmoved⟩ := h
  cases hacts with
  | request unitId pdu => exact .inr ⟨⟨hinv, hpressed, hnear, hunmoved⟩, by simp⟩
  | panel _ switch on =>
    refine .inr ⟨⟨hinv, ?_, hnear, hunmoved⟩, by simp⟩
    cases switch with
    | emergencyStop =>
      cases on with
      | true => exact panel.input_set_self _ _
      | false => exact absurd rfl hgood
    | lightBarrier => exact (panel.input_set_of_ne _ (by decide)).trans hpressed
  | control _ _ _ hmoves =>
    rw [if_pos rfl]
    cases hmoves with
    | readEmergencyStop _ state =>
      refine .inr ⟨⟨hinv, hpressed, hnear, ?_⟩, ?_⟩
      · rw [hpressed]
        simp
      · rw [hpressed]
        simp
    | readLightBarrier _ state emergencyStop =>
      cases emergencyStop with
      | true =>
        refine .inr ⟨⟨hinv, hpressed, hnear, ?_⟩, ?_⟩
        · simp [Controller.sampled]
        · simp [Controller.sampled]
      | false =>
        obtain ⟨hrank, hmoment⟩ := stopRank_sampled _ state (.readLightBarrier false) (panel.input "Light_Barrier")
        refine .inr ⟨⟨hinv, hpressed, ?_, fun hnever => absurd hnever hmoment⟩, hrank⟩
        rw [← hunmoved rfl]
        exact sampled_near hbefore false _
    | readOpenCommand _ state lightBarrier found =>
      cases found with
      | false => exact .inr ⟨⟨hinv, hpressed, hnear, by simp⟩, by simp⟩
      | true => exact .inr ⟨⟨hinv, hpressed, hnear, by simp⟩, by simp⟩
    | clearOpenCommand _ state lightBarrier => exact .inr ⟨⟨hinv, hpressed, hnear, by simp⟩, by simp⟩
    | readCloseCommand _ state lightBarrier openRequested found =>
      cases found with
      | false =>
        refine .inr ⟨⟨hinv, hpressed, hnear, by simp [Controller.commanded]⟩, ?_⟩
        exact (Nat.succ_le_succ (stopRank_showMotor_le _ _)).trans (by simp)
      | true => exact .inr ⟨⟨hinv, hpressed, hnear, by simp⟩, by simp⟩
    | clearCloseCommand _ state lightBarrier openRequested =>
      refine .inr ⟨⟨hinv, hpressed, hnear, by simp [Controller.commanded]⟩, ?_⟩
      exact Nat.succ_le_succ (stopRank_showMotor_le _ _)
    | showMotor _ state =>
      by_cases hidle : state = .idle
      · refine .inl ⟨⟨(panel.input_set_of_ne _ (by decide)).trans hpressed, rfl, hidle, ?_, rfl, by simp⟩, hnear⟩
        rw [panel.input_set_self, hidle]
        rfl
      · refine .inr ⟨⟨hinv, (panel.input_set_of_ne _ (by decide)).trans hpressed, hnear, by simp⟩, ?_⟩
        simp only [stopRank]
        rw [if_neg hidle]
        omega
    | showOpen _ state =>
      exact .inr ⟨⟨hinv, (panel.input_set_of_ne _ (by decide)).trans hpressed, hnear, by simp⟩, by simp⟩
    | showClosed _ state =>
      exact .inr ⟨⟨hinv, (panel.input_set_of_ne _ (by decide)).trans hpressed, hnear, by simp⟩, by simp⟩
    | showPosition _ state => exact .inr ⟨⟨hinv, hpressed, hnear, by simp⟩, by simp⟩

theorem stopRank_le (controller : Controller) : stopRank controller ≤ 12 := by
  obtain ⟨position, state, moment⟩ := controller
  unfold stopRank
  dsimp only
  split <;> first | omega | (split <;> omega)

theorem HaltedNear.acts {position : ℕ} {panel panel' : Panel} {controller controller' : Controller}
    {action : DoorAction}
    (h : HaltedNear position panel controller) (hgood : KeepsStop action)
    (hacts : Acts panel controller action panel' controller') : HaltedNear position panel' controller' := by
  obtain ⟨hhalted, hnear⟩ := h
  have hhalted' := hhalted.acts hgood hacts
  rw [HaltedNear, hhalted'.position_eq]
  exact ⟨hhalted', hnear⟩

section EmergencyStop

variable {tomlSource : String} {fc43BulkTransfer : Fc43BulkTransfer} {floats : FloatParser}

/-- While the emergency stop is pressed, thirteen accesses of the control loop are enough for
the door to come to rest, a step of the motor away at most; it is shown to be at rest and
stays there whatever commands arrive. -/
theorem emergency_stop_halts {door : Door} (hreached : Reached (doorProcess tomlSource fc43BulkTransfer floats) door)
    (hpressed : door.Is fun panel _ => panel.input "Emergency_Stop" = true) {actions : List DoorAction}
    (hkeeps : ∀ action ∈ actions, KeepsStop action) (hmany : 13 ≤ actions.count .control) :
    ∃ halted, execute (Door.step (doorProcess tomlSource fc43BulkTransfer floats)) door actions = some halted ∧
      halted.Is (HaltedNear door.controller.position) ∧ ∀ more : List DoorAction, (∀ action ∈ more, KeepsStop action) →
        ∃ later, execute (Door.step (doorProcess tomlSource fc43BulkTransfer floats)) halted more = some later ∧
          later.Is (Halted halted.controller.position) := by
  obtain ⟨panel, hshows, hinv⟩ := hreached.is
  obtain ⟨panel', hshows', hset⟩ := hpressed
  obtain rfl : panel = panel' := hshows.unique hshows'
  have hstopping : door.Is (Stopping door.controller.position) :=
    ⟨panel, hshows, hinv, hset, ⟨Nat.le_add_right _ _, Nat.le_add_right _ _⟩, fun _ => rfl⟩
  have hrank : stopRank door.controller < actions.count .control := lt_of_le_of_lt (stopRank_le _) (by omega)
  obtain ⟨earlier, later, rfl, between, hearlier, hhalted⟩ := @reaches_of_rank
    (doorProcess tomlSource fc43BulkTransfer floats) _ _ KeepsStop stopRank
    (fun _ _ _ _ _ hinv hgood hacts => hinv.acts hgood hacts) door hstopping _ hkeeps hrank
  obtain ⟨halted, hlater, his⟩ := @run_of_acts (doorProcess tomlSource fc43BulkTransfer floats) _ KeepsStop
    (fun _ _ _ _ _ hinv hgood hacts => hinv.acts hgood hacts) between hhalted later
    fun action haction => hkeeps action (List.mem_append_right _ haction)
  refine ⟨halted, execute_append.mpr ⟨between, hearlier, hlater⟩, his, fun more hmore => ?_⟩
  obtain ⟨panel', hshows', hhalted', -⟩ := his
  exact run_of_acts (fun _ _ _ _ _ hinv hgood hacts => hinv.acts hgood hacts) ⟨panel', hshows', hhalted'⟩ hmore

end EmergencyStop

/-- The door with nothing else to its server. -/
def bareProcess : ServerProcess := doorProcess "" ⟨[], ""⟩ ⟨fun _ => none, fun _ => none⟩

/-- A master commands the door to open, and the control loop takes the command. -/
def openCommanded : List DoorAction := .request 1 [5, 0, 1, 0xFF, 0] :: List.replicate 5 .control

theorem emergency_stop_halts_opening : ∃ door halted,
    execute (Door.step bareProcess) (Door.start bareProcess)
        (openCommanded ++ [.panel .emergencyStop true]) = some door ∧
      door.controller.state = .opening ∧
      execute (Door.step bareProcess) door (List.replicate 13 .control) = some halted ∧ halted.Is (HaltedNear 0) := by
  have hrun : ∃ door,
      execute (Door.step bareProcess) (Door.start bareProcess)
        (openCommanded ++ [.panel .emergencyStop true]) = some door ∧
        door.controller = ⟨0, .opening, .showMotor⟩ ∧ door.Is fun panel _ => panel.input "Emergency_Stop" = true :=
    ⟨_, rfl, rfl, _, ⟨_, rfl, rfl, rfl⟩, rfl⟩
  obtain ⟨door, hrun, hcontroller, hpressed⟩ := hrun
  obtain ⟨halted, hhalted, his, -⟩ :=
    @emergency_stop_halts "" ⟨[], ""⟩ ⟨fun _ => none, fun _ => none⟩ door ⟨_, hrun⟩ hpressed
      (List.replicate 13 .control) (fun action haction => by rw [List.eq_of_mem_replicate haction]; simp [KeepsStop])
      (by decide)
  rw [hcontroller] at his
  exact ⟨door, halted, hrun, by rw [hcontroller], hhalted, his⟩

/-! ### The light barrier -/

/-- Something is in the light barrier, and since then the door has not gone down. -/
structure Blocked (position : ℕ) (panel : Panel) (controller : Controller) : Prop where
  inv : DoorInvariant panel controller
  blocked : panel.input "Light_Barrier" = true
  le : position ≤ controller.position

/-- Nothing clears the light barrier. -/
def KeepsBarrier (action : DoorAction) : Prop := action ≠ .panel .lightBarrier false

theorem input_lightBarrier_of_keeps {panel : Panel} {switch : Switch} {on : Bool}
    (hgood : KeepsBarrier (.panel switch on))
    (h : panel.input "Light_Barrier" = true) : (panel.set switch.name on).input "Light_Barrier" = true := by
  cases switch with
  | emergencyStop => exact (panel.input_set_of_ne _ (by decide)).trans h
  | lightBarrier =>
    cases on with
    | true => exact panel.input_set_self _ _
    | false => exact absurd rfl hgood

theorem Blocked.acts {position : ℕ} {panel panel' : Panel} {controller controller' : Controller} {action : DoorAction}
    (h : Blocked position panel controller) (hgood : KeepsBarrier action)
    (hacts : Acts panel controller action panel' controller') : Blocked position panel' controller' := by
  have hinv := h.inv.acts hacts
  obtain ⟨hbefore, hblocked, hle⟩ := h
  cases hacts with
  | request unitId pdu => exact ⟨hinv, hblocked, hle⟩
  | panel _ switch on => exact ⟨hinv, input_lightBarrier_of_keeps hgood hblocked, hle⟩
  | control _ _ _ hmoves =>
    cases hmoves with
    | readLightBarrier position' state emergencyStop =>
      refine ⟨hinv, hblocked, ?_⟩
      have h100 := hbefore.le
      have hcases := Controller.sampled_cases ⟨position', state, .readLightBarrier emergencyStop⟩ emergencyStop true
      rw [hblocked]
      generalize Controller.sampled ⟨position', state, .readLightBarrier emergencyStop⟩ emergencyStop true = sampled
        at hcases ⊢
      cases hcases with
      | raised =>
        simp only [Controller.raise, motorStepPercent] at hle h100 ⊢
        omega
      | _ => exact hle
    | readOpenCommand _ state lightBarrier found => exact ⟨hinv, hblocked, hle⟩
    | readCloseCommand _ state lightBarrier openRequested found =>
      refine ⟨hinv, hblocked, ?_⟩
      cases found with
      | false => exact hle
      | true => exact hle
    | showMotor => exact ⟨hinv, (panel.input_set_of_ne _ (by decide)).trans hblocked, hle⟩
    | showOpen => exact ⟨hinv, (panel.input_set_of_ne _ (by decide)).trans hblocked, hle⟩
    | showClosed => exact ⟨hinv, (panel.input_set_of_ne _ (by decide)).trans hblocked, hle⟩
    | _ => exact ⟨hinv, hblocked, hle⟩

/-! ### Opening -/

/-- The door is on its way up, or about to turn. -/
structure Rising (blocked : Bool) (panel : Panel) (controller : Controller) : Prop where
  inv : DoorInvariant panel controller
  clear : panel.input "Emergency_Stop" = false
  sample : controller.moment ≠ .readLightBarrier true
  barrier : blocked = true → panel.input "Light_Barrier" = true
  moving : controller.state = .opening ∨ blocked = true ∧ controller.state = .closing

/-- Nobody presses the emergency stop, or clears the light barrier where that matters. -/
def LetsRise (blocked : Bool) (action : DoorAction) : Prop :=
  action ≠ .panel .emergencyStop true ∧ (blocked = true → KeepsBarrier action)

/-- How many accesses there are until the tick has its samples, in a door that moves. -/
@[simp] def Moment.untilSampled : Moment → ℕ
  | .showMotor => 6
  | .showOpen => 5
  | .showClosed => 4
  | .showPosition => 3
  | .readEmergencyStop => 2
  | .readLightBarrier _ => 1
  | _ => 0

/-- How many accesses it takes at most until the door is open: seven a tick, with one tick for
each step of the motor and one to turn. -/
@[simp] def openRank (controller : Controller) : ℕ :=
  (if controller.state = .closing then 7 * 21 else 7 * ((100 - controller.position) / motorStepPercent)) +
    controller.moment.untilSampled

/-- The motor raises an opening door by a step, unless that opens it. -/
theorem rising_raise {blocked : Bool} {panel : Panel} {position : ℕ} {lightBarrier : Bool}
    (hbefore : DoorInvariant panel ⟨position, .opening, .readLightBarrier false⟩)
    (hinv : DoorInvariant panel (Controller.sampled ⟨position, .opening, .readLightBarrier false⟩ false lightBarrier))
    (hclear : panel.input "Emergency_Stop" = false) (hbarrier : blocked = true → panel.input "Light_Barrier" = true) :
    (Controller.sampled ⟨position, .opening, .readLightBarrier false⟩ false lightBarrier).position = 100 ∨
      Rising blocked panel (Controller.sampled ⟨position, .opening, .readLightBarrier false⟩ false lightBarrier) ∧
        openRank (Controller.sampled ⟨position, .opening, .readLightBarrier false⟩ false lightBarrier) + 1 ≤
          openRank ⟨position, .opening, .readLightBarrier false⟩ := by
  have hraise : Controller.sampled ⟨position, .opening, .readLightBarrier false⟩ false lightBarrier =
      Controller.raise ⟨position, .opening, .readLightBarrier false⟩ := rfl
  have hle := hbefore.le
  rw [hraise] at hinv ⊢
  by_cases hopen : (Controller.raise ⟨position, .opening, .readLightBarrier false⟩).position = 100
  · exact .inl hopen
  · refine .inr ⟨⟨hinv, hclear, by simp [Controller.raise], hbarrier, .inl (if_neg hopen)⟩, ?_⟩
    have hposition : min (min (position + motorStepPercent) 255) 100 = position + motorStepPercent := by
      simp only [Controller.raise, motorStepPercent] at hopen ⊢
      omega
    have hraised : Controller.raise ⟨position, .opening, .readLightBarrier false⟩ =
        ⟨position + motorStepPercent, .opening, .showMotor⟩ := by
      unfold Controller.raise
      dsimp only
      rw [hposition, if_neg fun h => hopen (hposition.trans h)]
    rw [hraised] at hinv ⊢
    have hbelow := hinv.le
    simp only [openRank, motorStepPercent, reduceCtorEq, if_false, Moment.untilSampled] at hbelow ⊢
    omega

theorem Rising.acts {blocked : Bool} {panel panel' : Panel} {controller controller' : Controller} {action : DoorAction}
    (h : Rising blocked panel controller) (hgood : LetsRise blocked action)
    (hacts : Acts panel controller action panel' controller') : controller'.position = 100 ∨
      Rising blocked panel' controller' ∧
        openRank controller' + (if action = .control then 1 else 0) ≤ openRank controller := by
  have hinv := h.inv.acts hacts
  obtain ⟨hbefore, hclear, hsample, hbarrier, hmoving⟩ := h
  have hidle : controller.state ≠ .idle := by
    rcases hmoving with hopening | ⟨-, hclosing⟩
    · rw [hopening]
      simp
    · rw [hclosing]
      simp
  cases hacts with
  | request unitId pdu => exact .inr ⟨⟨hinv, hclear, hsample, hbarrier, hmoving⟩, by simp⟩
  | panel _ switch on =>
    refine .inr ⟨⟨hinv, ?_, hsample, fun hblocked => ?_, hmoving⟩, by simp⟩
    · cases switch with
      | emergencyStop =>
        cases on with
        | true => exact absurd rfl hgood.1
        | false => exact panel.input_set_self _ _
      | lightBarrier => exact (panel.input_set_of_ne _ (by decide)).trans hclear
    · exact input_lightBarrier_of_keeps (hgood.2 hblocked) (hbarrier hblocked)
  | control _ _ _ hmoves =>
    rw [if_pos rfl]
    cases hmoves with
    | readEmergencyStop _ state =>
      refine .inr ⟨⟨hinv, hclear, ?_, hbarrier, hmoving⟩, by simp⟩
      rw [hclear]
      simp
    | readLightBarrier position state emergencyStop =>
      cases emergencyStop with
      | true => exact absurd rfl hsample
      | false =>
      cases state with
      | idle => exact absurd rfl hidle
      | opening => exact rising_raise hbefore hinv hclear hbarrier
      | closing =>
        obtain ⟨hblocked, -⟩ : blocked = true ∧ DoorState.closing = .closing := by simpa using hmoving
        rw [hbarrier hblocked] at hinv ⊢
        refine .inr ⟨⟨hinv, hclear, by simp [Controller.sampled], hbarrier, .inl rfl⟩, ?_⟩
        simp only [Controller.sampled, Bool.false_eq_true, if_false, if_true, openRank, motorStepPercent, reduceCtorEq,
          Moment.untilSampled]
        omega
    | showMotor =>
      exact .inr ⟨⟨hinv, (panel.input_set_of_ne _ (by decide)).trans hclear, by simp,
        fun hblocked => (panel.input_set_of_ne _ (by decide)).trans (hbarrier hblocked), hmoving⟩, by simp⟩
    | showOpen =>
      exact .inr ⟨⟨hinv, (panel.input_set_of_ne _ (by decide)).trans hclear, by simp,
        fun hblocked => (panel.input_set_of_ne _ (by decide)).trans (hbarrier hblocked), hmoving⟩, by simp⟩
    | showClosed =>
      exact .inr ⟨⟨hinv, (panel.input_set_of_ne _ (by decide)).trans hclear, by simp,
        fun hblocked => (panel.input_set_of_ne _ (by decide)).trans (hbarrier hblocked), hmoving⟩, by simp⟩
    | showPosition => exact .inr ⟨⟨hinv, hclear, by simp, hbarrier, hmoving⟩, by simp⟩
    | _ => exact absurd (hbefore.waiting rfl) hidle

theorem openRank_le (controller : Controller) : openRank controller ≤ 153 := by
  have hdoor :
      (if controller.state = .closing then 7 * 21 else 7 * ((100 - controller.position) / motorStepPercent)) ≤ 147 := by
    split
    · exact le_rfl
    · simp only [motorStepPercent]
      omega
  have hmoment : controller.moment.untilSampled ≤ 6 := by
    unfold Moment.untilSampled
    split <;> omega
  rw [openRank]
  omega

section LightBarrier

variable {tomlSource : String} {fc43BulkTransfer : Fc43BulkTransfer} {floats : FloatParser} {door : Door}
  {actions : List DoorAction}

/-- As long as something is in the light barrier the door never goes down, whatever commands
arrive and wherever the control loop was. -/
theorem blocked_door_never_lowers (hreached : Reached (doorProcess tomlSource fc43BulkTransfer floats) door)
    (hblocked : door.Is fun panel _ => panel.input "Light_Barrier" = true)
    (hkeeps : ∀ action ∈ actions, KeepsBarrier action) :
    ∃ later, execute (Door.step (doorProcess tomlSource fc43BulkTransfer floats)) door actions = some later ∧
      door.controller.position ≤ later.controller.position := by
  obtain ⟨panel, hshows, hinv⟩ := hreached.is
  obtain ⟨panel', hshows', hset⟩ := hblocked
  obtain rfl : panel = panel' := hshows.unique hshows'
  obtain ⟨later, hrun, _, -, hlater⟩ := @run_of_acts (doorProcess tomlSource fc43BulkTransfer floats)
    (Blocked door.controller.position) KeepsBarrier (fun _ _ _ _ _ hinv hgood hacts => hinv.acts hgood hacts) door
    ⟨panel, hshows, hinv, hset, le_rfl⟩ actions hkeeps
  exact ⟨later, hrun, hlater.le⟩

/-- A door that goes up opens within 154 accesses of the control loop, unless somebody
presses the emergency stop; so does one that goes down with something in the light barrier. -/
theorem moving_door_opens (blocked : Bool) (hreached : Reached (doorProcess tomlSource fc43BulkTransfer floats) door)
    (hclear : door.Is fun panel controller => panel.input "Emergency_Stop" = false ∧
      controller.moment ≠ .readLightBarrier true ∧ (blocked = true → panel.input "Light_Barrier" = true))
    (hmoving : door.controller.state = .opening ∨ blocked = true ∧ door.controller.state = .closing)
    (hrise : ∀ action ∈ actions, LetsRise blocked action) (hmany : 154 ≤ actions.count .control) :
    ∃ earlier later, actions = earlier ++ later ∧ ∃ opened,
      execute (Door.step (doorProcess tomlSource fc43BulkTransfer floats)) door earlier = some opened ∧
        opened.controller.position = 100 := by
  obtain ⟨panel, hshows, hinv⟩ := hreached.is
  obtain ⟨panel', hshows', hset, hsample, hbarrier⟩ := hclear
  obtain rfl : panel = panel' := hshows.unique hshows'
  have hrank : openRank door.controller < actions.count .control := lt_of_le_of_lt (openRank_le _) (by omega)
  obtain ⟨earlier, later, hactions, opened, hrun, -, -, hopen⟩ := @reaches_of_rank
    (doorProcess tomlSource fc43BulkTransfer floats) (fun _ controller => controller.position = 100) (Rising blocked)
    (LetsRise blocked) openRank (fun _ _ _ _ _ hinv hgood hacts => hinv.acts hgood hacts) door
    ⟨panel, hshows, hinv, hset, hsample, hbarrier, hmoving⟩ actions hrise hrank
  exact ⟨earlier, later, hactions, opened, hrun, hopen⟩

end LightBarrier

theorem blocked_door_never_lowers_opening : ∃ door later,
    execute (Door.step bareProcess) (Door.start bareProcess)
        (openCommanded ++ [.panel .lightBarrier true]) = some door ∧
      execute (Door.step bareProcess) door (.request 1 [5, 0, 2, 0xFF, 0] :: List.replicate 40 .control) = some later ∧
        door.controller.position ≤ later.controller.position := by
  have hrun : ∃ door,
      execute (Door.step bareProcess) (Door.start bareProcess)
        (openCommanded ++ [.panel .lightBarrier true]) = some door ∧
        door.Is fun panel _ => panel.input "Light_Barrier" = true := ⟨_, rfl, _, ⟨_, rfl, rfl, rfl⟩, rfl⟩
  obtain ⟨door, hrun, hblocked⟩ := hrun
  have hkeeps : ∀ action ∈ .request 1 [5, 0, 2, 0xFF, 0] :: List.replicate 40 .control, KeepsBarrier action := by
    intro action haction
    rcases List.mem_cons.mp haction with rfl | haction
    · simp [KeepsBarrier]
    · rw [List.eq_of_mem_replicate haction]
      simp [KeepsBarrier]
  obtain ⟨later, hlater, hle⟩ :=
    @blocked_door_never_lowers "" ⟨[], ""⟩ ⟨fun _ => none, fun _ => none⟩ door _ ⟨_, hrun⟩ hblocked hkeeps
  exact ⟨door, later, hrun, hlater, hle⟩

theorem moving_door_opens_commanded : ∃ door,
    execute (Door.step bareProcess) (Door.start bareProcess) openCommanded = some door ∧
      ∃ earlier later, List.replicate 154 .control = earlier ++ later ∧ ∃ opened,
        execute (Door.step bareProcess) door earlier = some opened ∧ opened.controller.position = 100 := by
  have hrun : ∃ door, execute (Door.step bareProcess) (Door.start bareProcess) openCommanded = some door ∧
      door.controller = ⟨0, .opening, .showMotor⟩ ∧ door.Is fun panel _ => panel.input "Emergency_Stop" = false :=
    ⟨_, rfl, rfl, _, ⟨_, rfl, rfl, rfl⟩, rfl⟩
  obtain ⟨door, hrun, hcontroller, panel, hshows, hclear⟩ := hrun
  refine ⟨door, hrun, @moving_door_opens "" ⟨[], ""⟩ ⟨fun _ => none, fun _ => none⟩ door _ false ⟨_, hrun⟩
    ⟨panel, hshows, hclear, by simp [hcontroller], by simp⟩ (.inl (by rw [hcontroller])) ?_
    (by rw [List.count_replicate_self])⟩
  intro action haction
  rw [List.eq_of_mem_replicate haction]
  simp [LetsRise]

end InfusedModbus.RollingDoor
