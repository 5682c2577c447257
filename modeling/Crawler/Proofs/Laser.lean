import Crawler.Proofs.Run

/-! The spindle output between commands. Every command that touches the spindle brings its output to the
level that the switch of the operator and laser mode call for. A command that changes laser mode does
not touch the spindle, so a spindle that is switched on keeps the level of the old mode. -/
namespace Crawler

open Crawler.Action

namespace Machine

open Hardware (Platform)
open Homing (Station)
open Spindle (InStep)

def Follows (m : Machine) : Prop :=
  m.spindle.output.enabled = true ↔
    m.spindle.enabled = true ∧ m.store.flag .laserMode = .ok false

variable {m : Machine}

private theorem follows_of_level (inStep : m.spindle.InStep) {laser : Bool}
    (flag : m.store.flag .laserMode = .ok laser)
    (level : m.spindle.level = (m.spindle.enabled && !laser)) : Follows m := by
  unfold Follows
  rw [inStep.level, level, flag]
  cases m.spindle.enabled <;> cases laser <;> simp

structure Regulated (m m' : Machine) : Prop where
  store : m'.store = m.store
  follows : Follows m → Follows m'

/-- During a motion a laser is brought to power and back; what is no laser is left alone. -/
theorem gated_regulated (inStep : m.spindle.InStep) (motion : Action Drives MotionFault Receipt) :
    Regulated m ((gated motion).run m).2 := by
  cases asked : Spindle.settings m.store with
  | error fault =>
    rw [gated_unread asked]
    exact ⟨rfl, id⟩
  | ok settings =>
    obtain ⟨lit, before, reliable⟩ := Spindle.beforeMove_reliable inStep.reliable settings
    obtain ⟨s, after, _⟩ := Spindle.afterMove_reliable reliable settings
    have inStep : s.InStep := by
      have lit_inStep := Spindle.inStep_kept.beforeMove settings m.spindle inStep
      rw [before] at lit_inStep
      have unlit_inStep := Spindle.inStep_kept.afterMove settings lit lit_inStep
      rwa [after] at unlit_inStep
    have moved : motion.run m.drives = (_, _) := rfl
    rw [gated_lit asked before moved after]
    refine ⟨rfl, fun follows => ?_⟩
    have powered := Spindle.beforeMove_ok before
    have unpowered := Spindle.afterMove_ok after
    have flag := Spindle.settings_laser asked
    cases laser : settings.laserMode with
    | true =>
      rw [laser] at unpowered flag
      rw [if_pos rfl] at unpowered
      exact follows_of_level inStep flag (by simp [unpowered.level])
    | false =>
      rw [laser] at powered unpowered
      simp only [Bool.false_and, Bool.false_eq_true, if_false] at powered unpowered
      rw [unpowered, powered]
      exact follows

private theorem emergencyStop_regulated (inStep : m.spindle.InStep) :
    Regulated m (emergencyStop.run m).2 := by
  have kept := Spindle.inStep_kept.stop m.spindle inStep
  obtain ⟨t, ran, _⟩ := Spindle.bring_reliable (s := { m.spindle with enabled := false })
    inStep.reliable false
  have stopped : Spindle.stop.run m.spindle = (.ok (), t) := ran
  have brought := Spindle.bring_ok ran
  rw [stopped] at kept
  refine ⟨rfl, fun _ => ?_⟩
  change Follows { m with spindle := (Spindle.stop.run m.spindle).2 }
  rw [stopped]
  unfold Follows
  dsimp only at kept ⊢
  rw [kept.level, brought.level, brought.enabled]
  simp

/-- Whatever of a spindle request is carried out, switching it reads laser mode first. -/
theorem useSpindle_regulated (inStep : m.spindle.InStep) (request : SpindleRequest) :
    Regulated m ((useSpindle request).run m).2 := by
  let P (m' : Machine) : Prop :=
    m'.store = m.store ∧ m'.spindle.InStep ∧ (Follows m → Follows m')
  have told (severity : Severity) (text : String) : Preserves P (tell severity text) :=
    fun _ held => held
  have switched (on : Bool) (_ : on ∈ request.enable) (settings : Setting.SpindleSnapshot)
      (asked : Spindle.settings m.store = .ok settings) :
      Preserves P (onSpindle (Spindle.switch on settings)) := by
    intro m' ⟨store, inStep, _⟩
    have kept := Spindle.inStep_kept.switch on settings m'.spindle inStep
    obtain ⟨t, ran, _⟩ := Spindle.bring_reliable (s := { m'.spindle with enabled := on })
      inStep.reliable (on && !settings.laserMode)
    have switched : (Spindle.switch on settings).run m'.spindle = (.ok (), t) := ran
    have brought := Spindle.bring_ok ran
    refine ⟨store, kept, fun _ => ?_⟩
    change Follows { m' with spindle := ((Spindle.switch on settings).run m'.spindle).2 }
    rw [switched] at kept ⊢
    have flag : m'.store.flag .laserMode = .ok settings.laserMode :=
      store ▸ Spindle.settings_laser asked
    refine follows_of_level kept flag ?_
    rw [brought.level, brought.enabled]
  have set (percent : Float) (settings : Setting.SpindleSnapshot)
      (_ : Spindle.settings m.store = .ok settings) :
      Preserves P (onSpindle (Spindle.setPercent percent settings)) := by
    intro m' ⟨store, inStep, follows⟩
    have kept := Spindle.inStep_kept.setPercent percent settings m'.spindle inStep
    obtain ⟨enabled, level⟩ :=
      Spindle.setPercent_level percent settings m'.spindle ⟨rfl, rfl⟩
    refine ⟨store, kept, fun before => ?_⟩
    have there := follows before
    unfold Follows at there ⊢
    rw [inStep.level] at there
    change ((Spindle.setPercent percent settings).run m'.spindle).2.output.enabled = true ↔
      ((Spindle.setPercent percent settings).run m'.spindle).2.enabled = true ∧ _
    rw [kept.level, enabled, level]
    exact there
  have held := useSpindle_keeps told switched set ⟨rfl, inStep, id⟩
  exact ⟨held.1, held.2.2⟩

def KeepsMode (m m' : Machine) : Prop :=
  m.spindle.enabled = true →
    (m'.store.flag .laserMode = .ok false ↔ m.store.flag .laserMode = .ok false)

private theorem follows_iff_of_regulated {m' : Machine} (follows : Follows m) (regulated : Regulated m m') :
    Follows m' ↔ KeepsMode m m' := by
  have kept : KeepsMode m m' := fun _ => by rw [regulated.store]
  exact ⟨fun _ => kept, fun _ => regulated.follows follows⟩

private theorem follows_iff_of_spindle {m' : Machine} (follows : Follows m)
    (same : m'.spindle = m.spindle) :
    Follows m' ↔ KeepsMode m m' := by
  unfold Follows KeepsMode at *
  rw [same]
  grind

theorem home_spindle : (home.run m).2.spindle = m.spindle := by
  refine preserves_home (P := fun m' => m'.spindle = m.spindle) (fun _ _ m' same => ?_) ?_ m rfl
  · exact same
  · exact fun _ _ _ same => same

private theorem status_spindle : (status.run m).2.spindle = m.spindle := by
  refine preserves_status (P := fun m' => m'.spindle = m.spindle) ?_ m rfl
  exact fun _ same => same

private theorem enterSetting_spindle (key : Setting.Key) (text : String) :
    ((enterSetting key text).run m).2.spindle = m.spindle := by
  refine preserves_enterSetting (P := fun m' => m'.spindle = m.spindle) ?_ ?_ m rfl
  · exact fun _ _ _ same => same
  · exact fun _ same => same

private theorem restoreSettings_spindle : (restoreSettings.run m).2.spindle = m.spindle := by
  refine preserves_restoreSettings (P := fun m' => m'.spindle = m.spindle) ?_ ?_ m rfl
  · exact fun _ _ _ same => same
  · exact fun _ same => same

/-- The commands that touch the spindle read laser mode first, and the others leave its output as it
was: the output is out of step only after laser mode has changed under a spindle that is on. -/
theorem respond_follows (inStep : m.spindle.InStep) (follows : Follows m) (stimulus : Stimulus) :
    Follows ((respond stimulus).run m).2 ↔ KeepsMode m ((respond stimulus).run m).2 := by
  have moved {command : Command} {motion : Action Drives MotionFault Receipt}
      (asked : command.motion? m.store = some motion) :
      Follows ((respond (.command command)).run m).2 ↔
        KeepsMode m ((respond (.command command)).run m).2 := by
    obtain ⟨console, ran⟩ := execute_motion asked
    have regulated := gated_regulated inStep motion
    rw [respond_command, ran]
    exact follows_iff_of_regulated follows ⟨regulated.store, regulated.follows⟩
  cases stimulus with
  | command command =>
    cases command with
    | drive request => exact moved rfl
    | depth request => exact moved rfl
    | emergencyStop =>
      have ran : (respond (.command .emergencyStop)).run m = (.ok _, (emergencyStop.run m).2) := rfl
      rw [ran]
      exact follows_iff_of_regulated follows (emergencyStop_regulated inStep)
    | spindle request =>
      rw [run_command .spindle rfl m]
      exact follows_iff_of_regulated follows (useSpindle_regulated inStep request)
    | home =>
      rw [run_command .homed rfl m]
      exact follows_iff_of_spindle follows home_spindle
    | status =>
      rw [run_command .status rfl m]
      exact follows_iff_of_spindle follows status_spindle
    | showSettings =>
      rw [run_command .settings rfl m]
      exact follows_iff_of_spindle follows rfl
    | showSetting key =>
      rw [run_command .setting rfl m]
      exact follows_iff_of_spindle follows rfl
    | enterSetting key text =>
      rw [run_command .setting rfl m]
      exact follows_iff_of_spindle follows (enterSetting_spindle key text)
    | restoreSettings =>
      rw [run_command .settings rfl m]
      exact follows_iff_of_spindle follows restoreSettings_spindle
  | wait =>
    have waited : Preserves (fun m' => m'.spindle = m.spindle) (respond .wait) :=
      preserves_map (fun _ same => same)
    exact follows_iff_of_spindle follows (waited m rfl)
  | advance us => exact follows_iff_of_spindle follows rfl
  | advanceUntil us => exact follows_iff_of_spindle follows rfl
  | failNext a reason => exact follows_iff_of_spindle follows rfl
  | overrideLevel level => exact follows_iff_of_spindle follows rfl
  | edge => exact follows_iff_of_spindle follows rfl
  | reconfigure store => exact follows_iff_of_spindle follows rfl

def Always (P : Machine → Prop) : List Stimulus → Machine → Prop
  | [], m => P m
  | stimulus :: rest, m => P m ∧ Always P rest ((respond stimulus).run m).2

def EachStep (R : Machine → Machine → Prop) : List Stimulus → Machine → Prop
  | [], _ => True
  | stimulus :: rest, m =>
    R m ((respond stimulus).run m).2 ∧ EachStep R rest ((respond stimulus).run m).2

private theorem always_head {P : Machine → Prop} {stimuli : List Stimulus} (always : Always P stimuli m) :
    P m := by
  cases stimuli with
  | nil => exact always
  | cons stimulus rest => exact always.1

private theorem respond_inStep (stimulus : Stimulus) :
    Preserves (fun m => m.spindle.InStep) (respond stimulus) := by
  intro m inStep
  have held := respond_held Station.true_kept Spindle.inStep_kept stimulus m ⟨trivial, inStep⟩
  exact held.spindle

private theorem always_follows_iff (stimuli : List Stimulus) (inStep : m.spindle.InStep)
    (follows : Follows m) : Always Follows stimuli m ↔ EachStep KeepsMode stimuli m := by
  induction stimuli generalizing m with
  | nil => exact ⟨fun _ => trivial, fun _ => follows⟩
  | cons stimulus rest ih =>
    have here := respond_follows inStep follows stimulus
    have later := ih (respond_inStep stimulus m inStep)
    constructor
    · rintro ⟨_, after⟩
      have follows := always_head after
      exact ⟨here.mp follows, (later follows).mp after⟩
    · rintro ⟨kept, after⟩
      exact ⟨follows, (later (here.mpr kept)).mpr after⟩

private theorem always_inStep (stimuli : List Stimulus) (inStep : m.spindle.InStep) :
    Always (fun m => m.spindle.output.enabled = m.spindle.level) stimuli m := by
  induction stimuli generalizing m with
  | nil => exact inStep.level
  | cons stimulus rest ih => exact ⟨inStep.level, ih (respond_inStep stimulus m inStep)⟩

/-- Between commands the output has the level that the controller last drove, and it has power exactly
if the spindle is switched on and is not a laser, as long as laser mode is never changed under a
spindle that is switched on; the first such change puts it out of step. -/
theorem output_follows_iff (store : Setting.Store) (pins : PerAxis Nat) (trigger : Int)
    (limits : Homing.Limits) (console : Console) (stimuli : List Stimulus) :
    let m := fresh store (.fresh pins trigger) (.fresh none) limits console
    Always (fun m => m.spindle.output.enabled = m.spindle.level) stimuli m ∧
      (Always Follows stimuli m ↔ EachStep KeepsMode stimuli m) := by
  intro m
  have inStep : m.spindle.InStep := ⟨rfl, rfl⟩
  have follows : Follows m := by simp [m, Follows, fresh, Spindle.fresh, Hardware.SpindleOutput.fresh]
  exact ⟨always_inStep stimuli inStep, always_follows_iff stimuli inStep follows⟩

/-- A spindle that is switched on and made a laser afterwards keeps its power. -/
theorem lit_without_motion :
    let m := (run [.command (.spindle ⟨some true, none⟩), .command (.enterSetting .laserMode "1")]
      bench).2
    m.store.flag .laserMode = .ok true ∧ m.spindle.output.enabled = true ∧ ¬ Follows m := by
  unfold Follows
  decide +kernel

end Machine

end Crawler
