import Crawler.Proofs.Run

/-! No move is lost. An axis comes to rest where the moves that were acknowledged add up to, however
commands, waits and the passage of time interleave with the moves in flight, until the machine is
stopped or homed or an axis refuses. -/
namespace Crawler

open Crawler.Action
open Hardware (Platform Engine)
open Hardware.Platform (Sound Bounded Disturbance)

/-- Neither time nor a disturbance changes where an axis comes to rest. -/
theorem Hardware.Platform.Disturbance.restPosition {f : Platform → Platform} (disturbance : Disturbance f)
    (p : Platform) (a : Axis) : ((f p).engine a).restPosition = (p.engine a).restPosition := by
  rcases disturbance.engine_cases p a with same | ⟨reason, faulted⟩
  · rw [same]
  · rw [faulted]
    rfl

namespace Drives

def acknowledged (result : Except MotionFault Receipt) (a : Axis) : Int :=
  match result with
  | .ok receipt => receipt.move.steps.get a
  | .error _ => 0

def Refused (result : Except MotionFault Receipt) : Prop := ∃ a cause, result = .error (.actuation a cause)

variable {d d' : Drives} {result : Except MotionFault Receipt}

private theorem dispatch_restPosition {plan : Plan} (bounded : Bounded d.platform)
    (ran : (dispatch plan).run d = (result, d')) (accepted : ¬ Refused result) (a : Axis) :
    (d'.platform.engine a).restPosition =
      (d.platform.engine a).restPosition + acknowledged result a := by
  unfold dispatch at ran
  cases carried : (carryOut plan.move).run d with
  | mk carried_result next =>
    cases carried_result with
    | ok lead =>
      rw [run_bind_ok carried] at ran
      cases ran
      exact carryOut_restPosition bounded carried a
    | error fault =>
      rw [run_bind_error carried] at ran
      cases ran
      obtain ⟨b, cause, same⟩ := carryOut_error carried
      exact absurd ⟨b, cause, same ▸ rfl⟩ accepted

private theorem drive_restPosition {store : Setting.Store} {direction : Direction} {mm feed : Float}
    (bounded : Bounded d.platform) (ran : (drive store direction mm feed).run d = (result, d'))
    (accepted : ¬ Refused result) (a : Axis) :
    (d'.platform.engine a).restPosition =
      (d.platform.engine a).restPosition + acknowledged result a := by
  unfold drive at ran
  cases made : Plan.ofDrive store direction mm feed with
  | error fault =>
    rw [made] at ran
    cases ran
    exact (Int.add_zero _).symm
  | ok plan =>
    rw [made] at ran
    exact dispatch_restPosition bounded ran accepted a

private theorem depth_restPosition {store : Setting.Store} {mm feed : Float} (bounded : Bounded d.platform)
    (ran : (depth store mm feed).run d = (result, d')) (accepted : ¬ Refused result) (a : Axis) :
    (d'.platform.engine a).restPosition =
      (d.platform.engine a).restPosition + acknowledged result a := by
  unfold depth at ran
  rw [run_bind_ok (run_read d)] at ran
  cases made : Plan.ofDepth store (d.position .z) mm feed with
  | error fault =>
    rw [made] at ran
    cases ran
    exact (Int.add_zero _).symm
  | ok plan =>
    rw [made] at ran
    exact dispatch_restPosition bounded ran accepted a

end Drives

namespace Machine

def Outcome.steps (a : Axis) : Outcome → Int
  | .ok (some (.motion receipt)) => receipt.move.steps.get a
  | _ => 0

def Outcome.total (a : Axis) : List Outcome → Int
  | [] => 0
  | outcome :: later => outcome.steps a + total a later

def Outcome.isActuation : Outcome → Bool
  | .error (.motion (.actuation _ _)) | .error (.homing (.actuation _)) => true
  | _ => false

def canHome (m : Machine) : Bool :=
  m.store.flag .homingEnable = .ok true && (Homing.Parameters.load m.store).isOk

def isCalm (m : Machine) : Stimulus → Bool
  | .command .emergencyStop => false
  | .command .home => !canHome m
  | _ => true

def Undisturbed : List Stimulus → Machine → Prop
  | [], _ => True
  | stimulus :: rest, m =>
    isCalm m stimulus = true ∧ Outcome.isActuation ((respond stimulus).run m).1 = false ∧
      Undisturbed rest ((respond stimulus).run m).2

instance : ∀ stimuli m, Decidable (Undisturbed stimuli m)
  | [], _ => .isTrue trivial
  | stimulus :: rest, m =>
    have : Decidable (Undisturbed rest ((respond stimulus).run m).2) :=
      instDecidableUndisturbed rest _
    inferInstanceAs (Decidable (_ ∧ _ ∧ _))

def Accounts (m : Machine) (outcome : Outcome) (m' : Machine) : Prop :=
  ∀ a, (m'.drives.platform.engine a).restPosition =
    (m.drives.platform.engine a).restPosition + outcome.steps a

variable {m : Machine}

private theorem accounts_of_silent {α : Type} {action : Action Machine Fault α} {answer : α → Response}
    (silent : ∀ x a, Outcome.steps a (.ok (some (answer x))) = 0)
    (kept : ∀ a, ((action.run m).2.drives.platform.engine a).restPosition =
      (m.drives.platform.engine a).restPosition) :
    Accounts m ((action.run m).1.map fun x => some (answer x)) (action.run m).2 := by
  intro a
  rw [kept a]
  cases (action.run m).1 with
  | ok x =>
    change _ = _ + Outcome.steps a (.ok (some (answer x)))
    rw [silent x a, Int.add_zero]
  | error fault => exact (Int.add_zero _).symm

private theorem motion_restPosition {command : Command} {motion : Action Drives MotionFault Receipt}
    {result : Except MotionFault Receipt} {d : Drives} (asked : command.motion? m.store = some motion)
    (bounded : Platform.Bounded m.drives.platform) (ran : motion.run m.drives = (result, d))
    (accepted : ¬ Drives.Refused result) (a : Axis) :
    (d.platform.engine a).restPosition =
      (m.drives.platform.engine a).restPosition + Drives.acknowledged result a := by
  cases command with
  | drive request =>
    cases asked
    exact Drives.drive_restPosition bounded ran accepted a
  | depth request =>
    cases asked
    exact Drives.depth_restPosition bounded ran accepted a
  | _ => cases asked

private theorem accounts_of_motion {command : Command} {motion : Action Drives MotionFault Receipt}
    (asked : command.motion? m.store = some motion) (intact : Intact Spindle.Reliable m)
    (accepted : Outcome.isActuation ((respond (.command command)).run m).1 = false) :
    Accounts m ((respond (.command command)).run m).1 ((respond (.command command)).run m).2 := by
  intro a
  have bounded := Platform.sound_bounded intact.sound
  obtain ⟨console, answered⟩ := execute_motion asked
  rw [respond_command, answered] at accepted ⊢
  rcases run_gated motion m with
    ⟨fault, s, refused⟩ | ⟨result, d, d', outcome, s, ran, waited, ended, same⟩
  · rw [refused]
    exact (Int.add_zero _).symm
  · rw [ended] at accepted ⊢
    have same := same.resolve_right fun lost => lost.1 intact.spindle
    have obeyed : ¬ Drives.Refused result := by
      rintro ⟨b, cause, refused⟩
      rw [same, refused] at accepted
      cases accepted
    have after := motion_driven Homing.Station.sound_kept.toDriven asked m.phase m.drives intact.sound
    rw [ran] at after
    have rest : (d'.platform.engine a).restPosition = (d.platform.engine a).restPosition := by
      rcases waited with alone | waited
      · rw [alone]
      · have bounded := Platform.sound_bounded after
        rw [waited, Drives.run_awaitAll bounded]
        exact Drives.atRest_restPosition bounded a
    have moved := motion_restPosition asked bounded ran obeyed a
    change (d'.platform.engine a).restPosition = _
    rw [rest, moved, same]
    cases result <;> rfl

theorem tell_drives {Q : Drives → Prop} (severity : Severity) (text : String) :
    Preserves (fun m => Q m.drives) (tell severity text) := by
  intro m held
  exact held

private theorem onStore_drives {Q : Drives → Prop} {α : Type}
    (action : Action Setting.Store Setting.Fault α) :
    Preserves (fun m => Q m.drives) (onStore action) := by
  intro m held
  exact held

private theorem enterSetting_drives (key : Setting.Key) (text : String) :
    ((enterSetting key text).run m).2.drives = m.drives := by
  refine preserves_enterSetting (P := fun m' => m'.drives = m.drives) ?_ ?_ m rfl
  · exact tell_drives (Q := (· = m.drives))
  · exact onStore_drives (Q := (· = m.drives)) _

private theorem restoreSettings_drives : (restoreSettings.run m).2.drives = m.drives := by
  refine preserves_restoreSettings (P := fun m' => m'.drives = m.drives) ?_ ?_ m rfl
  · exact tell_drives (Q := (· = m.drives))
  · exact onStore_drives (Q := (· = m.drives)) _

private theorem useSpindle_drives (request : SpindleRequest) :
    ((useSpindle request).run m).2.drives = m.drives := by
  exact useSpindle_keeps (P := fun m' => m'.drives = m.drives) (tell_drives (Q := (· = m.drives)))
    (fun _ _ _ _ _ held => held) (fun _ _ _ _ held => held) rfl

/-- Homing that the settings do not allow is refused before anything moves. -/
theorem home_engines (unready : canHome m = false) :
    (home.run m).2.drives.platform.engines = m.drives.platform.engines := by
  have told := tell_drives (Q := fun d => d.platform.engines = m.drives.platform.engines)
  unfold home
  rw [run_bind_ok (run_read m)]
  cases flag : m.store.flag .homingEnable with
  | error fault =>
    rw [run_bind_error (readStore_error flag)]
  | ok enabled =>
    rw [run_bind_ok (readStore_ok flag)]
    cases enabled with
    | false => rfl
    | true =>
      cases loaded : Homing.Parameters.load m.store with
      | ok parameters => simp [canHome, flag, loaded, Except.isOk, Except.toBool] at unready
      | error fault =>
        have refused : Preserves
            (fun s => s.drives.platform.engines = m.drives.platform.engines)
            (Homing.Station.home m.limits m.store) := by
          unfold Homing.Station.home
          rw [loaded]
          refine preserves_bind (fun _ same => same) fun _ => ?_
          refine preserves_bind (fun _ same => same) fun _ => ?_
          refine preserves_bind (fun _ same => same) fun _ => ?_
          exact preserves_fail fault
        refine preserves_bind (told _ _) (fun _ => ?_) m rfl
        exact preserves_reporting told (preserves_mapError fun m' same =>
          refused ⟨m'.drives, m'.phase⟩ same)

private theorem status_restPosition (a : Axis) :
    ((status.run m).2.drives.platform.engine a).restPosition =
      (m.drives.platform.engine a).restPosition := by
  let rests (d : Drives) : Prop := (d.platform.engine a).restPosition =
    (m.drives.platform.engine a).restPosition
  have asked (b : Axis) : Preserves rests (Drives.isMoving b : Action Drives Fault Bool) := by
    intro d held
    rw [Drives.run_isMoving]
    rcases Platform.retire_engine_cases d.platform b a with same | retired
    · exact (congrArg Engine.restPosition same).trans held
    · exact (congrArg Engine.restPosition retired).trans
        ((Engine.retire_restPosition _ _).trans held)
  have readings : Preserves rests (Drives.readings : Action Drives Fault _) :=
    Drives.preserves_readings asked
  exact preserves_status (P := fun m => rests m.drives) (fun m held => readings m.drives held) m rfl

private theorem command_accounts {command : Command} (intact : Intact Spindle.Reliable m)
    (calm : isCalm m (.command command) = true)
    (accepted : Outcome.isActuation ((respond (.command command)).run m).1 = false) :
    Accounts m ((respond (.command command)).run m).1 ((respond (.command command)).run m).2 := by
  cases command with
  | drive request => exact accounts_of_motion rfl intact accepted
  | depth request => exact accounts_of_motion rfl intact accepted
  | home =>
    rw [run_command .homed rfl m]
    refine accounts_of_silent (fun _ _ => rfl) fun a => ?_
    have same := home_engines (by simpa [isCalm] using calm)
    unfold Platform.engine
    rw [same]
  | status =>
    rw [run_command .status rfl m]
    exact accounts_of_silent (fun _ _ => rfl) status_restPosition
  | emergencyStop => cases calm
  | spindle request =>
    rw [run_command .spindle rfl m]
    refine accounts_of_silent (fun _ _ => rfl) fun a => ?_
    rw [useSpindle_drives]
  | showSettings =>
    rw [run_command .settings rfl m]
    exact accounts_of_silent (fun _ _ => rfl) fun _ => rfl
  | showSetting key =>
    rw [run_command .setting rfl m]
    exact accounts_of_silent (fun _ _ => rfl) fun _ => rfl
  | enterSetting key text =>
    rw [run_command .setting rfl m]
    refine accounts_of_silent (fun _ _ => rfl) fun a => ?_
    rw [enterSetting_drives]
  | restoreSettings =>
    rw [run_command .settings rfl m]
    refine accounts_of_silent (fun _ _ => rfl) fun a => ?_
    rw [restoreSettings_drives]

private theorem wait_accounts (bounded : Bounded m.drives.platform) :
    Accounts m ((respond .wait).run m).1 ((respond .wait).run m).2 := by
  intro a
  have waited := run_onDrives (m := m) (Drives.run_awaitAll bounded)
  have ran : (respond .wait).run m =
      (.ok none, { m with drives := { m.drives with platform := Drives.atRest m.drives.platform } }) :=
    run_bind_ok (run_mapError_eq_ok.mpr waited)
  rw [ran]
  exact (Drives.atRest_restPosition bounded a).trans (Int.add_zero _).symm

private theorem accounts_of_disturbance {f : Platform → Platform} (disturbance : Disturbance f) :
    Accounts m (.ok none) { m with drives := { m.drives with platform := f m.drives.platform } } := by
  intro a
  exact (disturbance.restPosition m.drives.platform a).trans (Int.add_zero _).symm

private theorem respond_accounts {stimulus : Stimulus} (intact : Intact Spindle.Reliable m)
    (calm : isCalm m stimulus = true) (accepted : Outcome.isActuation ((respond stimulus).run m).1 = false) :
    Accounts m ((respond stimulus).run m).1 ((respond stimulus).run m).2 := by
  cases stimulus with
  | command command => exact command_accounts intact calm accepted
  | wait => exact wait_accounts (Platform.sound_bounded intact.sound)
  | advance us => exact accounts_of_disturbance (.advance us)
  | advanceUntil us => exact accounts_of_disturbance (.advanceUntil us)
  | failNext b reason => exact accounts_of_disturbance (.failNext b reason)
  | overrideLevel level => exact accounts_of_disturbance (.overrideLevel level)
  | edge => exact accounts_of_disturbance .edge
  | reconfigure store => exact fun a => (Int.add_zero _).symm

private theorem run_accounts {stimuli : List Stimulus} (intact : Intact Spindle.Reliable m)
    (undisturbed : Undisturbed stimuli m) (a : Axis) :
    ((run stimuli m).2.drives.platform.engine a).restPosition =
      (m.drives.platform.engine a).restPosition + Outcome.total a (run stimuli m).1 := by
  induction stimuli generalizing m with
  | nil => exact (Int.add_zero _).symm
  | cons stimulus rest ih =>
    obtain ⟨calm, accepted, later⟩ := undisturbed
    have here := respond_accounts intact calm accepted a
    have after := ih (respond_intact Spindle.reliable_kept stimulus m intact) later
    change ((run rest ((respond stimulus).run m).2).2.drives.platform.engine a).restPosition =
      _ + (Outcome.steps a ((respond stimulus).run m).1 +
        Outcome.total a (run rest ((respond stimulus).run m).2).1)
    rw [after, here]
    omega

private theorem run_awaitRest (intact : Intact Spindle.Reliable m) :
    ∃ m', awaitRest.run m = (.ok (), m') ∧
      ∀ a, m'.drives.position a = (m.drives.platform.engine a).restPosition := by
  have bounded := Platform.sound_bounded intact.sound
  have waited := run_onDrives (m := m) (Drives.run_awaitAll bounded)
  refine ⟨_, run_mapError_eq_ok.mpr waited, fun a => ?_⟩
  rw [Drives.position_of_idle (Drives.atRest_idle bounded a)]
  exact Drives.atRest_restPosition bounded a

/-- No move is ever dropped; and as long as nothing stops or homes a machine and no axis refuses,
the position of an axis at rest grows by exactly the steps that were acknowledged. -/
theorem moves_conserved {store : Setting.Store} {pins : PerAxis Nat} {trigger : Int}
    {limits : Homing.Limits} {console : Console} {before : List Stimulus}
    (reached : (run before (fresh store (.fresh pins trigger) (.fresh none) limits console)).2 = m)
    (stretch : List Stimulus) :
    (∀ a, ∀ event ∈ (m.drives.platform.log a).toList, event.what.isDrop = false) ∧
      (Undisturbed stretch m → ∃ settled ended, awaitRest.run m = (.ok (), settled) ∧
        awaitRest.run (run stretch m).2 = (.ok (), ended) ∧
        ∀ a, ended.drives.position a =
          settled.drives.position a + Outcome.total a (run stretch m).1) := by
  have intact : Intact Spindle.Reliable m :=
    reached ▸ run_intact Spindle.reliable_kept Spindle.fresh_reliable before
  refine ⟨intact.sound.undropped, fun undisturbed => ?_⟩
  obtain ⟨settled, waited, from_rest⟩ := run_awaitRest intact
  have after : Intact Spindle.Reliable (run stretch m).2 :=
    run_preserves (fun stimulus _ => respond_intact Spindle.reliable_kept stimulus) intact
  obtain ⟨ended, waited', to_rest⟩ := run_awaitRest after
  refine ⟨settled, ended, waited, waited', fun a => ?_⟩
  rw [from_rest, to_rest, run_accounts intact undisturbed]

def errand : List Stimulus :=
  [.command (.drive ⟨.forward, 300, 2⟩), .advance 700, .command (.drive ⟨.turnLeft, 300, 1⟩),
    .command (.depth ⟨200, 1⟩), .command .status, .command (.drive ⟨.backward, 0, 1⟩)]

def ready : Machine := (run [.command .status] bench).2

private theorem errand_undisturbed : Undisturbed errand ready := by decide +kernel

theorem errand_conserved :
    ∃ settled ended, awaitRest.run ready = (.ok (), settled) ∧
      awaitRest.run (run errand ready).2 = (.ok (), ended) ∧
      ended.drives.position .left = settled.drives.position .left + 250 ∧
      ended.drives.position .right = settled.drives.position .right + 750 := by
  have reached : (run [.command .status] bench).2 = ready := rfl
  obtain ⟨settled, ended, waited, waited', moved⟩ :=
    (moves_conserved reached errand).2 errand_undisturbed
  have left : Outcome.total .left (run errand ready).1 = 250 := by decide +kernel
  have right : Outcome.total .right (run errand ready).1 = 750 := by decide +kernel
  exact ⟨settled, ended, waited, waited', left ▸ moved .left, right ▸ moved .right⟩

end Machine

end Crawler
