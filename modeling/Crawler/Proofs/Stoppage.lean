import Crawler.Proofs.Conservation
import Crawler.Proofs.FeedCeiling
import Crawler.Proofs.Frame
import Crawler.Proofs.Laser

/-! The emergency stop. It leaves every axis at rest where it is, without power, and the spindle switched
off. An axis stays so until a motion or homing issues to it, whatever else happens, and the spindle
output is not switched on until the operator switches it on again. -/
namespace Crawler

open Crawler.Action
open Hardware (Platform Engine)

namespace Hardware

structure Engine.Dormant (place : Int) (e : Engine) : Prop where
  idle : e.motion = .idle
  unpowered : e.enabled = false
  place : e.physical - e.offset = place

structure Engine.Resting (E : Engine → Prop) : Prop where
  idle : ∀ e, E e → e.motion = .idle
  faulted : ∀ e reason, E e → E { e with nextFault := some reason }

theorem Engine.idle_resting : Engine.Resting fun e => e.motion = .idle := by
  exact ⟨fun _ => id, fun _ _ => id⟩

theorem Engine.dormant_resting (place : Int) : Engine.Resting (Engine.Dormant place) where
  idle _ dormant := dormant.idle
  faulted _ _ dormant := ⟨dormant.idle, dormant.unpowered, dormant.place⟩

namespace Platform

def Dormant (a : Axis) (place : Int) (p : Platform) : Prop := (p.engine a).Dormant place

variable {a b : Axis} {place : Int} {p q : Platform}

theorem dormant_position (dormant : Dormant a place p) : p.position a = place := by
  unfold position Engine.positionAt
  rw [Engine.absoluteAt_of_idle dormant.idle]
  exact dormant.place

theorem dormant_of_engine (same : q.engine a = p.engine a) (dormant : Dormant a place p) :
    Dormant a place q := by
  unfold Dormant
  rwa [same]

theorem dormant_onlyAt (elsewhere : OnlyAt b p q) (other : a ≠ b) (dormant : Dormant a place p) :
    Dormant a place q := by
  obtain ⟨same, _⟩ := elsewhere a other
  exact dormant_of_engine same dormant

section Resting

variable {E : Engine → Prop} (resting : Engine.Resting E)

include resting

theorem resting_retire (b : Axis) (held : E (p.engine a)) : E ((p.retire b).engine a) := by
  rcases p.retire_engine_cases b a with same | retired
  · rwa [same]
  · rwa [retired, Engine.retire_of_idle (resting.idle _ held)]

theorem resting_awaited (b : Axis) (held : E (p.engine a)) : E ((p.awaited b).engine a) := by
  by_cases same : a = b
  · subst same
    rwa [awaited_of_idle (resting.idle _ held)]
  · rwa [awaited_engine_of_ne same]

private theorem resting_disturbed {f : Platform → Platform} (disturbance : Disturbance f)
    (held : E (p.engine a)) : E ((f p).engine a) := by
  rcases disturbance.engine_cases p a with same | ⟨reason, faulted⟩
  · rwa [same]
  · rw [faulted]
    exact resting.faulted _ reason held

end Resting

end Platform

end Hardware

namespace Drives

open Hardware.Platform (Dormant OnlyAt)

variable {d d' : Drives} {a b : Axis} {place : Int}

private theorem isMoving_resting {E : Engine → Prop} (resting : Engine.Resting E) {ε : Type} (b : Axis) :
    Preserves (fun d => E (d.platform.engine a)) (isMoving b : Action Drives ε Bool) := by
  intro d held
  rw [run_isMoving]
  exact Platform.resting_retire resting b held

private theorem awaitRest_resting {E : Engine → Prop} (resting : Engine.Resting E) (b : Axis) :
    Preserves (fun d => E (d.platform.engine a)) (awaitRest b) := by
  intro d held
  rcases awaitRest_cases d b with ⟨_, waited⟩ | ⟨_, refused⟩
  · rw [waited]
    exact Platform.resting_awaited resting b held
  · rwa [refused]

private theorem engage_dormant {α : Type} {op : Nat → Engine → Engine.Outcome α} (b : Axis)
    (kept : ∀ now e, e.Dormant place → (op now e).engine.Dormant place) :
    Preserves (fun d => Dormant a place d.platform) (onPlatform (Platform.engage b op)) := by
  intro d dormant
  rw [run_engage rfl]
  by_cases same : a = b
  · subst same
    unfold Dormant
    rw [Platform.commit_engine]
    exact kept _ _ dormant
  · exact Platform.dormant_onlyAt (Platform.commit_onlyAt _) same dormant

private theorem disable_result (now : Nat) (e : Engine) : (Engine.disable now e).result = .ok () := by
  unfold Engine.disable
  dsimp only
  split <;> rfl

private theorem disable_rests (now : Nat) (e : Engine) :
    (Engine.disable now e).engine.Dormant (e.positionAt now) := by
  unfold Engine.disable
  dsimp only
  split
  · exact ⟨rfl, rfl, rfl⟩
  · next off => exact ⟨rfl, by simpa using off, rfl⟩

private theorem stop_dormant (b : Axis) : Preserves (fun d => Dormant a place d.platform) (stop b) := by
  refine engage_dormant b fun now e dormant => ⟨rfl, dormant.unpowered, ?_⟩
  change e.absoluteAt now - e.offset = place
  rw [Engine.absoluteAt_of_idle dormant.idle]
  exact dormant.place

private theorem disable_dormant (b : Axis) :
    Preserves (fun d => Dormant a place d.platform) (disable b) := by
  refine engage_dormant b fun now e dormant => ?_
  have rests := disable_rests now e
  rw [Engine.positionAt, Engine.absoluteAt_of_idle dormant.idle] at rests
  rwa [dormant.place] at rests

/-- An axis that is stopped and loses its power is held where it is at that moment, and so is the clock. -/
theorem run_halt (a : Axis) (d : Drives) :
    ∃ u d', (stop a).run d = (.ok (), u) ∧ (disable a).run u = (.ok (), d') ∧
      OnlyAt a d.platform d'.platform ∧ (∀ b, d'.position b = d.position b) ∧
      Dormant a (d.position a) d'.platform := by
  set p := d.platform.commit a (Engine.stop d.platform.now (d.platform.engine a))
  have frozen : p.engine a = (d.platform.engine a).freeze d.platform.now :=
    Platform.commit_engine _ _ _
  have now : p.now = d.platform.now := Platform.commit_now _ _ _
  set outcome := Engine.disable p.now (p.engine a) with off
  have disabled : (disable a).run ⟨p, d.cruise⟩ =
      (outcome.result, ⟨p.commit a outcome, d.cruise⟩) := run_engage rfl
  rw [off, disable_result, ← off] at disabled
  have elsewhere : OnlyAt a d.platform (p.commit a outcome) :=
    Platform.onlyAt_trans (Platform.commit_onlyAt _) (Platform.commit_onlyAt _)
  have dormant : Dormant a (d.position a) (p.commit a outcome) := by
    unfold Dormant
    rw [Platform.commit_engine, off, frozen, now]
    exact disable_rests _ _
  refine ⟨⟨p, d.cruise⟩, _, run_engage rfl, disabled, elsewhere, fun b => ?_, dormant⟩
  by_cases same : b = a
  · rw [same]
    exact Platform.dormant_position dormant
  · unfold position Platform.position
    rw [(elsewhere b same).1, Platform.commit_now, now]

private theorem run_emergencyStop (d : Drives) :
    ∃ d', emergencyStop.run d = (.ok (), d') ∧ ∀ a, Dormant a (d.position a) d'.platform := by
  obtain ⟨_, d₁, stopped₁, disabled₁, _, positions₁, left⟩ := run_halt .left d
  obtain ⟨_, d₂, stopped₂, disabled₂, elsewhere₂, positions₂, right⟩ := run_halt .right d₁
  obtain ⟨_, d₃, stopped₃, disabled₃, elsewhere₃, _, depth⟩ := run_halt .z d₂
  refine ⟨d₃, ?_, fun a => ?_⟩
  · unfold emergencyStop
    rw [run_bind_ok stopped₁, run_bind_ok disabled₁, run_bind_ok stopped₂, run_bind_ok disabled₂,
      run_bind_ok stopped₃, disabled₃]
  · cases a with
    | left =>
      exact Platform.dormant_onlyAt elsewhere₃ nofun (Platform.dormant_onlyAt elsewhere₂ nofun left)
    | right => exact Platform.dormant_onlyAt elsewhere₃ nofun (positions₁ .right ▸ right)
    | z => exact (positions₂ .z).trans (positions₁ .z) ▸ depth

section Reached

/-- The axes that a coordinated move issues to: those with steps, up to the first that refuses. -/
def reached (move : JointMove) (lead : Axis) : List Axis → Drives → List Axis
  | [], _ => []
  | a :: rest, d =>
    if move.steps.get a = 0 then reached move lead rest d
    else
      match (launch move a (waitingOf lead a)).run d with
      | (.ok (), d) => a :: reached move lead rest d
      | (.error _, _) => [a]

variable {move : JointMove} {lead : Axis}

private theorem launch_onlyAt (b : Axis) (move : JointMove) (waiting : Waiting) (d : Drives) :
    OnlyAt b d.platform ((launch move b waiting).run d).2.platform := by
  intro a other
  have untouched := launch_frame (untouched_frame other) move waiting d (untouched_refl a d)
  exact ⟨untouched.engine, untouched.log⟩

private theorem stopAll_dormant (axes : List Axis) :
    Preserves (fun d => Dormant a place d.platform) (stopAll axes) := by
  induction axes with
  | nil => exact preserves_pure ()
  | cons b rest ih =>
    refine preserves_bind (stop_dormant b) fun _ => ?_
    exact ih

/-- The axes that are stopped because another one refuses were all started before. -/
theorem launchAll_dormant {axes : List Axis} (started : List Axis) (apart : a ∉ reached move lead axes d)
    (dormant : Dormant a place d.platform) :
    Dormant a place ((launchAll move lead axes started).run d).2.platform := by
  induction axes generalizing d started with
  | nil => exact dormant
  | cons b rest ih =>
    rw [reached] at apart
    by_cases still : move.steps.get b = 0
    · rw [if_pos still] at apart
      rw [launchAll_skip still]
      exact ih started apart dormant
    · rw [if_neg still] at apart
      have elsewhere := launch_onlyAt b move (waitingOf lead b) d
      cases ran : (launch move b (waitingOf lead b)).run d with
      | mk result d' =>
        rw [ran] at apart elsewhere
        cases result with
        | ok u =>
          obtain ⟨other, apart⟩ := not_or.mp (mt List.mem_cons.mpr apart)
          rw [run_launchAll_of_ok still ran]
          exact ih _ apart (Platform.dormant_onlyAt elsewhere other dormant)
        | error fault =>
          have other : a ≠ b := fun same => apart (same ▸ List.mem_singleton_self a)
          rw [run_launchAll_of_error still ran]
          exact stopAll_dormant started d' (Platform.dormant_onlyAt elsewhere other dormant)

private theorem dispatch_dormant {plan : Plan}
    (apart : a ∉ reached plan.move (leadAxis plan.move.steps) (launchOrder (leadAxis plan.move.steps)) d)
    (dormant : Dormant a place d.platform) :
    Dormant a place ((dispatch plan).run d).2.platform := by
  have launched := launchAll_dormant [] apart dormant
  unfold dispatch
  cases ran : (launchAll plan.move (leadAxis plan.move.steps)
      (launchOrder (leadAxis plan.move.steps)) []).run d with
  | mk result next =>
    rw [ran] at launched
    cases result with
    | ok u =>
      have carried : (carryOut plan.move).run d = (.ok (leadAxis plan.move.steps), next) :=
        run_bind_ok ran
      rwa [run_bind_ok carried]
    | error fault =>
      have carried : (carryOut plan.move).run d = (.error fault, next) := run_bind_error ran
      rwa [run_bind_error carried]

def Course.reaches (course : Course) (store : Setting.Store) (mm feed : Float) (d : Drives) : List Axis :=
  match course.plan store (d.position .z) mm feed with
  | .ok plan => reached plan.move (leadAxis plan.move.steps) (launchOrder (leadAxis plan.move.steps)) d
  | .error _ => []

private theorem course_dormant {store : Setting.Store} {course : Course} {mm feed : Float}
    (apart : a ∉ course.reaches store mm feed d) (dormant : Dormant a place d.platform) :
    Dormant a place ((course.run store mm feed).run d).2.platform := by
  unfold Course.reaches at apart
  rw [course.run_eq]
  cases made : course.plan store (d.position .z) mm feed with
  | error fault => exact dormant
  | ok plan =>
    rw [made] at apart
    exact dispatch_dormant apart dormant

end Reached

end Drives

namespace Spindle

structure Dark (before : Hardware.SpindleOutput) (s : Spindle) : Prop where
  enabled : s.enabled = false
  switching : ∃ offs, s.output.switching = before.switching ++ offs ∧ ∀ on ∈ offs, on = false
  output : s.output.enabled = true → before.enabled = true

variable {before : Hardware.SpindleOutput} {s : Spindle}

private theorem dark_output {o : Hardware.SpindleOutput} (dark : Dark before s)
    (enabled : o.enabled = s.output.enabled) (switching : o.switching = s.output.switching) :
    Dark before { s with output := o } := by
  refine ⟨dark.enabled, switching ▸ dark.switching, fun on => ?_⟩
  exact dark.output (enabled ▸ on)

private theorem stop_enabled (s : Spindle) : (stop.run s).2.enabled = false := by
  have kept : Preserves (fun s : Spindle => s.enabled = false) (bring false) := by
    refine preserves_bind preserves_read fun _ => preserves_ite ?_ (preserves_pure ())
    refine preserves_bind (fun _ off => off) fun _ => ?_
    exact preserves_modify fun _ off => off
  exact kept { s with enabled := false } rfl

private theorem bring_dark : Preserves (Dark before) (bring false) := by
  intro s dark
  rcases bring_cases false s with ⟨_, kept⟩ | ⟨_, down | ⟨line, switched⟩⟩
  · rwa [kept]
  · rwa [down]
  · obtain ⟨offs, switching, off⟩ := dark.switching
    rw [switched]
    refine ⟨dark.enabled, ⟨offs ++ [false], ?_, ?_⟩, nofun⟩
    · dsimp only
      rw [switching, List.append_assoc]
    · intro on inside
      rcases List.mem_append.mp inside with earlier | last
      · exact off on earlier
      · exact List.mem_singleton.mp last

private theorem switch_dark (settings : Setting.SpindleSnapshot) :
    Preserves (Dark before) (switch false settings) := by
  refine preserves_bind (preserves_modify fun _ dark => ?_) fun _ => bring_dark
  exact ⟨rfl, dark.switching, dark.output⟩

/-- A laser has no power before a move if nobody has switched it on. -/
theorem dark_tended (before : Hardware.SpindleOutput) : Tended (Dark before) where
  beforeMove settings s dark := by
    have unlit : (beforeMove settings).run s = (.ok (), s) := by
      unfold beforeMove
      rw [run_bind_ok (run_read s), dark.enabled, Bool.and_false]
      rfl
    rwa [unlit]
  afterMove _ := preserves_ite bring_dark (preserves_pure ())
  setPercent _ _ := preserves_setPercent
    (fun s duty dark =>
      dark_output dark (adjust_enabled duty s.output) (adjust_switching duty s.output))
    fun _ dark => ⟨dark.enabled, dark.switching, dark.output⟩
  stop := preserves_bind
    (preserves_modify fun _ dark => ⟨rfl, dark.switching, dark.output⟩) fun _ => bring_dark

end Spindle

namespace Machine

open Homing (Station)
open Hardware.Platform (Dormant Disturbance)

variable {m : Machine} {a : Axis} {place : Int} {stimuli : List Stimulus}

def opens (m : Machine) : Bool :=
  match Spindle.settings m.store with
  | .ok settings => ((Spindle.beforeMove settings).run m.spindle).1.isOk
  | .error _ => false

def issues (m : Machine) : Stimulus → List Axis
  | .command (.drive request) =>
    if opens m then
      (Drives.Course.drive request.direction).reaches m.store request.step request.speed m.drives
    else []
  | .command (.depth request) =>
    if opens m then Drives.Course.depth.reaches m.store request.step request.speed m.drives else []
  | .command .home => if canHome m then [.z] else []
  | _ => []

def Unissued (a : Axis) : List Stimulus → Machine → Prop
  | [], _ => True
  | stimulus :: rest, m => a ∉ issues m stimulus ∧ Unissued a rest ((respond stimulus).run m).2

instance (a : Axis) : ∀ stimuli m, Decidable (Unissued a stimuli m)
  | [], _ => .isTrue trivial
  | stimulus :: rest, m =>
    have : Decidable (Unissued a rest ((respond stimulus).run m).2) :=
      instDecidableUnissued a rest _
    inferInstanceAs (Decidable (_ ∧ _))

private theorem gated_dormant {motion : Action Drives MotionFault Receipt}
    (moved : opens m = true → Dormant a place (motion.run m.drives).2.platform)
    (dormant : Dormant a place m.drives.platform) :
    Dormant a place ((gated motion).run m).2.drives.platform := by
  unfold opens at moved
  cases asked : Spindle.settings m.store with
  | error fault => rwa [gated_unread asked]
  | ok settings =>
    rw [asked] at moved
    dsimp only at moved
    cases before : (Spindle.beforeMove settings).run m.spindle with
    | mk powered lit =>
      rw [before] at moved
      dsimp only at moved
      cases powered with
      | error fault => rwa [gated_unlit asked before]
      | ok u =>
        cases after : (Spindle.afterMove settings).run lit with
        | mk unpowered s =>
          have ran : motion.run m.drives = (_, _) := rfl
          rw [gated_lit asked before ran after]
          unfold afterMotion
          split
          · exact Drives.preserves_awaitAll (Drives.awaitRest_resting (Engine.dormant_resting place)) _ (moved rfl)
          · exact moved rfl

private theorem resting_watched {E : Engine → Prop} (resting : Engine.Resting E) (a : Axis) :
    Station.Watched fun s => E (s.drives.platform.engine a) where
  readings _ := Drives.preserves_readings (Drives.isMoving_resting resting)
  awaitAll _ := Drives.preserves_awaitAll (Drives.awaitRest_resting resting)
  disturbed _ _ disturbance _ _ := Hardware.Platform.resting_disturbed resting disturbance

/-- What neither moves nor homes nor stops leaves an axis at rest alone. -/
theorem respond_resting {E : Engine → Prop} (resting : Engine.Resting E) {stimulus : Stimulus}
    (homeless : stimulus ≠ .command .home) (going : stimulus ≠ .command .emergencyStop)
    (unmoved : ∀ command motion, stimulus = .command command → command.motion? m.store ≠ some motion)
    (held : E (m.drives.platform.engine a)) :
    E (((respond stimulus).run m).2.drives.platform.engine a) := by
  by_cases forced : ∃ level, stimulus = .overrideLevel level
  · obtain ⟨level, rfl⟩ := forced
    exact held
  have watched := resting_watched resting a
  have begun : Held (fun s => E (s.drives.platform.engine a)) (fun _ => True) m := ⟨held, trivial⟩
  refine (respond_watched watched (fun command same => ?_) (fun level same => forced ⟨level, same⟩)
    begun).station
  exact execute_watched watched Spindle.true_kept.toTended (fun home => homeless (home ▸ same))
    (fun stop => going (stop ▸ same)) (fun motion asked => absurd asked (unmoved command motion same))
    (fun _ _ on _ settings => Spindle.true_kept.switch on settings) begun

/-- Homing leaves the tracks alone. -/
theorem home_elsewhere (m : Machine) :
    Hardware.Platform.OnlyAt .z m.drives.platform (home.run m).2.drives.platform := by
  intro a other
  have untouched := preserves_home (P := fun m' => Drives.Untouched a m.drives m'.drives)
    (tell_drives (Q := Drives.Untouched a m.drives))
    (fun limits store m' => Homing.home_untouched other limits store ⟨m'.drives, m'.phase⟩)
    m (Drives.untouched_refl a m.drives)
  exact ⟨untouched.engine, untouched.log⟩

private theorem home_dormant (apart : a ∉ issues m (.command .home))
    (dormant : Dormant a place m.drives.platform) :
    Dormant a place (home.run m).2.drives.platform := by
  cases ready : canHome m with
  | false => exact Platform.dormant_of_engine (congrArg (·.get a) (home_engines ready)) dormant
  | true =>
    have other : a ≠ .z := by simpa [issues, ready] using apart
    exact Platform.dormant_onlyAt (home_elsewhere m) other dormant

private theorem motion_dormant {command : Command} {motion : Action Drives MotionFault Receipt}
    (asked : command.motion? m.store = some motion) (apart : a ∉ issues m (.command command))
    (dormant : Dormant a place m.drives.platform) :
    Dormant a place ((gated motion).run m).2.drives.platform := by
  refine gated_dormant (fun opened => ?_) dormant
  cases command with
  | drive request =>
    cases asked
    have elsewhere : a ∉ (Drives.Course.drive request.direction).reaches m.store request.step
        request.speed m.drives := by simpa [issues, opened] using apart
    exact Drives.course_dormant elsewhere dormant
  | depth request =>
    cases asked
    have elsewhere : a ∉ Drives.Course.depth.reaches m.store request.step request.speed m.drives := by
      simpa [issues, opened] using apart
    exact Drives.course_dormant elsewhere dormant
  | _ => cases asked

/-- Whatever happens to a machine, an axis stays at rest without power unless it is issued to. -/
theorem respond_dormant {stimulus : Stimulus} (apart : a ∉ issues m stimulus)
    (dormant : Dormant a place m.drives.platform) :
    Dormant a place ((respond stimulus).run m).2.drives.platform := by
  by_cases moving : ∃ command motion, stimulus = .command command ∧ command.motion? m.store = some motion
  · obtain ⟨command, motion, rfl, asked⟩ := moving
    obtain ⟨console, ran⟩ := execute_motion asked
    rw [respond_command, ran]
    exact motion_dormant asked apart dormant
  by_cases homing : stimulus = .command .home
  · subst homing
    rw [run_command .homed rfl m]
    exact home_dormant apart dormant
  by_cases stopping : stimulus = .command .emergencyStop
  · subst stopping
    have stopped : ((respond (.command .emergencyStop)).run m).2.drives.platform =
        (Drives.emergencyStop.run m.drives).2.platform.detach := rfl
    rw [stopped]
    exact Drives.preserves_emergencyStop Drives.stop_dormant Drives.disable_dormant m.drives dormant
  exact respond_resting (Engine.dormant_resting place) homing stopping
    (fun command motion same asked => moving ⟨command, motion, same, asked⟩) dormant

private theorem run_dormant (apart : Unissued a stimuli m) (dormant : Dormant a place m.drives.platform) :
    Dormant a place (run stimuli m).2.drives.platform := by
  induction stimuli generalizing m with
  | nil => exact dormant
  | cons stimulus rest ih => exact ih apart.2 (respond_dormant apart.1 dormant)

def Unlit (stimuli : List Stimulus) : Prop :=
  ∀ request, .command (.spindle request) ∈ stimuli → request.enable ≠ some true

theorem execute_dark {before : Hardware.SpindleOutput} {command : Command}
    (unlit : ∀ request, command = .spindle request → request.enable ≠ some true)
    (dark : Spindle.Dark before m.spindle) : Spindle.Dark before ((execute command).run m).2.spindle := by
  have tended := Spindle.dark_tended before
  by_cases homeless : command = .home
  · subst homeless
    rw [run_execute .homed rfl]
    dsimp only
    rwa [home_spindle]
  by_cases going : command = .emergencyStop
  · subst going
    exact tended.stop m.spindle dark
  have switched (request : SpindleRequest) (same : command = .spindle request) (on : Bool)
      (inside : on ∈ request.enable) (settings : Setting.SpindleSnapshot) :
      Preserves (Spindle.Dark before) (Spindle.switch on settings) := by
    cases on with
    | true => exact absurd inside (unlit request same)
    | false => exact Spindle.switch_dark settings
  have held : Held (fun _ => True) (Spindle.Dark before) m := ⟨trivial, dark⟩
  exact (execute_watched Station.true_kept.toWatched tended homeless going
    (fun _ _ _ _ _ => trivial) switched held).spindle

theorem respond_dark {before : Hardware.SpindleOutput} {stimulus : Stimulus}
    (unlit : ∀ request, stimulus = .command (.spindle request) → request.enable ≠ some true) :
    Preserves (fun m => Spindle.Dark before m.spindle) (respond stimulus) := by
  intro m dark
  by_cases forced : ∃ level, stimulus = .overrideLevel level
  · obtain ⟨level, rfl⟩ := forced
    exact dark
  have commanded (command : Command) (same : stimulus = .command command) :
      Held (fun _ => True) (Spindle.Dark before) ((execute command).run m).2 :=
    ⟨trivial, execute_dark (fun request lit => unlit request (by rw [same, lit])) dark⟩
  exact (respond_watched Station.true_kept.toWatched commanded (fun level same => forced ⟨level, same⟩)
    ⟨trivial, dark⟩).spindle

private theorem run_dark {before : Hardware.SpindleOutput} (unlit : Unlit stimuli)
    (dark : Spindle.Dark before m.spindle) : Spindle.Dark before (run stimuli m).2.spindle := by
  have kept : ∀ stimulus ∈ stimuli,
      Preserves (fun m => Spindle.Dark before m.spindle) (respond stimulus) :=
    fun stimulus inside => respond_dark fun request same => unlit request (same ▸ inside)
  exact run_preserves kept dark

structure Halted (m stopped : Machine) : Prop where
  axes : ∀ a, Dormant a (m.drives.position a) stopped.drives.platform
  spindle : stopped.spindle.enabled = false
  disarmed : stopped.drives.platform.limit.armed = none
  phase : stopped.phase = .idle

theorem emergencyStop_halted (m : Machine) : Halted m (emergencyStop.run m).2 where
  axes a := by
    have stopped : (emergencyStop.run m).2.drives.platform =
        (Drives.emergencyStop.run m.drives).2.platform.detach := rfl
    obtain ⟨d, ran, dormant⟩ := Drives.run_emergencyStop m.drives
    rw [stopped, ran]
    exact dormant a
  spindle := Spindle.stop_enabled m.spindle
  disarmed := rfl
  phase := rfl

/-- An emergency stop leaves every axis at rest where it is, without power. However the run goes on, an
axis stays so until a command issues to it, and the spindle output is only ever switched off until the
operator switches the spindle on. -/
theorem emergencyStop_holds (m : Machine) :
    ∃ stopped, (execute .emergencyStop).run m = (.ok .stopped, stopped) ∧ Halted m stopped ∧
      (∀ a, stopped.drives.position a = m.drives.position a) ∧
      ∀ stimuli, let later := (run stimuli stopped).2
        (∀ a, Unissued a stimuli stopped → (later.drives.platform.engine a).enabled = false ∧
          later.drives.position a = m.drives.position a) ∧
        (Unlit stimuli →
          (∃ offs, later.spindle.output.switching = stopped.spindle.output.switching ++ offs ∧
            ∀ on ∈ offs, on = false) ∧
          (later.spindle.output.enabled = true → stopped.spindle.output.enabled = true)) := by
  have halted := emergencyStop_halted m
  set stopped := (emergencyStop.run m).2
  refine ⟨stopped, rfl, halted,
    fun a => Hardware.Platform.dormant_position (halted.axes a), fun stimuli => ⟨?_, ?_⟩⟩
  · intro a apart
    have kept := run_dormant apart (halted.axes a)
    exact ⟨kept.unpowered, Hardware.Platform.dormant_position kept⟩
  · intro unlit
    have dark : Spindle.Dark stopped.spindle.output stopped.spindle :=
      ⟨halted.spindle, ⟨[], (List.append_nil _).symm, nofun⟩, id⟩
    have kept := run_dark unlit dark
    exact ⟨kept.switching, kept.output⟩

def driving : Machine :=
  (run [.command (.spindle ⟨some true, none⟩), .command (.drive ⟨.forward, 300, 2⟩), .advance 100000]
    bench).2

def lowering : List Stimulus := [.command (.depth ⟨200, 1⟩), .advance 500000, .command .status]

/-- A machine that is stopped in the middle of a drive keeps its tracks where they are, without power,
while it lowers its tool. -/
theorem tracks_stay_stopped :
    ∃ stopped, (execute .emergencyStop).run driving = (.ok .stopped, stopped) ∧
      (driving.drives.platform.engine .left).motion ≠ .idle ∧ driving.drives.position .left = 12 ∧
      (run lowering stopped).2.drives.position .left = 12 ∧
      ((run lowering stopped).2.drives.platform.engine .z).enabled = true := by
  obtain ⟨stopped, ran, _, _, later⟩ := emergencyStop_holds driving
  obtain rfl : ((execute .emergencyStop).run driving).2 = stopped := congrArg Prod.snd ran
  have apart : Unissued .left lowering ((execute .emergencyStop).run driving).2 := by decide +kernel
  have place : driving.drives.position .left = 12 := by decide +kernel
  have lowered : ((run lowering ((execute .emergencyStop).run driving).2).2.drives.platform.engine
      .z).enabled = true := by decide +kernel
  exact ⟨_, ran, by decide +kernel, place, place ▸ ((later lowering).1 .left apart).2, lowered⟩

end Machine

end Crawler
