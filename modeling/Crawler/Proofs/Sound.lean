import Crawler.Homing.Cycle
import Crawler.Proofs.Launch
import Crawler.Proofs.Plan

/-! What every operation of the drives and the homing cycle keep: no move is dropped and no track runs
without end, and between two operations the depth axis is at rest. Homing keeps the last of these
only as a whole, since its search is a run without end. -/
namespace Crawler.Hardware.Platform

def Gained (a : Axis) (p q : Platform) : Prop :=
  ∃ added, (q.log a).toList = (p.log a).toList ++ added ∧ ∀ event ∈ added, event.what.isDrop = false

structure Steady (p : Platform) : Prop where
  tracks : ∀ a ≠ .z, (p.engine a).Bounded
  undropped : ∀ a, ∀ event ∈ (p.log a).toList, event.what.isDrop = false

structure Sound (p : Platform) : Prop extends Steady p where
  rests : (p.engine .z).motion = .idle

variable {p q : Platform} {a : Axis}

theorem sound_bounded (sound : Sound p) : Bounded p := by
  intro a
  by_cases depth : a = .z
  · subst depth
    exact Engine.bounded_of_idle sound.rests
  · exact sound.tracks a depth

private theorem gained_of_quiet (quiet : Quiet a p q) : Gained a p q := by
  obtain ⟨added, grown, still⟩ := quiet
  exact ⟨added, grown, fun event member => (still event member).2⟩

theorem steady_onlyAt (steady : Steady p) (elsewhere : OnlyAt a p q) (gained : Gained a p q)
    (bounded : a ≠ .z → (q.engine a).Bounded) : Steady q := by
  constructor
  · intro b track
    by_cases same : b = a
    · exact same ▸ bounded (same ▸ track)
    · exact (elsewhere b same).1 ▸ steady.tracks b track
  · intro b event member
    by_cases same : b = a
    · subst same
      obtain ⟨added, grown, still⟩ := gained
      rw [grown] at member
      rcases List.mem_append.mp member with earlier | later
      · exact steady.undropped b event earlier
      · exact still event later
    · exact steady.undropped b event ((elsewhere b same).2 ▸ member)

theorem sound_onlyAt (sound : Sound p) (elsewhere : OnlyAt a p q) (gained : Gained a p q)
    (bounded : (q.engine a).Bounded) (rests : a = .z → (q.engine a).motion = .idle) : Sound q := by
  refine ⟨steady_onlyAt sound.toSteady elsewhere gained fun _ => bounded, ?_⟩
  by_cases depth : a = .z
  · exact depth ▸ rests depth
  · exact (elsewhere .z (Ne.symm depth)).1 ▸ sound.rests

theorem steady_settled (steady : Steady p) (settled : Settled a p q) : Steady q := by
  refine steady_onlyAt steady settled.elsewhere (gained_of_quiet settled.quiet) fun _ => ?_
  exact Engine.bounded_of_idle settled.idle

theorem sound_settled (sound : Sound p) (settled : Settled a p q) : Sound q := by
  have bounded := Engine.bounded_of_idle settled.idle
  exact sound_onlyAt sound settled.elsewhere (gained_of_quiet settled.quiet) bounded fun _ => settled.idle

theorem steady_same (steady : Steady p) (engines : q.engines = p.engines) (logs : q.logs = p.logs) :
    Steady q := by
  obtain ⟨tracks, undropped⟩ := steady
  unfold engine at tracks
  unfold log at undropped
  rw [← engines] at tracks
  rw [← logs] at undropped
  exact ⟨tracks, undropped⟩

theorem sound_same (sound : Sound p) (engines : q.engines = p.engines) (logs : q.logs = p.logs) :
    Sound q := by
  refine ⟨steady_same sound.toSteady engines logs, ?_⟩
  have rests := sound.rests
  unfold engine at rests ⊢
  rwa [engines]

theorem steady_commit {α : Type} (steady : Steady p) {outcome : Engine.Outcome α}
    (kept : ∀ what ∈ outcome.occurrence, what.isDrop = false)
    (bounded : a ≠ .z → outcome.engine.Bounded) : Steady (p.commit a outcome) := by
  refine steady_onlyAt steady (commit_onlyAt outcome) ⟨_, commit_log _ _ _, ?_⟩ ?_
  · intro event member
    cases happened : outcome.occurrence with
    | none => simp [entry, happened] at member
    | some what =>
      have same : event = ⟨p.eventCount, p.now, what⟩ := by simpa [entry, happened] using member
      rw [same]
      exact kept what happened
  · rwa [commit_engine]

theorem sound_commit {α : Type} (sound : Sound p) {outcome : Engine.Outcome α}
    (kept : ∀ what ∈ outcome.occurrence, what.isDrop = false)
    (idle : outcome.engine.motion = .idle) : Sound (p.commit a outcome) := by
  refine ⟨steady_commit sound.toSteady kept fun _ => Engine.bounded_of_idle idle, ?_⟩
  by_cases depth : a = .z
  · subst depth
    rwa [commit_engine]
  · rw [commit_engine_of_ne _ _ _ (Ne.symm depth)]
    exact sound.rests

theorem sound_retire (sound : Sound p) (a : Axis) : Sound (p.retire a) := by
  refine sound_onlyAt sound (fun b other => ⟨retire_engine_of_ne p a other, rfl⟩)
    ⟨[], (List.append_nil _).symm, nofun⟩ ?_ ?_
  · rw [retire_engine]
    exact Engine.retire_bounded (sound_bounded sound a) _
  · intro depth
    subst depth
    rw [retire_engine, Engine.retire_of_idle sound.rests]
    exact sound.rests

theorem failNext_engine (p : Platform) (a : Axis) (reason : String) :
    (p.failNext a reason).engine a = { p.engine a with nextFault := some reason } := by
  exact PerAxis.get_modify_self _ _ _

theorem failNext_elsewhere (p : Platform) (a : Axis) (reason : String) :
    OnlyAt a p (p.failNext a reason) := by
  intro b other
  exact ⟨PerAxis.get_modify_of_ne _ _ other, rfl⟩

theorem sound_fresh (pins : PerAxis Nat) (trigger : Int) : Sound (fresh pins trigger) := by
  refine ⟨⟨?_, ?_⟩, rfl⟩
  · intro a _
    refine Engine.bounded_of_idle ?_
    cases a <;> rfl
  · intro a event member
    cases a <;> cases member

end Crawler.Hardware.Platform

namespace Crawler.Drives

open Crawler.Action
open Hardware (Platform Engine)
open Hardware.Platform (Steady Sound Settled)

variable {a : Axis} {d : Drives} {p q : Platform}

private theorem launched_gained {steps : Int} {hz : Float} {waiting : Waiting}
    (launched : Launched a steps hz waiting p q) : Platform.Gained a p q := by
  obtain ⟨before, seq, after, grown, quiet⟩ := launched.log
  refine ⟨_, grown.trans (List.append_assoc _ _ _), ?_⟩
  intro event member
  rcases List.mem_append.mp member with earlier | later
  · exact (quiet event (List.mem_append_left _ earlier)).2
  · rcases List.mem_cons.mp later with start | rest
    · rw [start]
      rfl
    · exact (quiet event (List.mem_append_right _ rest)).2

private theorem awaitRest_steady (a : Axis) : Preserves (fun d => Steady d.platform) (awaitRest a) := by
  intro d steady
  rcases awaitRest_cases d a with ⟨bounded, ran⟩ | ⟨fault, ran⟩
  · rw [ran]
    exact Platform.steady_settled steady (Platform.awaited_settled bounded)
  · rw [ran]
    exact steady

private theorem awaitRest_sound (a : Axis) : Preserves (fun d => Sound d.platform) (awaitRest a) := by
  intro d sound
  have bounded := Platform.sound_bounded sound a
  rw [run_awaitRest bounded]
  exact Platform.sound_settled sound (Platform.awaited_settled bounded)

theorem isMoving_sound {ε : Type} (a : Axis) :
    Preserves (fun d => Sound d.platform) (isMoving a : Action Drives ε Bool) := by
  intro d sound
  rw [run_isMoving]
  exact Platform.sound_retire sound a

private theorem engage_steady {α : Type} {op : Nat → Engine → Engine.Outcome α}
    (kept : ∀ now e, ∀ what ∈ (op now e).occurrence, what.isDrop = false) :
    Preserves (fun d => Steady d.platform) (onPlatform (Platform.engage .z op)) := by
  intro d steady
  rw [run_engage rfl]
  exact Platform.steady_commit steady (kept _ _) fun track => absurd rfl track

private theorem engage_sound {α : Type} {op : Nat → Engine → Engine.Outcome α}
    (kept : ∀ now e, ∀ what ∈ (op now e).occurrence, what.isDrop = false)
    (idle : ∀ now e, (op now e).engine.motion = .idle) (a : Axis) :
    Preserves (fun d => Sound d.platform) (onPlatform (Platform.engage a op)) := by
  intro d sound
  rw [run_engage rfl]
  exact Platform.sound_commit sound (kept _ _) (idle _ _)

private theorem stop_kept (now : Nat) (e : Engine) :
    ∀ what ∈ (Engine.stop now e).occurrence, what.isDrop = false := by
  rintro what ⟨⟩
  rfl

private theorem disable_kept (now : Nat) (e : Engine) :
    ∀ what ∈ (Engine.disable now e).occurrence, what.isDrop = false := by
  unfold Engine.disable
  dsimp only
  split
  · rintro what ⟨⟩
    rfl
  · exact nofun

theorem disable_idle (now : Nat) (e : Engine) : (Engine.disable now e).engine.motion = .idle := by
  unfold Engine.disable
  dsimp only
  split <;> rfl

private theorem stop_sound (a : Axis) : Preserves (fun d => Sound d.platform) (stop a) := by
  refine engage_sound stop_kept (fun _ _ => ?_) a
  rfl

private theorem disable_sound (a : Axis) : Preserves (fun d => Sound d.platform) (disable a) := by
  exact engage_sound disable_kept disable_idle a

theorem emergencyStop_sound : Preserves (fun d => Sound d.platform) emergencyStop := by
  exact preserves_emergencyStop stop_sound disable_sound

private theorem awaited_bounded (bounded : Platform.Bounded p) (a : Axis) :
    Platform.Bounded (p.awaited a) := by
  intro b
  by_cases same : b = a
  · subst same
    exact Engine.bounded_of_idle (Platform.awaited_settled (bounded b)).idle
  · rw [Platform.awaited_engine_of_ne same]
    exact bounded b

private theorem awaited_restPosition (bounded : Platform.Bounded p) (a b : Axis) :
    ((p.awaited a).engine b).restPosition = (p.engine b).restPosition := by
  by_cases same : b = a
  · subst same
    exact Platform.settled_restPosition (Platform.awaited_settled (bounded b))
  · rw [Platform.awaited_engine_of_ne same]

def atRest (p : Platform) : Platform := ((p.awaited .left).awaited .right).awaited .z

theorem run_awaitAll (bounded : Platform.Bounded d.platform) :
    awaitAll.run d = (.ok (), { d with platform := atRest d.platform }) := by
  have second := awaited_bounded bounded .left
  have third := awaited_bounded second .right
  have left := run_awaitRest (bounded .left)
  have right := run_awaitRest (d := { d with platform := d.platform.awaited .left }) (second .right)
  have depth := run_awaitRest
    (d := { d with platform := (d.platform.awaited .left).awaited .right }) (third .z)
  unfold awaitAll
  rw [run_bind_ok (run_mapError_eq_ok.mpr left), run_bind_ok (run_mapError_eq_ok.mpr right)]
  exact run_mapError_eq_ok.mpr depth

theorem atRest_restPosition (bounded : Platform.Bounded p) (a : Axis) :
    ((atRest p).engine a).restPosition = (p.engine a).restPosition := by
  have second := awaited_bounded bounded .left
  have third := awaited_bounded second .right
  unfold atRest
  rw [awaited_restPosition third, awaited_restPosition second, awaited_restPosition bounded]

theorem atRest_idle (bounded : Platform.Bounded p) (a : Axis) :
    ((atRest p).engine a).motion = .idle := by
  have second := awaited_bounded bounded .left
  have third := awaited_bounded second .right
  unfold atRest
  cases a with
  | z => exact (Platform.awaited_settled (third .z)).idle
  | right =>
    rw [Platform.awaited_engine_of_ne (by decide)]
    exact (Platform.awaited_settled (second .right)).idle
  | left =>
    rw [Platform.awaited_engine_of_ne (by decide), Platform.awaited_engine_of_ne (by decide)]
    exact (Platform.awaited_settled (bounded .left)).idle

theorem position_of_idle {d : Drives} {a : Axis} (idle : (d.platform.engine a).motion = .idle) :
    d.position a = (d.platform.engine a).restPosition := by
  unfold position Platform.position Engine.positionAt Engine.restPosition Engine.destination
  rw [Engine.absoluteAt_of_idle idle, idle]

theorem awaitAll_sound : Preserves (fun d => Sound d.platform) awaitAll := by
  exact preserves_awaitAll awaitRest_sound

theorem preserves_readings {Q : Drives → Prop} {ε : Type}
    (asked : ∀ a, Preserves Q (isMoving a : Action Drives ε Bool)) :
    Preserves Q (readings : Action Drives ε (PerAxis AxisReading)) := by
  have state (a : Axis) : Preserves Q (state a : Action Drives ε AxisReading) := by
    refine preserves_bind preserves_read fun _ => ?_
    exact preserves_map (asked a)
  refine preserves_bind (state .left) fun _ => ?_
  refine preserves_bind (state .right) fun _ => ?_
  exact preserves_map (state .z)

variable {move : JointMove}

def DepthLeads (move : JointMove) : Prop := move.steps.z = 0 ∨ leadAxis move.steps = .z

private theorem carryOut_sound (leads : DepthLeads move) :
    Preserves (fun d => Sound d.platform) (carryOut move) := by
  refine preserves_map (preserves_launchAll ?_ (fun a _ => stop_sound a) _ nofun)
  intro a some_steps d sound
  have attended : a = .z → waitingOf (leadAxis move.steps) a = .attended := by
    intro depth
    subst depth
    rcases leads with none | lead
    · exact absurd none some_steps
    · exact if_pos lead.symm
  rcases launch_cases (Platform.sound_bounded sound a) some_steps (waitingOf (leadAxis move.steps) a) with
    ⟨d', ran, launched⟩ | ⟨fault, d', ran, settled⟩
  · rw [ran]
    exact Platform.sound_onlyAt sound launched.elsewhere (launched_gained launched) launched.bounded
      fun depth => launched.idle (attended depth)
  · rw [ran]
    exact Platform.sound_settled sound settled

theorem leadAxis_depth (steps : Int) : leadAxis ⟨0, 0, steps⟩ = .z := by
  unfold leadAxis
  rw [if_neg (by simp), if_neg (by simp)]

private theorem dispatch_sound {plan : Plan} (leads : DepthLeads plan.move) :
    Preserves (fun d => Sound d.platform) (dispatch plan) := by
  exact preserves_map (carryOut_sound leads)

theorem drive_sound (store : Setting.Store) (direction : Direction) (mm feed : Float) :
    Preserves (fun d => Sound d.platform) (drive store direction mm feed) := by
  unfold drive
  cases made : Plan.ofDrive store direction mm feed with
  | error fault => exact fun _ sound => sound
  | ok plan => exact dispatch_sound (.inl (Plan.ofDrive_depth made))

theorem depth_sound (store : Setting.Store) (mm feed : Float) :
    Preserves (fun d => Sound d.platform) (depth store mm feed) := by
  intro d sound
  unfold depth
  rw [run_bind_ok (run_read d)]
  cases made : Plan.ofDepth store (d.position .z) mm feed with
  | error fault => exact sound
  | ok plan =>
    obtain ⟨settings, steps, _, rfl⟩ := Plan.ofDepth_ok made
    exact dispatch_sound (.inr (leadAxis_depth steps)) d sound

/-- A move waits first, so it is not dropped from whatever state the axis is in. -/
theorem startMove_steady (steps : Int) (waiting : Waiting) :
    Preserves (fun d => Steady d.platform) (startMove .z steps waiting) := by
  intro d steady
  by_cases none : steps = 0
  · unfold startMove
    rw [if_neg (not_not_intro none)]
    exact steady
  rcases awaitRest_cases d .z with ⟨bounded, waited⟩ | ⟨fault, refused⟩
  · have settled := Platform.awaited_settled bounded
    have steady := Platform.steady_settled steady settled
    -- The move of an axis that was waited for waits again, which changes nothing.
    have again : (startMove .z steps waiting).run d =
        (startMove .z steps waiting).run { d with platform := d.platform.awaited .z } := by
      have idle : (awaitRest .z).run { d with platform := d.platform.awaited .z } =
          (.ok (), { d with platform := d.platform.awaited .z }) := by
        rw [run_awaitRest (Engine.bounded_of_idle settled.idle)]
        exact congrArg (fun p => (Except.ok (), { d with platform := p }))
          (Platform.awaited_of_idle settled.idle)
      unfold startMove
      rw [if_pos none, run_bind_ok waited, run_bind_ok idle]
    rw [again]
    rcases startMove_cases (d := { d with platform := d.platform.awaited .z }) settled.idle none waiting
      with ⟨_, started⟩ | ⟨q, fault, refused, same⟩
    · rw [started]
      have launched := moved_launched (Platform.settled_of_idle settled.idle) steps waiting
      exact Platform.steady_onlyAt steady launched.elsewhere (launched_gained launched)
        fun track => absurd rfl track
    · rw [refused]
      exact Platform.steady_settled steady same
  · unfold startMove
    rw [if_pos none, run_bind_error refused]
    exact steady

end Crawler.Drives

namespace Crawler.Homing

open Crawler.Action
open Hardware (Platform Engine)
open Hardware.Platform (Steady Sound)

section Loops

variable {limits : Limits} {p q : Platform}

theorem seek_up (polls elapsed : Nat) (up : p.homingSignal = true) :
    (seek limits polls elapsed).run p = (.ok elapsed, p) := by
  cases polls <;> exact if_pos up

theorem seek_late (elapsed : Nat) (down : p.homingSignal = false) :
    (seek limits 0 elapsed).run p = (.error (.notReached limits.timeoutMs), p) := by
  refine if_neg ?_
  simp [down]

theorem seek_poll (polls elapsed : Nat) (down : p.homingSignal = false) :
    (seek limits (polls + 1) elapsed).run p =
      (seek limits polls (elapsed + limits.pollMs)).run (p.delay limits.pollMs) := by
  refine if_neg ?_
  simp [down]

theorem release_clear (left made : Nat) (clear : p.switchActive = false) :
    (release left made).run p = (.ok made, p) := by
  cases left <;> simp only [Action.run, release, clear, Bool.false_eq_true, if_false]

theorem release_stuck (made : Nat) (active : p.switchActive = true) :
    (release 0 made).run p = (.error (.stillActive made), p) := by
  exact if_pos active

theorem release_refused (left made : Nat) {cause : Hardware.Fault} (active : p.switchActive = true)
    (refused : (Platform.step .z .forward).run p = (.error cause, q)) :
    (release (left + 1) made).run p = (.error (.actuation cause), q) := by
  have refused : Platform.step .z .forward p = (.error cause, q) := refused
  change release (left + 1) made p = _
  simp only [release, active, if_true, refused]

theorem release_active (left made : Nat) (active : p.switchActive = true)
    (stepped : (Platform.step .z .forward).run p = (.ok (), q)) :
    (release (left + 1) made).run p = (release left (made + 1)).run q := by
  have stepped : Platform.step .z .forward p = (.ok (), q) := stepped
  change release (left + 1) made p = release left (made + 1) q
  simp only [release, active, if_true, stepped]

theorem preserves_seek {P : Platform → Prop} (delayed : ∀ p, P p → P (p.delay limits.pollMs))
    (polls elapsed : Nat) : Preserves P (seek limits polls elapsed) := by
  intro p held
  induction polls generalizing elapsed p with
  | zero =>
    cases flag : p.homingSignal with
    | true => rwa [seek_up _ _ flag]
    | false => rwa [seek_late _ flag]
  | succ polls ih =>
    cases flag : p.homingSignal with
    | true => rwa [seek_up _ _ flag]
    | false =>
      rw [seek_poll _ _ flag]
      exact ih _ _ (delayed p held)

theorem preserves_release {P : Platform → Prop} (stepped : Preserves P (Platform.step .z .forward))
    (left made : Nat) : Preserves P (release left made) := by
  intro p held
  induction left generalizing made p with
  | zero =>
    cases active : p.switchActive with
    | false => rwa [release_clear _ _ active]
    | true => rwa [release_stuck _ active]
  | succ left ih =>
    cases active : p.switchActive with
    | false => rwa [release_clear _ _ active]
    | true =>
      have kept := stepped p held
      cases ran : (Platform.step .z .forward).run p with
      | mk result q =>
        rw [ran] at kept
        cases result with
        | ok _ =>
          rw [release_active _ _ active ran]
          exact ih _ _ kept
        | error cause => rwa [release_refused _ _ active ran]

end Loops

structure Invariant (Q : Drives → Prop) : Prop where
  awaitRest : Preserves Q (Drives.awaitRest .z)
  startMove : ∀ steps waiting, Preserves Q (Drives.startMove .z steps waiting)
  startRun : Preserves Q (Drives.startRun .z .reverse)
  step : Preserves Q (Drives.step .z .forward)
  stop : Preserves Q (Drives.stop .z)
  enable : Preserves Q (Drives.enable .z)
  disable : Preserves Q (Drives.disable .z)
  setSpeed : ∀ hz, Preserves Q (Drives.setSpeed .z hz)
  setAcceleration : ∀ acceleration, Preserves Q (Drives.setAcceleration .z acceleration)
  setOrigin : Preserves Q (Drives.setOrigin .z)
  attach : Preserves Q (Drives.onPlatform (Platform.attach .homing))
  detach : ∀ d, Q d → Q { d with platform := d.platform.detach }
  delay : ∀ ms d, Q d → Q { d with platform := d.platform.delay ms }
  signal : ∀ flag d, Q d → Q { d with platform := { d.platform with homingSignal := flag } }

namespace Station

section Invariant

variable {Q : Drives → Prop}

private theorem preserves_onDrives {α : Type} {action : Action Drives Hardware.Fault α}
    (kept : Preserves Q action) : Preserves (fun s => Q s.drives) (onDrives action) := by
  intro s held
  exact kept s.drives held

private theorem preserves_onPlatform {α : Type} {action : Action Platform HomingFault α}
    (kept : Preserves Q (Drives.onPlatform action)) :
    Preserves (fun s => Q s.drives) (onPlatform action) := by
  intro s held
  exact kept s.drives held

private theorem preserves_enter (phase : Phase) : Preserves (fun s => Q s.drives) (enter phase) := by
  intro s held
  exact held

variable (kept : Invariant Q)

include kept

private theorem setFlag_keeps (flag : Bool) : Preserves (fun s => Q s.drives) (setFlag flag) := by
  refine preserves_onPlatform fun d held => ?_
  exact kept.signal flag d held

private theorem detach_keeps : Preserves (fun s => Q s.drives) (onPlatform (.modify Platform.detach)) := by
  refine preserves_onPlatform fun d held => ?_
  exact kept.detach d held

private theorem seekSwitch_keeps (limits : Limits) (parameters : Parameters) :
    Preserves (fun s => Q s.drives) (seekSwitch limits parameters) := by
  refine preserves_bind (preserves_enter _) fun _ => ?_
  refine preserves_bind (preserves_onDrives kept.awaitRest) fun _ => ?_
  refine preserves_bind (preserves_onDrives kept.enable) fun _ => ?_
  refine preserves_bind (preserves_onDrives (kept.setAcceleration _)) fun _ => ?_
  refine preserves_bind (preserves_onDrives (kept.setSpeed _)) fun _ => ?_
  refine preserves_bind (preserves_onPlatform fun d held => kept.attach d held) fun _ => ?_
  refine preserves_bind (preserves_onDrives kept.startRun) fun _ => ?_
  refine preserves_onPlatform fun d held => ?_
  have delayed (p : Platform) (held : Q { d with platform := p }) :
      Q { d with platform := p.delay limits.pollMs } := kept.delay _ { d with platform := p } held
  exact preserves_seek delayed limits.polls 0 d.platform held

private theorem debounce_keeps (parameters : Parameters) :
    Preserves (fun s => Q s.drives) (debounce parameters) := by
  refine preserves_bind (preserves_enter _) fun _ => ?_
  refine preserves_bind (preserves_onDrives kept.stop) fun _ => ?_
  refine preserves_bind (preserves_onDrives kept.disable) fun _ => ?_
  refine preserves_bind (preserves_onPlatform (kept.delay parameters.debounceMs)) fun _ => ?_
  exact preserves_onDrives kept.enable

private theorem pullOff_keeps (limits : Limits) (parameters : Parameters) :
    Preserves (fun s => Q s.drives) (pullOff limits parameters) := by
  have released : Preserves Q (Drives.onPlatform (release limits.releaseSteps 0)) := by
    intro d held
    have stepped : Preserves (fun p => Q { d with platform := p }) (Platform.step .z .forward) :=
      fun p held => kept.step { d with platform := p } held
    exact preserves_release stepped limits.releaseSteps 0 d.platform held
  refine preserves_bind (preserves_enter _) fun _ => ?_
  refine preserves_bind (preserves_onPlatform released) fun made => ?_
  refine preserves_bind (preserves_onDrives (kept.startMove _ _)) fun _ => ?_
  refine preserves_bind (preserves_onDrives kept.setOrigin) fun _ => ?_
  refine preserves_bind (setFlag_keeps kept false) fun _ => ?_
  exact preserves_map (detach_keeps kept)

private theorem sequence_keeps (limits : Limits) (parameters : Parameters) :
    Preserves (fun s => Q s.drives) (sequence limits parameters) := by
  refine preserves_bind (seekSwitch_keeps kept limits parameters) fun _ => ?_
  refine preserves_bind (debounce_keeps kept parameters) fun _ => ?_
  exact preserves_map (pullOff_keeps kept limits parameters)

private theorem abandon_keeps : Preserves (fun s => Q s.drives) abandon := by
  refine preserves_bind (preserves_onDrives kept.stop) fun _ => ?_
  refine preserves_bind (detach_keeps kept) fun _ => ?_
  exact setFlag_keeps kept false

theorem home_keeps (limits : Limits) (store : Setting.Store) :
    Preserves (fun s => Q s.drives) (home limits store) := by
  refine preserves_bind (preserves_enter _) fun _ => ?_
  refine preserves_bind (setFlag_keeps kept false) fun _ => ?_
  cases Parameters.load store with
  | error fault =>
    refine preserves_bind (preserves_enter _) fun _ => ?_
    exact preserves_fail fault
  | ok parameters =>
    refine preserves_bind (preserves_attempt (sequence_keeps kept limits parameters)) fun result => ?_
    cases result with
    | ok report =>
      exact preserves_map (preserves_enter _)
    | error fault =>
      refine preserves_bind (abandon_keeps kept) fun _ => ?_
      refine preserves_bind (preserves_enter _) fun _ => ?_
      exact preserves_fail fault

end Invariant

section Steady

private theorem startRun_kept (direction : Sense) (now : Nat) (e : Engine) :
    ∀ what ∈ (Engine.startRun direction now e).occurrence, what.isDrop = false := by
  unfold Engine.startRun
  dsimp only
  split
  · exact nofun
  · split
    · exact nofun
    · rintro what ⟨⟩
      rfl

private theorem step_kept (direction : Sense) (now : Nat) (e : Engine) :
    ∀ what ∈ (Engine.step direction now e).occurrence, what.isDrop = false := by
  unfold Engine.step
  dsimp only
  split
  · exact nofun
  · split
    · exact nofun
    · rintro what ⟨⟩
      rfl

private theorem prepare_steady {op : Engine → Engine.Outcome Unit} {remember : Drives → Drives}
    (quiet : ∀ e, ∀ what ∈ (op e).occurrence, what.Uneventful)
    (kept : ∀ d, (remember d).platform = d.platform) :
    Preserves (fun d => Steady d.platform) (do
      Drives.onPlatform (Platform.engage .z fun _ => op)
      .modify remember : Action Drives Hardware.Fault Unit) := by
  refine preserves_bind ?_ fun _ => preserves_modify fun d steady => ?_
  · exact Drives.engage_steady fun _ e what happened => (quiet e what happened).2
  · rwa [kept]

private theorem attach_steady : Preserves (fun d => Steady d.platform)
    (Drives.onPlatform (Platform.attach .homing)) := by
  intro d steady
  change Steady (Platform.attach .homing d.platform).2
  unfold Platform.attach
  split
  · exact steady
  · exact Platform.steady_same steady (Platform.serve_engines _ _) (Platform.serve_logs _ _)

private theorem steady_invariant : Invariant fun d => Steady d.platform where
  awaitRest := Drives.awaitRest_steady .z
  startMove := Drives.startMove_steady
  startRun := Drives.engage_steady (startRun_kept .reverse)
  step := Drives.engage_steady (step_kept .forward)
  stop := Drives.engage_steady Drives.stop_kept
  enable := Drives.engage_steady fun _ e what happened => (Engine.enable_uneventful e what happened).2
  disable := Drives.engage_steady Drives.disable_kept
  setSpeed hz := prepare_steady (fun e => Engine.setSpeed_uneventful e hz) fun _ => rfl
  setAcceleration acceleration :=
    prepare_steady (fun e => Engine.setAcceleration_uneventful e acceleration) fun _ => rfl
  setOrigin := Drives.engage_steady fun _ _ what happened => by
    cases happened
    rfl
  attach := attach_steady
  detach _ steady := Platform.steady_same steady rfl rfl
  delay _ d steady :=
    Platform.steady_same steady (d.platform.advance_engines _) (d.platform.advance_logs _)
  signal _ _ steady := Platform.steady_same steady rfl rfl

end Steady

variable {s t : Station} {limits : Limits} {parameters : Parameters}

theorem run_onDrives_eq_ok {α : Type} {action : Action Drives Hardware.Fault α} {a : α} :
    (onDrives action).run s = (.ok a, t) ↔
      ∃ d, action.run s.drives = (.ok a, d) ∧ { s with drives := d } = t := by
  unfold onDrives
  rw [run_on_eq_ok]
  simp only [run_mapError_eq_ok]

theorem run_onPlatform_eq_ok {α : Type} {action : Action Platform HomingFault α} {a : α} :
    (onPlatform action).run s = (.ok a, t) ↔
      ∃ p, action.run s.drives.platform = (.ok a, p) ∧
        { s with drives := { s.drives with platform := p } } = t := by
  unfold onPlatform Drives.onPlatform
  rw [run_on_eq_ok]
  simp only [run_on_eq_ok]
  constructor
  · rintro ⟨d, ⟨p, ran, rfl⟩, rfl⟩
    exact ⟨p, ran, rfl⟩
  · rintro ⟨p, ran, rfl⟩
    exact ⟨_, ⟨p, ran, rfl⟩, rfl⟩

/-- A sequence that succeeds makes the place of the axis its origin and then takes the homing flag and
the handler of the switch back. -/
theorem sequence_ends {report : Report}
    (ran : (sequence limits parameters).run s = (.ok report, t)) :
    ∃ p : Platform, t.drives.platform = Platform.detach
      { p.commit .z (Engine.setPosition 0 p.now (p.engine .z)) with homingSignal := false } := by
  obtain ⟨_, _, _, ran⟩ := run_bind_eq_ok.mp ran
  obtain ⟨_, _, _, ran⟩ := run_bind_eq_ok.mp ran
  obtain ⟨_, _, ran, answered⟩ := run_bind_eq_ok.mp ran
  cases answered
  obtain ⟨_, _, _, ran⟩ := run_bind_eq_ok.mp ran
  obtain ⟨_, _, _, ran⟩ := run_bind_eq_ok.mp ran
  obtain ⟨_, u, _, ran⟩ := run_bind_eq_ok.mp ran
  obtain ⟨_, _, origin, ran⟩ := run_bind_eq_ok.mp ran
  obtain ⟨_, _, flag, ran⟩ := run_bind_eq_ok.mp ran
  obtain ⟨_, _, detached, answered⟩ := run_bind_eq_ok.mp ran
  cases answered
  cases detached
  cases flag
  obtain ⟨_, moved, rfl⟩ := run_onDrives_eq_ok.mp origin
  unfold Drives.setOrigin Platform.setPosition at moved
  rw [Drives.run_engage rfl] at moved
  cases moved
  exact ⟨u.drives.platform, rfl⟩

private theorem sequence_rests {report : Report}
    (ran : (sequence limits parameters).run s = (.ok report, t)) :
    (t.drives.platform.engine .z).motion = .idle := by
  obtain ⟨p, ended⟩ := sequence_ends ran
  rw [ended]
  change ((Platform.commit _ _ _).engine .z).motion = .idle
  rw [Platform.commit_engine]
  rfl

theorem run_abandon (s : Station) :
    abandon.run s = (.ok (), { s with drives := { s.drives with platform :=
      { (s.drives.platform.commit .z (Engine.stop s.drives.platform.now
          (s.drives.platform.engine .z))).detach with homingSignal := false } } }) := by
  have moved : (Drives.stop .z).run s.drives = (.ok (), { s.drives with
      platform := s.drives.platform.commit .z
        (Engine.stop s.drives.platform.now (s.drives.platform.engine .z)) }) := Drives.run_engage rfl
  unfold abandon
  rw [run_bind_ok (run_onDrives_eq_ok.mpr ⟨_, moved, rfl⟩)]
  rfl

private theorem abandon_sound (steady : Steady s.drives.platform) :
    Sound (abandon.run s).2.drives.platform := by
  have kept : Steady (s.drives.platform.commit .z
      (Engine.stop s.drives.platform.now (s.drives.platform.engine .z))) :=
    Platform.steady_commit steady (Drives.stop_kept _ _) fun track => absurd rfl track
  rw [run_abandon]
  refine ⟨Platform.steady_same kept rfl rfl, ?_⟩
  change ((Platform.commit _ _ _).engine .z).motion = .idle
  rw [Platform.commit_engine]
  rfl

/-- However homing ends, the depth axis is at rest. -/
theorem home_sound (limits : Limits) (store : Setting.Store) :
    Preserves (fun s => Sound s.drives.platform) (home limits store) := by
  have flag : Preserves (fun s => Sound s.drives.platform) (setFlag false) := by
    intro s sound
    exact Platform.sound_same sound rfl rfl
  refine preserves_bind (fun _ sound => sound) fun _ => ?_
  refine preserves_bind flag fun _ => ?_
  cases Parameters.load store with
  | error fault =>
    refine preserves_bind (fun _ sound => sound) fun _ => ?_
    exact preserves_fail fault
  | ok parameters =>
    intro s sound
    have steady := sequence_keeps steady_invariant limits parameters s sound.toSteady
    cases ran : (sequence limits parameters).run s with
    | mk result t =>
      rw [ran] at steady
      dsimp only
      rw [run_bind_ok (run_attempt_eq ran)]
      cases result with
      | ok report =>
        have rests := sequence_rests ran
        exact ⟨steady, rests⟩
      | error fault =>
        have sound := abandon_sound steady
        rw [run_bind_ok (run_abandon t)]
        rwa [run_abandon] at sound

end Station

end Crawler.Homing
