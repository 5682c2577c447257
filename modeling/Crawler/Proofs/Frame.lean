import Crawler.Proofs.Run

/-! What motions and homing leave alone. Only a new origin changes the frame in which an axis counts, and
homing works on the depth axis, the limit switch and the homing flag only. Whatever speaks of other
things is kept by every step of either, and with that by the whole. -/
namespace Crawler

open Crawler.Action
open Hardware (Platform Engine)

namespace Hardware.Engine

theorem startMove_offset (steps : Int) (now : Nat) (e : Engine) :
    (startMove steps now e).engine.offset = e.offset := by
  have kept := retire_offset e now
  unfold startMove
  dsimp only
  split
  · exact kept
  · split
    · exact kept
    · split
      · exact kept
      · split
        · exact kept
        · split <;> exact kept

theorem startRun_offset (direction : Sense) (now : Nat) (e : Engine) :
    (startRun direction now e).engine.offset = e.offset := by
  unfold startRun
  dsimp only
  split
  · rfl
  · split <;> rfl

theorem step_offset (direction : Sense) (now : Nat) (e : Engine) :
    (step direction now e).engine.offset = e.offset := by
  have kept := retire_offset e now
  unfold step
  dsimp only
  split
  · exact kept
  · split <;> exact kept

theorem beginWait_offset (now : Nat) (e : Engine) : (beginWait now e).engine.offset = e.offset := by
  have kept := retire_offset e now
  unfold beginWait
  dsimp only
  split <;> exact kept

theorem disable_offset (now : Nat) (e : Engine) : (disable now e).engine.offset = e.offset := by
  unfold disable
  dsimp only
  split <;> rfl

end Hardware.Engine

namespace Drives

/-- A property of the drives that stays whatever one axis does, as long as that gets no new origin. -/
structure Frame (a : Axis) (Q : Drives → Prop) : Prop where
  engaged : ∀ {α : Type} (op : Nat → Engine → Engine.Outcome α),
    (∀ now e, (op now e).engine.offset = e.offset) → Preserves Q (onPlatform (Platform.engage a op))
  retired : ∀ d, Q d → Q { d with platform := d.platform.retire a }
  advanced : ∀ us d, Q d → Q { d with platform := d.platform.advance us }
  remembered : ∀ f d, Q d → Q { d with cruise := d.cruise.modify a f }

section Frame

variable {a : Axis} {Q : Drives → Prop} (frame : Frame a Q)

include frame

private theorem isMoving_frame {ε : Type} : Preserves Q (isMoving a : Action Drives ε Bool) := by
  intro d held
  rw [run_isMoving]
  exact frame.retired d held

private theorem awaitEnd_frame : Preserves Q (onPlatform (Platform.awaitEnd a)) := by
  intro d held
  refine Platform.preserves_awaitEnd (P := fun p => Q { d with platform := p }) ?_ ?_ ?_ d.platform held
  · exact fun p kept => frame.engaged _ Engine.beginWait_offset { d with platform := p } kept
  · exact fun us p kept => frame.advanced us { d with platform := p } kept
  · exact fun p kept => frame.retired { d with platform := p } kept

private theorem awaitRest_frame : Preserves Q (awaitRest a) := by
  refine preserves_bind (isMoving_frame frame) fun _ => ?_
  exact preserves_ite (awaitEnd_frame frame) (preserves_pure ())

private theorem startMove_frame (steps : Int) (waiting : Waiting) :
    Preserves Q (startMove a steps waiting) := by
  refine preserves_ite ?_ (preserves_pure ())
  refine preserves_bind (awaitRest_frame frame) fun _ => ?_
  refine preserves_bind (frame.engaged _ (Engine.startMove_offset steps)) fun _ => ?_
  exact preserves_ite (awaitEnd_frame frame) (preserves_pure ())

private theorem setSpeed_frame (hz : Float) : Preserves Q (setSpeed a hz) := by
  refine preserves_bind (frame.engaged _ fun _ e => (Engine.setSpeed_sameMotion e hz).2.2) fun _ => ?_
  exact preserves_modify (frame.remembered _)

private theorem setAcceleration_frame (acceleration : Float) :
    Preserves Q (setAcceleration a acceleration) := by
  refine preserves_bind (frame.engaged _ fun _ e => ?_) fun _ => ?_
  · exact (Engine.setAcceleration_sameMotion e acceleration).2.2
  · exact preserves_modify (frame.remembered _)

private theorem stop_frame : Preserves Q (stop a) := by
  refine frame.engaged _ fun _ _ => ?_
  rfl

private theorem enable_frame : Preserves Q (enable a) := by
  refine frame.engaged _ fun _ e => ?_
  exact (Engine.enable_sameMotion e).2.2

private theorem disable_frame : Preserves Q (disable a) := by
  exact frame.engaged _ Engine.disable_offset

theorem launch_frame (move : JointMove) (waiting : Waiting) : Preserves Q (launch move a waiting) := by
  refine preserves_bind (awaitRest_frame frame) fun _ => ?_
  refine preserves_bind (enable_frame frame) fun _ => ?_
  refine preserves_bind (setAcceleration_frame frame _) fun _ => ?_
  refine preserves_bind (setSpeed_frame frame _) fun _ => ?_
  exact startMove_frame frame _ waiting

end Frame

section Motion

variable {Q : Drives → Prop}

/-- Axes without steps are neither launched nor stopped. -/
theorem dispatch_frame {plan : Plan} (frame : ∀ a, plan.move.steps.get a ≠ 0 → Frame a Q) :
    Preserves Q (dispatch plan) := by
  have launched : Preserves Q (launchAll plan.move (leadAxis plan.move.steps)
      (launchOrder (leadAxis plan.move.steps)) []) := by
    refine preserves_launchAll (fun a moved => ?_) (fun a moved => ?_) _ nofun
    · exact launch_frame (frame a moved) plan.move _
    · exact stop_frame (frame a moved)
  have carried : Preserves Q (carryOut plan.move) := by
    exact preserves_map launched
  exact preserves_map carried

private theorem awaitAll_frame (frame : ∀ a, Frame a Q) : Preserves Q awaitAll := by
  refine preserves_awaitAll fun a => ?_
  exact awaitRest_frame (frame a)

theorem emergencyStop_frame (frame : ∀ a, Frame a Q) : Preserves Q emergencyStop := by
  refine preserves_emergencyStop (fun a => ?_) fun a => ?_
  · exact stop_frame (frame a)
  · exact disable_frame (frame a)

end Motion

structure Impassive (P : Platform → Prop) : Prop where
  engaged : ∀ {α : Type} (a : Axis) (op : Nat → Engine → Engine.Outcome α),
    (∀ now e, (op now e).engine.offset = e.offset) → Preserves P (Platform.engage a op)
  retired : ∀ a p, P p → P (p.retire a)
  advanced : ∀ us p, P p → P (p.advance us)

theorem Impassive.frame {P : Platform → Prop} (impassive : Impassive P) (a : Axis) :
    Frame a fun d => P d.platform where
  engaged op same d held := impassive.engaged a op same d.platform held
  retired d held := impassive.retired a d.platform held
  advanced us d held := impassive.advanced us d.platform held
  remembered _ _ held := held

end Drives

namespace Homing

open Hardware.Platform (Disturbance)

/-- What no motion affects is kept by everything but homing, and the phase is too unless the machine is
stopped. -/
theorem Station.driven_of_impassive {P : Platform → Prop} (impassive : Drives.Impassive P)
    (disturbed : ∀ f, Disturbance f → (∀ p, (f p).limit.levelOverride = p.limit.levelOverride) →
      ∀ p, P p → P (f p)) (R : Phase → Prop) :
    Driven fun s => P s.drives.platform ∧ R s.phase := by
  have drives {ε α : Type} {action : Action Drives ε α}
      (kept : Preserves (fun d => P d.platform) action) (phase : Phase) :
      Preserves (fun d => P d.platform ∧ R phase) action :=
    fun d held => ⟨kept d held.1, held.2⟩
  have dispatched (plan : Plan) : Preserves (fun d => P d.platform) (Drives.dispatch plan) :=
    Drives.dispatch_frame fun a _ => impassive.frame a
  have watched : Watched fun s => P s.drives.platform ∧ R s.phase := by
    refine ⟨drives ?_, drives (Drives.awaitAll_frame impassive.frame), ?_⟩
    · exact Drives.preserves_readings fun a => Drives.isMoving_frame (impassive.frame a)
    · intro _ f disturbance same d held
      exact ⟨disturbed f disturbance same d.platform held.1, held.2⟩
  refine ⟨watched, fun phase store direction mm feed => drives ?_ phase,
    fun phase store mm feed => drives ?_ phase⟩
  · refine preserves_bind (preserves_ofExcept _) fun plan => ?_
    exact dispatched plan
  · refine preserves_bind preserves_read fun _ => ?_
    refine preserves_bind (preserves_ofExcept _) fun plan => ?_
    exact dispatched plan

structure Aside (Q : Drives → Prop) : Prop extends Drives.Frame .z Q where
  placed : Preserves Q (Drives.setOrigin .z)
  attached : Preserves Q (Drives.onPlatform (Platform.attach .homing))
  detached : ∀ d, Q d → Q { d with platform := d.platform.detach }
  signalled : ∀ flag d, Q d → Q { d with platform := { d.platform with homingSignal := flag } }

theorem Aside.invariant {Q : Drives → Prop} (aside : Aside Q) : Invariant Q where
  awaitRest := Drives.awaitRest_frame aside.toFrame
  startMove := Drives.startMove_frame aside.toFrame
  startRun := aside.engaged _ (Engine.startRun_offset .reverse)
  step := aside.engaged _ (Engine.step_offset .forward)
  stop := Drives.stop_frame aside.toFrame
  enable := Drives.enable_frame aside.toFrame
  disable := Drives.disable_frame aside.toFrame
  setSpeed := Drives.setSpeed_frame aside.toFrame
  setAcceleration := Drives.setAcceleration_frame aside.toFrame
  setOrigin := aside.placed
  attach := aside.attached
  detach := aside.detached
  delay _ := aside.advanced _
  signal := aside.signalled

theorem attach_fields (p : Platform) :
    ((Platform.attach .homing).run p).2.engines = p.engines ∧
      ((Platform.attach .homing).run p).2.logs = p.logs ∧
      ((Platform.attach .homing).run p).2.limit.trigger = p.limit.trigger ∧
      ((Platform.attach .homing).run p).2.limit.levelOverride = p.limit.levelOverride := by
  change (Platform.attach .homing p).2.engines = _ ∧ (Platform.attach .homing p).2.logs = _ ∧
    (Platform.attach .homing p).2.limit.trigger = _ ∧
    (Platform.attach .homing p).2.limit.levelOverride = _
  unfold Platform.attach
  split
  · exact ⟨rfl, rfl, rfl, rfl⟩
  · exact ⟨Platform.serve_engines _ _, Platform.serve_logs _ _, Platform.serve_trigger _ _,
      Platform.serve_levelOverride _ _⟩

/-- The switch itself: where it is, and whether it shows a level of its own. -/
theorem limit_aside (trigger : Int) (level : Option Bool) :
    Aside fun d => d.platform.limit.trigger = trigger ∧ d.platform.limit.levelOverride = level := by
  have engaged {α : Type} (op : Nat → Engine → Engine.Outcome α) :
      Preserves (fun d => d.platform.limit.trigger = trigger ∧ d.platform.limit.levelOverride = level)
        (Drives.onPlatform (Platform.engage .z op)) := by
    intro d kept
    rw [Drives.run_engage rfl]
    dsimp only
    rwa [Platform.commit_limit]
  exact {
    engaged := fun op _ => engaged op
    retired := fun _ kept => kept
    advanced := fun us d kept => by
      dsimp only
      rwa [Platform.advance_trigger, Platform.advance_levelOverride]
    remembered := fun _ _ kept => kept
    placed := engaged _
    attached := fun d kept => by
      obtain ⟨_, _, trigger, level⟩ := attach_fields d.platform
      exact ⟨trigger.trans kept.1, level.trans kept.2⟩
    detached := fun _ kept => kept
    signalled := fun _ _ kept => kept }

end Homing

namespace Drives

structure Untouched (a : Axis) (d d' : Drives) : Prop where
  engine : d'.platform.engine a = d.platform.engine a
  log : d'.platform.log a = d.platform.log a
  cruise : d'.cruise.get a = d.cruise.get a

variable {a b : Axis} {d d' d'' : Drives}

theorem untouched_refl (a : Axis) (d : Drives) : Untouched a d d := by
  exact ⟨rfl, rfl, rfl⟩

theorem Untouched.trans (first : Untouched a d d') (second : Untouched a d' d'') : Untouched a d d'' := by
  refine ⟨?_, ?_, ?_⟩
  · exact second.engine.trans first.engine
  · exact second.log.trans first.log
  · exact second.cruise.trans first.cruise

private theorem Untouched.after (untouched : Untouched a d d') {p : Platform}
    (same : p.engine a = d'.platform.engine a ∧ p.log a = d'.platform.log a) :
    Untouched a d { d' with platform := p } := by
  obtain ⟨engine, log⟩ := same
  exact ⟨engine.trans untouched.engine, log.trans untouched.log, untouched.cruise⟩

theorem Untouched.of_parts (untouched : Untouched a d d') {p : Platform}
    (engines : p.engines = d'.platform.engines) (logs : p.logs = d'.platform.logs) :
    Untouched a d { d' with platform := p } := by
  refine untouched.after ⟨?_, ?_⟩
  · exact congrArg (PerAxis.get · a) engines
  · exact congrArg (PerAxis.get · a) logs

/-- What one axis does leaves another one alone. -/
theorem untouched_engage (other : a ≠ b) {α : Type} (op : Nat → Engine → Engine.Outcome α) :
    Preserves (Untouched a d) (onPlatform (Platform.engage b op)) := by
  intro d' untouched
  rw [run_engage rfl]
  exact untouched.after (Platform.commit_onlyAt _ a other)

theorem untouched_frame (other : a ≠ b) : Frame b (Untouched a d) where
  engaged op _ := untouched_engage other op
  retired _ untouched := untouched.after ⟨Platform.retire_engine_of_ne _ b other, rfl⟩
  advanced us d' untouched :=
    untouched.of_parts (d'.platform.advance_engines us) (d'.platform.advance_logs us)
  remembered f _ untouched :=
    ⟨untouched.engine, untouched.log, (PerAxis.get_modify_of_ne _ f other).trans untouched.cruise⟩

end Drives

namespace Homing

open Drives (Untouched)

variable {a : Axis} {d : Drives}

private theorem untouched_aside (other : a ≠ .z) : Aside (Untouched a d) where
  toFrame := Drives.untouched_frame other
  placed := Drives.untouched_engage other _
  attached d' untouched := by
    obtain ⟨engines, logs, _⟩ := attach_fields d'.platform
    exact Drives.Untouched.of_parts untouched engines logs
  detached _ untouched := untouched.of_parts rfl rfl
  signalled _ _ untouched := untouched.of_parts rfl rfl

/-- Homing leaves the tracks alone. -/
theorem home_untouched (other : a ≠ .z) (limits : Limits) (store : Setting.Store) :
    Preserves (fun s => Untouched a d s.drives) (Station.home limits store) := by
  exact Station.home_keeps (untouched_aside other).invariant limits store

end Homing

end Crawler
