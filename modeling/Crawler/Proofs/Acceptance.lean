import Crawler.Proofs.FeedCeiling
import Crawler.Proofs.Precision

/-! Plans are carried out. What a plan asks of an engine the engine takes: the speed and the acceleration
come from settings of single precision, which are checked before a plan is made, and the move starts
at rest with the driver powered. -/
namespace Crawler

open Crawler.Action
open Number (Reads Magnitude Spans)

namespace Hardware.Engine

theorem run_setSpeed {hz : Float} (fit : isSpeed hz = true) (e : Engine) :
    setSpeed hz e = ⟨{ e with speed := hz }, some (.speedSet hz), .ok ()⟩ := by
  unfold setSpeed
  rw [if_pos fit]

theorem run_setAcceleration {x : Float} (fit : isSpeed x = true) (e : Engine) :
    setAcceleration x e = ⟨{ e with acceleration := x }, some (.accelerationSet x), .ok ()⟩ := by
  unfold setAcceleration
  rw [if_pos fit]

theorem enable_nextFault (e : Engine) : (enable e).engine.nextFault = e.nextFault := by
  unfold enable
  split <;> rfl

end Hardware.Engine

namespace Setting.Store

variable {store : Store} {key : Key} {x : Float}

theorem float_single (read : store.float key = .ok x) : ∃ y, x = Number.widen y := by
  obtain ⟨value, _, read⟩ := except_bind_eq_ok.mp read
  cases value with
  | float y =>
    cases read
    exact ⟨y, rfl⟩
  | int n => cases read
  | short n => cases read
  | bool b => cases read

end Setting.Store

namespace Plan

open Setting (Store Snapshot)
open Hardware (Engine)

variable {store : Store} {settings : Snapshot} {plan : Plan} {mm requested : Float} {a : Axis}

structure Executable (plan : Plan) : Prop where
  acceleration : ∀ a, plan.move.steps.get a ≠ 0 →
    Engine.isSpeed (plan.move.acceleration.get a) = true
  some_hz : ∀ a, plan.move.steps.get a ≠ 0 → 1 ≤ plan.move.hz.get a
  hz : ∀ a, plan.move.hz.get a < UInt32.size

/-- An acceleration in steps is the product of two settings, which it does not come close to losing. -/
theorem stepAcceleration_reads (based : motionSettings store = .ok settings) (a : Axis) :
    ∃ A, Reads (Units.stepAcceleration (settings.axes.get a).acceleration
      (settings.axes.get a).stepsPerMm) A ∧ Spans (-300) 258 A.value := by
  obtain ⟨loaded, passed⟩ := motionSettings_ok based
  obtain ⟨scale, _, acceleration, _⟩ := axisLoad_ok ((snapshot_taken loaded).axes a)
  obtain ⟨scale_pos, _, acceleration_pos, _⟩ := axisValidate_ok ((checkMotion_checked passed).axes a)
  obtain ⟨_, single⟩ := Store.float_single acceleration
  obtain ⟨_, single'⟩ := Store.float_single scale
  rw [single] at acceleration_pos ⊢
  rw [single'] at scale_pos ⊢
  obtain ⟨M, read, least, most⟩ := Number.exists_single acceleration_pos
  obtain ⟨N, read', least', most'⟩ := Number.exists_single scale_pos
  have spans : Spans (-298) 256 (M.value * N.value) := Spans.mul ⟨least, most.le⟩ ⟨least', most'.le⟩
  obtain ⟨A, product, near⟩ := Number.mul_near read read' (Number.near_refl _) (by decide)
    (spans.widen (by decide) (by decide))
  exact ⟨A, product, (near.spans spans (by decide)).widen (by decide) (by decide)⟩

private theorem stepAcceleration_isSpeed (based : motionSettings store = .ok settings) (a : Axis) :
    Engine.isSpeed (Units.stepAcceleration (settings.axes.get a).acceleration
      (settings.axes.get a).stepsPerMm) = true := by
  obtain ⟨_, read, _⟩ := stepAcceleration_reads based a
  exact Number.isSpeed_of_reads read

private theorem ofDrive_executable {direction : Direction}
    (made : ofDrive store direction mm requested = .ok plan) : Executable plan := by
  have governed := ofDrive_governed made
  obtain ⟨settings, left, right, basis, rfl⟩ := ofDrive_ok made
  refine ⟨fun a moved => ?_, fun a moved => (governed.moves a moved).2.some, fun a => ?_⟩
  · cases a with
    | left => exact stepAcceleration_isSpeed basis.based .left
    | right => exact stepAcceleration_isSpeed basis.based .right
    | z => exact absurd rfl moved
  · cases a with
    | left => exact Units.frequency_lt _ _
    | right => exact Units.frequency_lt _ _
    | z => exact Nat.two_pow_pos 32

private theorem ofDepth_executable {position : Int}
    (made : ofDepth store position mm requested = .ok plan) :
    Executable plan := by
  have governed := ofDepth_governed made
  obtain ⟨settings, steps, basis, rfl⟩ := ofDepth_ok made
  refine ⟨fun a moved => ?_, fun a moved => (governed.moves a moved).2.some, fun a => ?_⟩
  · cases a with
    | left => exact absurd rfl moved
    | right => exact absurd rfl moved
    | z => exact stepAcceleration_isSpeed basis.based .z
  · cases a with
    | left => exact Nat.two_pow_pos 32
    | right => exact Nat.two_pow_pos 32
    | z => exact Units.frequency_lt _ _

end Plan

namespace Drives

open Hardware (Platform Engine)

variable {d : Drives} {a : Axis} {move : JointMove} {lead : Axis}

/-- A setting that the engine takes is taken, and the rest of the engine is left alone. -/
theorem run_prepare {op : Engine → Engine.Outcome Unit} {remember : Drives → Drives}
    (taken : (op (d.platform.engine a)).result = .ok ()) (kept : ∀ d, (remember d).platform = d.platform) :
    ∃ d', (do
        onPlatform (Platform.engage a fun _ => op)
        .modify remember : Action Drives Hardware.Fault Unit).run d = (.ok (), d') ∧
      d'.platform.engine a = (op (d.platform.engine a)).engine := by
  have engaged : (onPlatform (Platform.engage a fun _ => op)).run d = _ := run_engage rfl
  rw [taken] at engaged
  refine ⟨_, run_bind_ok engaged, ?_⟩
  rw [kept]
  exact Platform.commit_engine _ _ _

private theorem run_setAcceleration {x : Float} (fit : Engine.isSpeed x = true) :
    ∃ d', (setAcceleration a x).run d = (.ok (), d') ∧
      d'.platform.engine a = { d.platform.engine a with acceleration := x } := by
  have taken := Engine.run_setAcceleration fit (d.platform.engine a)
  have ran : ∃ d', (setAcceleration a x).run d = (.ok (), d') ∧ d'.platform.engine a = _ :=
    run_prepare (by rw [taken]) fun _ => rfl
  rwa [taken] at ran

private theorem run_setSpeed {hz : Float} (fit : Engine.isSpeed hz = true) :
    ∃ d', (setSpeed a hz).run d = (.ok (), d') ∧
      d'.platform.engine a = { d.platform.engine a with speed := hz } := by
  have taken := Engine.run_setSpeed fit (d.platform.engine a)
  have ran : ∃ d', (setSpeed a hz).run d = (.ok (), d') ∧ d'.platform.engine a = _ :=
    run_prepare (by rw [taken]) fun _ => rfl
  rwa [taken] at ran

/-- An axis without power is given it first. -/
theorem launch_accepted (bounded : (d.platform.engine a).Bounded)
    (faultless : (d.platform.engine a).nextFault = none) (some_steps : move.steps.get a ≠ 0)
    (acceleration : Engine.isSpeed (move.acceleration.get a) = true) (some_hz : 1 ≤ move.hz.get a)
    (hz : move.hz.get a < UInt32.size) (waiting : Waiting) :
    ∃ d', (launch move a waiting).run d = (.ok (), d') := by
  obtain ⟨_, read, _⟩ := Number.ofInt_reads some_hz (hz.trans (by decide))
  have rested := Platform.awaited_engine bounded
  have enabled : (enable a).run { d with platform := d.platform.awaited a } = _ := run_engage rfl
  rw [Engine.enable_result] at enabled
  set powered := (d.platform.awaited a).commit a (Engine.enable ((d.platform.awaited a).engine a))
  have ready : powered.engine a = (Engine.enable ((d.platform.awaited a).engine a)).engine :=
    Platform.commit_engine _ _ _
  obtain ⟨d₁, accelerated, engine₁⟩ :=
    run_setAcceleration (d := { d with platform := powered }) (a := a) acceleration
  obtain ⟨d₂, paced, engine₂⟩ := run_setSpeed (d := d₁) (a := a) (Number.isSpeed_of_reads read)
  have fit : (d₂.platform.engine a).Fit := by
    rw [engine₂, engine₁, ready]
    refine ⟨?_, Engine.enable_enabled _, ?_, Number.not_le_zero_of_reads read⟩
    · exact (Engine.enable_sameMotion _).1.trans (by rw [rested])
    · exact (Engine.enable_nextFault _).trans (by rw [rested, faultless])
  unfold launch
  rw [run_bind_ok (run_awaitRest bounded), run_bind_ok enabled, run_bind_ok accelerated,
    run_bind_ok paced]
  exact ⟨_, run_startMove_of_fit fit some_steps waiting⟩

private theorem launchAll_accepted {plan : Plan} (executable : plan.Executable) {axes started : List Axis}
    (distinct : axes.Nodup) (bounded : Platform.Bounded d.platform)
    (faultless : ∀ a ∈ axes, plan.move.steps.get a ≠ 0 → (d.platform.engine a).nextFault = none) :
    ∃ d', (launchAll plan.move lead axes started).run d = (.ok (), d') := by
  induction axes generalizing d started with
  | nil => exact ⟨d, rfl⟩
  | cons a rest ih =>
    obtain ⟨apart, distinct⟩ := List.nodup_cons.mp distinct
    by_cases still : plan.move.steps.get a = 0
    · rw [launchAll_skip still]
      exact ih distinct bounded fun b inside => faultless b (List.mem_cons_of_mem _ inside)
    · obtain ⟨next, ran⟩ := launch_accepted (bounded a) (faultless a List.mem_cons_self still) still
        (executable.acceleration a still) (executable.some_hz a still) (executable.hz a)
        (waitingOf lead a)
      have launched := launch_ok still ran
      rw [run_launchAll_of_ok still ran]
      refine ih distinct (launched_bounded launched bounded) fun b inside moved => ?_
      -- The axes that are still to come were not touched.
      have other : b ≠ a := fun same => apart (same ▸ inside)
      rw [(launched.elsewhere b other).1]
      exact faultless b (List.mem_cons_of_mem _ inside) moved

private theorem dispatch_accepted {plan : Plan} (executable : plan.Executable)
    (bounded : Platform.Bounded d.platform)
    (faultless : ∀ a, plan.move.steps.get a ≠ 0 → (d.platform.engine a).nextFault = none) :
    ∃ d', (dispatch plan).run d = (.ok ⟨plan.move, leadAxis plan.move.steps, plan.feed⟩, d') := by
  have distinct : (launchOrder (leadAxis plan.move.steps)).Nodup := by
    cases leadAxis plan.move.steps <;> decide
  obtain ⟨d', launched⟩ : ∃ d', (launchAll plan.move (leadAxis plan.move.steps)
      (launchOrder (leadAxis plan.move.steps)) []).run d = (.ok (), d') :=
    launchAll_accepted executable distinct bounded fun a _ => faultless a
  have carried : (carryOut plan.move).run d = (.ok (leadAxis plan.move.steps), d') :=
    run_bind_ok launched
  exact ⟨d', run_bind_ok carried⟩

theorem Course.plan_executable {store : Setting.Store} {course : Course} {position : Int}
    {mm feed : Float} {plan : Plan} (made : course.plan store position mm feed = .ok plan) :
    plan.Executable := by
  cases course with
  | drive direction => exact Plan.ofDrive_executable made
  | depth => exact Plan.ofDepth_executable made

/-- A plan that is made is carried out, unless an axis runs on without end or a fault is waiting for one
that is to move: every axis with steps starts them at its frequency, also one whose power was taken
before. -/
theorem planned_runs {store : Setting.Store} {course : Course} {mm feed : Float} {plan : Plan}
    (made : course.plan store (d.position .z) mm feed = .ok plan)
    (bounded : Platform.Bounded d.platform)
    (faultless : ∀ a, plan.move.steps.get a ≠ 0 → (d.platform.engine a).nextFault = none) :
    ∃ d', (course.run store mm feed).run d =
        (.ok ⟨plan.move, leadAxis plan.move.steps, plan.feed⟩, d') ∧
      ∀ a, (startsSince d.platform d'.platform a).map (·.what) =
        if plan.move.steps.get a = 0 then []
        else [.moveStarted (plan.move.steps.get a) (Number.ofInt (plan.move.hz.get a))] := by
  obtain ⟨d', dispatched⟩ := dispatch_accepted (Course.plan_executable made) bounded faultless
  refine ⟨d', ?_, (dispatch_told dispatched).2⟩
  rw [course.run_eq, made]
  exact dispatched

def halted : Drives :=
  let moving := ((Course.drive .turnLeft).run (Machine.factory .softLimits "0") 10 600).run
    (fresh (.fresh ⟨26, 14, 17⟩ (-2000)))
  (emergencyStop.run moving.2).2

theorem halted_runs :
    (∀ a, halted.isPowered a = false) ∧ ∃ d', ∃ receipt,
      (Course.depth.run (Machine.factory .softLimits "0") 1 100).run halted = (.ok receipt, d') := by
  have state : ∀ a ∈ Axis.all, halted.isPowered a = false ∧ (halted.platform.engine a).Bounded ∧
      (halted.platform.engine a).nextFault = none := by decide +kernel
  refine ⟨fun a => (state a a.mem_all).1, ?_⟩
  cases made : Course.depth.plan (Machine.factory .softLimits "0") (halted.position .z) 1 100 with
  | error fault =>
    have some_plan : (Course.depth.plan (Machine.factory .softLimits "0") (halted.position .z) 1
        100).isOk = true := by decide +kernel
    rw [made] at some_plan
    cases some_plan
  | ok plan =>
    obtain ⟨d', ran, _⟩ := planned_runs made (fun a => (state a a.mem_all).2.1)
      fun a _ => (state a a.mem_all).2.2
    exact ⟨d', _, ran⟩

end Drives

end Crawler
