import Crawler.Motion.Drives
import Crawler.Proofs.Platform

/-! Waiting for a drive and starting its moves. A wait ends unless the axis is in a run without end,
and a move is handed to an engine at rest only, so that it is never dropped. -/
namespace Crawler.Drives

open Crawler.Action
open Hardware (Platform Engine)

variable {d d' : Drives} {a : Axis}

theorem run_onPlatform {ε α : Type} (action : Action Platform ε α) (d : Drives) :
    (onPlatform action).run d =
      ((action.run d.platform).1, { d with platform := (action.run d.platform).2 }) := rfl

theorem run_engage {α : Type} {op : Nat → Engine → Engine.Outcome α} {outcome : Engine.Outcome α}
    (came : op d.platform.now (d.platform.engine a) = outcome) :
    (onPlatform (Platform.engage a op)).run d =
      (outcome.result, { d with platform := d.platform.commit a outcome }) := by
  rw [run_onPlatform, Platform.run_engage, came]

theorem engage_ok {α : Type} {op : Nat → Engine → Engine.Outcome α} {answer : α}
    (ran : (onPlatform (Platform.engage a op)).run d = (.ok answer, d')) :
    (op d.platform.now (d.platform.engine a)).result = .ok answer ∧
      d'.platform = d.platform.commit a (op d.platform.now (d.platform.engine a)) := by
  rw [run_engage rfl] at ran
  obtain ⟨answered, rfl⟩ := Prod.mk.inj ran
  exact ⟨answered, rfl⟩

theorem run_isMoving {ε : Type} (a : Axis) (d : Drives) :
    (isMoving a : Action Drives ε Bool).run d =
      (.ok ((d.platform.engine a).retire d.platform.now).isMoving,
        { d with platform := d.platform.retire a }) := by
  unfold isMoving
  rw [run_onPlatform, Platform.run_queryMoving]

theorem run_awaitRest (bounded : (d.platform.engine a).Bounded) :
    (awaitRest a).run d = (.ok (), { d with platform := d.platform.awaited a }) := by
  have asked := run_isMoving (ε := Hardware.Fault) a d
  unfold awaitRest
  rcases Engine.retire_cases bounded d.platform.now with ⟨past, retired⟩ | ⟨ahead, retired⟩
  · have still : ((d.platform.engine a).retire d.platform.now).isMoving = false := by
      rw [retired]
      rfl
    rw [run_bind_ok asked, still, if_neg (by simp)]
    have reached : d.platform.awaited a = d.platform.retire a := by
      unfold Platform.awaited
      rw [if_neg (by omega)]
    rw [reached]
    rfl
  · have moving : ((d.platform.engine a).retire d.platform.now).isMoving = true := by
      rw [retired]
      cases motion : (d.platform.engine a).motion with
      | idle => simp [Engine.restTime, motion] at ahead
      | run r => exact absurd motion (bounded r)
      | move m => simp [Engine.isMoving, motion]
    rw [run_bind_ok asked, moving, if_pos rfl, run_onPlatform,
      Platform.retire_eq_self d.platform a retired, Platform.run_awaitEnd _ _ bounded]

theorem run_awaitRest_of_run {r : Hardware.Run} (running : (d.platform.engine a).motion = .run r) :
    (awaitRest a).run d = (.error (.endlessWait (d.platform.engine a).name), d) := by
  have asked := run_isMoving (ε := Hardware.Fault) a d
  have retired := Engine.retire_of_run running d.platform.now
  have moving : ((d.platform.engine a).retire d.platform.now).isMoving = true := by
    rw [retired]
    simp [Engine.isMoving, running]
  unfold awaitRest
  rw [run_bind_ok asked, moving, if_pos rfl, run_onPlatform,
    Platform.retire_eq_self d.platform a retired, Platform.run_awaitEnd_of_run running]

theorem awaitRest_cases (d : Drives) (a : Axis) :
    ((d.platform.engine a).Bounded ∧
        (awaitRest a).run d = (.ok (), { d with platform := d.platform.awaited a })) ∨
      ∃ fault, (awaitRest a).run d = (.error fault, d) := by
  cases motion : (d.platform.engine a).motion with
  | idle =>
    have bounded := Engine.bounded_of_idle motion
    exact .inl ⟨bounded, run_awaitRest bounded⟩
  | move m =>
    have bounded := Engine.bounded_of_move motion
    exact .inl ⟨bounded, run_awaitRest bounded⟩
  | run r => exact .inr ⟨_, run_awaitRest_of_run motion⟩

section Start

open Hardware.Platform (Settled)

def attend (waiting : Waiting) (a : Axis) (p : Platform) : Platform :=
  if waiting = .attended then p.awaited a else p

def moved (a : Axis) (steps : Int) (p : Platform) : Platform :=
  p.commit a ⟨(p.engine a).started steps p.now, some (.moveStarted steps (p.engine a).speed),
    (.ok () : Except Hardware.Fault Unit)⟩

theorem run_startMove_of_fit (fit : (d.platform.engine a).Fit) {steps : Int} (some_steps : steps ≠ 0)
    (waiting : Waiting) :
    (startMove a steps waiting).run d =
      (.ok (), { d with platform := attend waiting a (moved a steps d.platform) }) := by
  have waited : (awaitRest a).run d = (.ok (), d) := by
    rw [run_awaitRest (Engine.bounded_of_idle fit.idle), Platform.awaited_of_idle fit.idle]
  have asked : (onPlatform (Platform.startMove a steps)).run d = _ :=
    run_engage (Engine.startMove_of_fit fit some_steps _)
  unfold startMove
  rw [if_pos some_steps, run_bind_ok waited, run_bind_ok asked]
  cases waiting with
  | unattended => rfl
  | attended =>
    have bounded : ((moved a steps d.platform).engine a).Bounded := by
      unfold moved
      rw [Platform.commit_engine]
      exact Engine.started_bounded _ _ _
    have finished := Platform.run_awaitEnd _ _ bounded
    unfold moved at finished
    rw [if_pos rfl, run_onPlatform, finished]
    rfl

theorem startMove_cases (idle : (d.platform.engine a).motion = .idle) {steps : Int}
    (some_steps : steps ≠ 0) (waiting : Waiting) :
    ((d.platform.engine a).Fit ∧
        (startMove a steps waiting).run d =
          (.ok (), { d with platform := attend waiting a (moved a steps d.platform) })) ∨
      ∃ q fault, (startMove a steps waiting).run d = (.error fault, { d with platform := q }) ∧
        Settled a d.platform q := by
  rcases Engine.startMove_cases idle some_steps d.platform.now with
    ⟨fit, _⟩ | ⟨e', occurrence, fault, outcome, same, quiet⟩
  · exact .inl ⟨fit, run_startMove_of_fit fit some_steps waiting⟩
  · have waited : (awaitRest a).run d = (.ok (), d) := by
      rw [run_awaitRest (Engine.bounded_of_idle idle), Platform.awaited_of_idle idle]
    have asked : (onPlatform (Platform.startMove a steps)).run d = _ := run_engage outcome
    unfold startMove
    rw [if_pos some_steps, run_bind_ok waited]
    exact .inr ⟨_, fault, run_bind_error asked,
      Platform.commit_settled (Platform.settled_of_idle idle) same quiet⟩

end Start

section Prepare

open Hardware.Platform (Settled)

variable {p : Platform}

private theorem engage_settled {α : Type} (op : Nat → Engine → Engine.Outcome α)
    (settled : Settled a p d.platform)
    (same : Engine.SameMotion (d.platform.engine a) (op d.platform.now (d.platform.engine a)).engine)
    (quiet : ∀ what ∈ (op d.platform.now (d.platform.engine a)).occurrence, what.Uneventful) :
    ∃ q, (onPlatform (Platform.engage a op)).run d =
        ((op d.platform.now (d.platform.engine a)).result, { d with platform := q }) ∧
      Settled a p q ∧ q.engine a = (op d.platform.now (d.platform.engine a)).engine := by
  refine ⟨_, run_engage rfl, ?_, Platform.commit_engine _ _ _⟩
  exact Platform.commit_settled settled same quiet

theorem enable_settled (settled : Settled a p d.platform) :
    ∃ q, (enable a).run d = (.ok (), { d with platform := q }) ∧ Settled a p q ∧
      (q.engine a).enabled = true := by
  obtain ⟨q, ran, kept, became⟩ := engage_settled (fun _ => Engine.enable) settled
    (Engine.enable_sameMotion _) (Engine.enable_uneventful _)
  rw [Engine.enable_result] at ran
  exact ⟨q, ran, kept, became ▸ Engine.enable_enabled _⟩

/-- An engine at rest takes a setting or refuses it, and its drive remembers what was taken. -/
theorem prepare_settled {op : Engine → Engine.Outcome Unit} {remember : Drives → Drives}
    {result : Except Hardware.Fault Unit} (settled : Settled a p d.platform)
    (ran : (do
      onPlatform (Platform.engage a fun _ => op)
      .modify remember : Action Drives Hardware.Fault Unit).run d = (result, d'))
    (same : ∀ e, Engine.SameMotion e (op e).engine)
    (quiet : ∀ e, ∀ what ∈ (op e).occurrence, what.Uneventful)
    (kept : ∀ d, (remember d).platform = d.platform) :
    Settled a p d'.platform ∧
      (result = .ok () → (op (d.platform.engine a)).result = .ok () ∧
        d'.platform.engine a = (op (d.platform.engine a)).engine) := by
  obtain ⟨q, engaged, still, became⟩ := engage_settled (fun _ => op) settled (same _) (quiet _)
  cases came : (op (d.platform.engine a)).result with
  | ok u =>
    rw [came] at engaged
    rw [run_bind_ok engaged] at ran
    cases ran
    refine ⟨?_, fun _ => ⟨rfl, ?_⟩⟩ <;> rwa [kept]
  | error fault =>
    rw [came] at engaged
    rw [run_bind_error engaged] at ran
    cases ran
    exact ⟨still, nofun⟩

theorem setAcceleration_settled {result : Except Hardware.Fault Unit} {acceleration : Float}
    (settled : Settled a p d.platform)
    (ran : (setAcceleration a acceleration).run d = (result, d')) : Settled a p d'.platform := by
  have same (e : Engine) := Engine.setAcceleration_sameMotion e acceleration
  have quiet (e : Engine) := Engine.setAcceleration_uneventful e acceleration
  exact (prepare_settled settled ran same quiet fun _ => rfl).1

theorem setSpeed_settled {result : Except Hardware.Fault Unit} {hz : Float}
    (settled : Settled a p d.platform) (ran : (setSpeed a hz).run d = (result, d')) :
    Settled a p d'.platform ∧ (result = .ok () → (d'.platform.engine a).speed = hz) := by
  obtain ⟨still, became⟩ := prepare_settled settled ran
    (fun e => Engine.setSpeed_sameMotion e hz) (fun e => Engine.setSpeed_uneventful e hz) fun _ => rfl
  refine ⟨still, fun taken => ?_⟩
  obtain ⟨fit, engine⟩ := became taken
  rw [engine, (Engine.setSpeed_ok _ fit).2]

end Prepare

end Crawler.Drives
