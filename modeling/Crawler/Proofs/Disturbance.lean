import Crawler.Hardware.Operation
import Crawler.Proofs.Platform

/-! What a call leaves of an engine when it fails. The engine goes on as if it had not been called, with
one exception: a run is prepared by stopping what is in flight, before anything is checked, so a run that
is refused ends a motion that nobody asked to end. -/
namespace Crawler.Hardware

open Crawler.Action

namespace Engine

structure Undisturbed (now : Nat) (e f : Engine) : Prop where
  position : ∀ later, now ≤ later → f.positionAt later = e.positionAt later
  moving : ∀ later, now ≤ later → (f.retire later).isMoving = (e.retire later).isMoving

structure SameSettings (e f : Engine) : Prop where
  name : f.name = e.name
  offset : f.offset = e.offset
  enabled : f.enabled = e.enabled
  speed : f.speed = e.speed
  acceleration : f.acceleration = e.acceleration

inductive Call.Fails (now : Nat) (e : Engine) : Call → Fault → Engine → Option Occurrence → Prop
  | setSpeed (hz) : Fails now e (.setSpeed hz) (.speedOutOfRange e.name hz) e none
  | setAcceleration (x) : Fails now e (.setAcceleration x) (.accelerationOutOfRange e.name x) e none
  | startMove (steps fault) : Fails now e (.startMove steps) fault (e.retire now) none
  | rejection (steps reason) (pending : e.nextFault = some reason) :
      Fails now e (.startMove steps) (.moveRejected e.name reason)
        { e.retire now with nextFault := none } (some (.moveRejected steps))
  | startRun (direction fault) : Fails now e (.startRun direction) fault (e.freeze now) none
  | awaitEnd (fault) : Fails now e .awaitEnd fault e none
  | step (direction fault) : Fails now e (.step direction) fault (e.retire now) none

variable {now : Nat} {e : Engine} {fault : Fault}

private theorem setSpeed_fails {hz : Float} (failed : (setSpeed hz e).result = .error fault) :
    Call.Fails now e (.setSpeed hz) fault (setSpeed hz e).engine (setSpeed hz e).occurrence := by
  unfold setSpeed at failed ⊢
  split at failed
  · cases failed
  · next unfit =>
    rw [if_neg unfit]
    cases failed
    exact .setSpeed hz

private theorem setAcceleration_fails {x : Float} (failed : (setAcceleration x e).result = .error fault) :
    Call.Fails now e (.setAcceleration x) fault (setAcceleration x e).engine
      (setAcceleration x e).occurrence := by
  unfold setAcceleration at failed ⊢
  split at failed
  · cases failed
  · next unfit =>
    rw [if_neg unfit]
    cases failed
    exact .setAcceleration x

private theorem startMove_fails {steps : Int} (failed : (startMove steps now e).result = .error fault) :
    Call.Fails now e (.startMove steps) fault (startMove steps now e).engine
      (startMove steps now e).occurrence := by
  unfold startMove at failed ⊢
  dsimp only at failed ⊢
  split at failed
  · next unpowered =>
    rw [if_pos unpowered]
    exact .startMove steps fault
  · next powered =>
    rw [if_neg powered]
    split at failed
    · next reason pending =>
      rw [retire_nextFault] at pending
      rw [retire_name] at failed
      cases failed
      exact .rejection steps reason pending
    · split at failed
      · cases failed
      · next some_steps =>
        rw [if_neg some_steps]
        split at failed
        · cases failed
        · next still =>
          rw [if_neg still]
          split at failed
          · next slow =>
            rw [if_pos slow]
            exact .startMove steps fault
          · cases failed

private theorem startRun_fails {direction : Sense}
    (failed : (startRun direction now e).result = .error fault) :
    Call.Fails now e (.startRun direction) fault (startRun direction now e).engine
      (startRun direction now e).occurrence := by
  unfold startRun at failed ⊢
  dsimp only at failed ⊢
  split at failed
  · next unpowered =>
    rw [if_pos unpowered]
    exact .startRun direction fault
  · next powered =>
    rw [if_neg powered]
    split at failed
    · next slow =>
      rw [if_pos slow]
      exact .startRun direction fault
    · cases failed

private theorem step_fails {direction : Sense} (failed : (step direction now e).result = .error fault) :
    Call.Fails now e (.step direction) fault (step direction now e).engine
      (step direction now e).occurrence := by
  unfold step at failed ⊢
  dsimp only at failed ⊢
  split at failed
  · next unpowered =>
    rw [if_pos unpowered]
    exact .step direction fault
  · next powered =>
    rw [if_neg powered]
    split at failed
    · next moving =>
      rw [if_pos moving]
      exact .step direction fault
    · cases failed

private theorem undisturbed_retire (now : Nat) (e : Engine) : Undisturbed now e (e.retire now) where
  position later le := by
    unfold positionAt
    rw [e.absoluteAt_retire_of_le le, e.retire_offset]
  moving later le := by rw [e.retire_retire_of_le le]

private theorem undisturbed_rejection (now : Nat) (e : Engine) :
    Undisturbed now e { e.retire now with nextFault := none } where
  position := (undisturbed_retire now e).position
  moving later le := by
    have told := (e.retire now).retire_comm later (fun e => { e with nextFault := none }) fun _ _ _ => rfl
    rw [told]
    exact (undisturbed_retire now e).moving later le

/-- Being stopped is noticed by an engine that moves, and by no other. -/
theorem undisturbed_freeze_iff :
    Undisturbed now e (e.freeze now) ↔ (e.retire now).isMoving = false := by
  constructor
  · intro undisturbed
    exact (undisturbed.moving now (Nat.le_refl now)).symm
  · intro still
    rw [freeze_of_still e now still]
    exact undisturbed_retire now e

private theorem Call.Fails.settings {call : Call} {f : Engine} {what : Option Occurrence}
    (fails : Call.Fails now e call fault f what) : SameSettings e f := by
  have retired : SameSettings e (e.retire now) := by
    rw [retire_fields]
    exact ⟨rfl, rfl, rfl, rfl, rfl⟩
  cases fails with
  | startMove | step => exact retired
  | rejection => exact { retired with }
  | _ => exact ⟨rfl, rfl, rfl, rfl, rfl⟩

private theorem Call.Fails.undisturbed_iff {call : Call} {f : Engine} {what : Option Occurrence}
    (fails : Call.Fails now e call fault f what) :
    Undisturbed now e f ↔ ∀ direction, call = .startRun direction → (e.retire now).isMoving = false := by
  cases fails with
  | setSpeed | setAcceleration | awaitEnd => exact ⟨fun _ => nofun, fun _ => ⟨fun _ _ => rfl, fun _ _ => rfl⟩⟩
  | startMove | step => exact ⟨fun _ => nofun, fun _ => undisturbed_retire now e⟩
  | rejection => exact ⟨fun _ => nofun, fun _ => undisturbed_rejection now e⟩
  | startRun direction =>
    rw [undisturbed_freeze_iff]
    exact ⟨fun still _ _ => still, fun still => still direction rfl⟩

end Engine

namespace Platform

variable {p q : Platform} {a : Axis} {call : Engine.Call} {fault : Fault}

/-- A call fails as the operation of its engine does. -/
theorem engage_fails (op : Nat → Engine → Engine.Outcome Unit)
    (failed : (engage a op).run p = (.error fault, q))
    (fails : (op p.now (p.engine a)).result = .error fault →
      Engine.Call.Fails p.now (p.engine a) call fault (op p.now (p.engine a)).engine
        (op p.now (p.engine a)).occurrence) :
    ∃ outcome : Engine.Outcome Unit, p.commit a outcome = q ∧
      Engine.Call.Fails p.now (p.engine a) call fault outcome.engine outcome.occurrence := by
  rw [run_engage] at failed
  obtain ⟨refused, left⟩ := Prod.mk.inj failed
  exact ⟨_, left, fails refused⟩

private theorem awaitEnd_failed (failed : (awaitEnd a).run p = (.error fault, q)) : q = p := by
  cases motion : (p.engine a).motion with
  | run r =>
    rw [run_awaitEnd_of_run motion] at failed
    exact (Prod.mk.inj failed).2.symm
  | idle =>
    rw [run_awaitEnd p a (Engine.bounded_of_idle motion)] at failed
    cases failed
  | move m =>
    rw [run_awaitEnd p a (Engine.bounded_of_move motion)] at failed
    cases failed

private theorem call_fails (failed : (call.action a).run p = (.error fault, q)) :
    ∃ outcome : Engine.Outcome Unit, p.commit a outcome = q ∧
      Engine.Call.Fails p.now (p.engine a) call fault outcome.engine outcome.occurrence := by
  cases call with
  | setSpeed hz => exact engage_fails (fun _ => Engine.setSpeed hz) failed Engine.setSpeed_fails
  | setAcceleration acceleration =>
    exact engage_fails (fun _ => Engine.setAcceleration acceleration) failed Engine.setAcceleration_fails
  | startMove steps => exact engage_fails (Engine.startMove steps) failed Engine.startMove_fails
  | startRun direction => exact engage_fails (Engine.startRun direction) failed Engine.startRun_fails
  | step direction => exact engage_fails (Engine.step direction) failed Engine.step_fails
  | awaitEnd =>
    rw [awaitEnd_failed failed]
    exact ⟨⟨p.engine a, none, .ok ()⟩, p.set_engine a, .awaitEnd fault⟩
  | stop => exact engage_fails Engine.stop failed nofun
  | setPosition position => exact engage_fails (Engine.setPosition position) failed nofun
  | enable =>
    refine engage_fails (fun _ => Engine.enable) failed fun refused => ?_
    rw [Engine.enable_result] at refused
    cases refused
  | disable =>
    refine engage_fails Engine.disable failed fun refused => ?_
    unfold Engine.disable at refused
    dsimp only at refused
    split at refused <;> cases refused

/-- What a failed call wrote: nothing, or that a fault that was waiting for a move has rejected one. -/
def OnlyRejection (call : Engine.Call) (a : Axis) (fault : Fault) (p q : Platform) : Prop :=
  ((q.engine a).nextFault = (p.engine a).nextFault ∧ q.log a = p.log a ∧ q.eventCount = p.eventCount) ∨
    ∃ steps reason, call = .startMove steps ∧ fault = .moveRejected (p.engine a).name reason ∧
      (p.engine a).nextFault = some reason ∧ (q.engine a).nextFault = none ∧
      (q.log a).toList = (p.log a).toList ++ [⟨p.eventCount, p.now, .moveRejected steps⟩] ∧
      q.eventCount = p.eventCount + 1

private theorem onlyRejection_of_fails {outcome : Engine.Outcome Unit}
    (fails : Engine.Call.Fails p.now (p.engine a) call fault outcome.engine outcome.occurrence) :
    OnlyRejection call a fault p (p.commit a outcome) := by
  obtain ⟨f, what, result⟩ := outcome
  unfold OnlyRejection
  rw [commit_engine]
  cases fails with
  | rejection steps reason pending =>
    exact .inr ⟨steps, reason, rfl, rfl, pending, rfl, p.commit_log a _, rfl⟩
  | startMove | step => exact .inl ⟨Engine.retire_nextFault _ _, rfl, rfl⟩
  | _ => exact .inl ⟨rfl, rfl, rfl⟩

/-- A failed call touches the motion of one engine at most, and of that one only when it was to start a
run: what was in flight has ended then where it was. -/
theorem failed_undisturbed_iff (failed : (call.action a).run p = (.error fault, q)) :
    (q.now = p.now ∧ q.limit = p.limit ∧ q.homingSignal = p.homingSignal ∧ OnlyAt a p q) ∧
      OnlyRejection call a fault p q ∧ Engine.SameSettings (p.engine a) (q.engine a) ∧
      (Engine.Undisturbed p.now (p.engine a) (q.engine a) ↔
        ∀ direction, call = .startRun direction → ((p.engine a).retire p.now).isMoving = false) ∧
      ∀ direction, call = .startRun direction → q.engine a = (p.engine a).freeze p.now := by
  obtain ⟨outcome, rfl, fails⟩ := call_fails failed
  refine ⟨⟨commit_now _ _ _, commit_limit _ _ _, commit_homingSignal _ _ _, commit_onlyAt outcome⟩,
    onlyRejection_of_fails fails, ?_⟩
  rw [commit_engine]
  refine ⟨fails.settings, fails.undisturbed_iff, ?_⟩
  rintro direction rfl
  obtain ⟨f, what, result⟩ := outcome
  cases fails
  rfl

def coasting : Platform :=
  (answers [.call .z (.setSpeed 1000), .call .z (.startMove 1000), .pass (.advance 100000),
    .call .z (.setSpeed 0)] (fresh ⟨26, 14, 17⟩ (-2000))).2

private theorem coasting_refused :
    ((Engine.Call.startRun .forward).action .z).run coasting =
      (.error (.speedNotSet "z@gpio17"), (((Engine.Call.startRun .forward).action .z).run coasting).2) := by
  refine run_eq_of_result ?_
  decide +kernel

theorem coasting_stopped :
    ((coasting.engine .z).retire coasting.now).isMoving = true ∧
      ¬ Engine.Undisturbed coasting.now (coasting.engine .z)
        ((((Engine.Call.startRun .forward).action .z).run coasting).2.engine .z) := by
  have moving : ((coasting.engine .z).retire coasting.now).isMoving = true := by decide +kernel
  obtain ⟨_, _, _, undisturbed_iff, _⟩ := failed_undisturbed_iff coasting_refused
  refine ⟨moving, fun undisturbed => ?_⟩
  have still := undisturbed_iff.mp undisturbed .forward rfl
  rw [moving] at still
  cases still

/-- Not every failed call lets the engine go on. -/
theorem failed_call_disturbs :
    ¬ ∀ (call : Engine.Call) (a : Axis) (fault : Fault) (p q : Platform),
      (call.action a).run p = (.error fault, q) →
      Engine.Undisturbed p.now (p.engine a) (q.engine a) := by
  intro undisturbed
  have reached := (undisturbed _ _ _ _ _ coasting_refused).position 1000000 (by decide +kernel)
  have before : (coasting.engine .z).positionAt 1000000 = 1000 := by decide +kernel
  have after : ((((Engine.Call.startRun .forward).action .z).run coasting).2.engine .z).positionAt 1000000 =
      100 := by decide +kernel
  rw [before, after] at reached
  cases reached

end Platform

end Crawler.Hardware
