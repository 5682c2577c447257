import Crawler.Proofs.FeedCeiling

/-! The settings that motion needs. They are all read and checked before anything is planned, so with a
bad one among them every motion is refused and nothing reaches the engines. -/
namespace Crawler

open Crawler.Action
open Float.Model.Format (binary64)
open Number (Reads Magnitude)

namespace Number

private theorem isPositive_iff {x : Float} : isPositive x = true ↔ x.isFinite = true ∧ 0 < x := by
  simp [isPositive]

private theorem ne_zero_of_reads {x : Float} {M : Magnitude binary64} (read : Reads x M) :
    (x == 0) = false := by
  obtain ⟨_, read⟩ := read
  change x.toModel.unpack.beq (Float.toModel 0).unpack = false
  rw [read]
  rfl

end Number

namespace Setting

def Key.motion : List Key :=
  [homingFeed, homingSeek, homingPullOff] ++ Axis.all.map stepsPerMm ++ Axis.all.map maxRate ++
  Axis.all.map acceleration ++ Axis.all.map maxTravel

example : Key.motion.map Key.number =
    [24, 25, 27, 100, 101, 102, 110, 111, 112, 120, 121, 122, 130, 131, 132] := rfl

structure Store.Ready (store : Store) : Prop where
  floats : ∀ key ∈ Key.motion, ∃ x, store.float key = .ok x ∧ x.isFinite = true ∧ 0 < x
  debounce : ∃ ms, store.int .homingDebounce = .ok ms ∧ 0 < ms.toInt

private theorem debounceOf_pos {ms : Int32} {n : Nat} (waited : debounceOf ms = .ok n) (some : n ≠ 0) :
    0 < ms.toInt := by
  unfold debounceOf at waited
  split at waited
  · cases waited
    omega
  · cases waited

end Setting

namespace Plan

open Setting (Store Snapshot Key)

variable {store : Store} {settings : Snapshot}

/-- The checks miss no setting. -/
theorem ready_of_checked (taken : Taken store settings) (checked : Checked settings) : store.Ready := by
  have axes (a : Axis) := axisLoad_ok (taken.axes a)
  have positive (a : Axis) := axisValidate_ok (checked.axes a)
  have float {key : Key} {x : Float} (read : store.float key = .ok x)
      (above : Number.isPositive x = true) :
      ∃ x, store.float key = .ok x ∧ x.isFinite = true ∧ 0 < x :=
    ⟨x, read, Number.isPositive_iff.mp above⟩
  obtain ⟨ms, debounce, waited⟩ := taken.debounce
  refine ⟨fun key needed => ?_, ms, debounce, Setting.debounceOf_pos waited checked.debounce⟩
  cases key with
  | homingFeed => exact float taken.feed checked.feed
  | homingSeek => exact float taken.seek checked.seek
  | homingPullOff => exact float taken.pullOff checked.pullOff
  | stepsPerMm a => exact float (axes a).1 (positive a).1
  | maxRate a => exact float (axes a).2.1 (positive a).2.1
  | acceleration a => exact float (axes a).2.2.1 (positive a).2.2.1
  | maxTravel a => exact float (axes a).2.2.2 (positive a).2.2.2
  | _ => simp [Key.motion, Axis.all] at needed

private theorem motionSettings_ready (based : motionSettings store = .ok settings) : store.Ready := by
  obtain ⟨loaded, passed⟩ := motionSettings_ok based
  exact ready_of_checked (snapshot_taken loaded) (checkMotion_checked passed)

private theorem motionSettings_error {fault : MotionFault} (failed : motionSettings store = .error fault) :
    ∃ cause, fault = .settings cause := by
  obtain ⟨cause, _, same⟩ := except_mapError_eq_error.mp failed
  exact ⟨cause, same.symm⟩

private theorem checkPositive_pass (quantity : Quantity) {x : Float} (finite : x.isFinite = true)
    (above : 0 < x) : checkPositive quantity x = .ok () := by
  unfold checkPositive
  rw [if_pos (Number.isPositive_iff.mpr ⟨finite, above⟩)]

end Plan

namespace Drives

variable {store : Setting.Store} {mm feed : Float}

/-- The settings are read next, once a request is found to be in order. -/
theorem Course.plan_error (course : Course) (position : Int)
    (distance : mm.isFinite = true ∧ 0 < mm) (speed : feed.isFinite = true ∧ 0 < feed)
    {fault : MotionFault} (failed : Plan.motionSettings store = .error fault) :
    course.plan store position mm feed = .error fault := by
  have paced := Plan.checkPositive_pass .feed speed.1 speed.2
  cases course with
  | drive direction =>
    have far := Plan.checkPositive_pass .distance distance.1 distance.2
    dsimp only [Course.plan]
    unfold Plan.ofDrive
    rw [far, paced, failed]
    rfl
  | depth =>
    obtain ⟨_, read⟩ := Number.exists_reads (Number.isPositive_iff.mpr distance)
    have some_distance : (!mm.isFinite || mm == 0) = false := by
      rw [distance.1, Number.ne_zero_of_reads read]
      rfl
    dsimp only [Course.plan]
    unfold Plan.ofDepth
    rw [some_distance, paced, failed]
    rfl

private theorem Course.plan_ready {course : Course} {position : Int} {plan : Plan}
    (made : course.plan store position mm feed = .ok plan) : store.Ready := by
  cases course with
  | drive direction =>
    obtain ⟨_, _, _, basis, _⟩ := Plan.ofDrive_ok made
    exact Plan.motionSettings_ready basis.based
  | depth =>
    obtain ⟨_, _, basis, _⟩ := Plan.ofDepth_ok made
    exact Plan.motionSettings_ready basis.based

/-- Nothing moves unless every setting that motion needs is a number above zero. With a setting that is
not, be it missing, of another kind, zero, negative, infinite or undefined, every request is refused
and leaves the drives as they were, logs included, and a request that is in order is refused for the
settings. -/
theorem moves_only_if_ready (store : Setting.Store) (course : Course) (mm feed : Float) (d : Drives) :
    let ran := (course.run store mm feed).run d
    ((∃ a, startsSince d.platform ran.2.platform a ≠ []) → store.Ready) ∧
      (¬ store.Ready → ∃ fault, ran = (.error fault, d) ∧
        (mm.isFinite = true ∧ 0 < mm → feed.isFinite = true ∧ 0 < feed →
          ∃ cause, fault = .settings cause)) := by
  dsimp only
  cases ran : (course.run store mm feed).run d with
  | mk result d' =>
    rcases course_cases course ran with ⟨fault, rfl, rfl⟩ | ⟨plan, made, _⟩
    · refine ⟨fun ⟨a, started⟩ => absurd (starts_of_same rfl) started, fun unready => ?_⟩
      refine ⟨fault, rfl, fun distance speed => ?_⟩
      cases based : Plan.motionSettings store with
      | ok settings => exact absurd (Plan.motionSettings_ready based) unready
      | error cause =>
        rw [course.run_eq, course.plan_error _ distance speed based] at ran
        cases ran
        exact Plan.motionSettings_error based
    · have ready := Course.plan_ready made
      exact ⟨fun _ => ready, fun unready => absurd ready unready⟩

/-- No motion waits for the debounce time, but all need it. -/
theorem debounce_needed :
    let d := fresh (.fresh ⟨26, 14, 17⟩ (-2000))
    (Machine.factory .homingDebounce "250").Ready ∧ ∃ cause,
      (Course.run (Machine.factory .homingDebounce "0") 10 600 (.drive .forward)).run d =
        (.error (.settings cause), d) := by
  intro d
  have started : startsSince d.platform ((Course.run (Machine.factory .homingDebounce "250") 10 600
      (.drive .forward)).run d).2.platform .left ≠ [] := by decide +kernel
  have none : (Machine.factory .homingDebounce "0").int .homingDebounce = .ok 0 := by decide +kernel
  have unready : ¬ (Machine.factory .homingDebounce "0").Ready := by
    rintro ⟨_, ms, read, above⟩
    rw [none] at read
    cases read
    exact absurd above (by decide)
  have ten : (10 : Float).isFinite = true ∧ (0 : Float) < 10 := by decide +kernel
  have fast : (600 : Float).isFinite = true ∧ (0 : Float) < 600 := by decide +kernel
  refine ⟨(moves_only_if_ready _ _ _ _ d).1 ⟨.left, started⟩, ?_⟩
  obtain ⟨_, ran, refused⟩ := (moves_only_if_ready _ (.drive .forward) 10 600 d).2 unready
  obtain ⟨cause, rfl⟩ := refused ten fast
  exact ⟨cause, ran⟩

end Drives

end Crawler
