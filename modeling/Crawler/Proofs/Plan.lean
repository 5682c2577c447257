import Crawler.Motion.Plan
import Crawler.Proofs.Action
import Crawler.Proofs.Sign

/-! What the plans say that are made. -/
namespace Crawler.Plan

open Crawler.Action

variable {store : Setting.Store} {settings : Setting.Snapshot} {plan : Plan} {mm feed : Float}

theorem motionSettings_ok (based : motionSettings store = .ok settings) :
    Setting.Snapshot.load store = .ok settings ∧ settings.checkMotion = .ok () := by
  obtain ⟨loaded, read, checked⟩ := except_bind_eq_ok.mp (except_mapError_eq_ok.mp based)
  obtain ⟨_, passed, answered⟩ := except_bind_eq_ok.mp checked
  cases answered
  exact ⟨read, passed⟩

def ofTracks (settings : Setting.Snapshot) (requested : Float) (left right : Int) : Plan :=
  let rate := Number.lesser settings.axes.left.maxRate settings.axes.right.maxRate
  let feed := Units.capFeed requested rate
  let hz (axis : Setting.AxisSnapshot) := Units.frequency feed axis.stepsPerMm
  let acceleration (axis : Setting.AxisSnapshot) :=
    Units.stepAcceleration axis.acceleration axis.stepsPerMm
  ⟨⟨⟨left, right, 0⟩, ⟨hz settings.axes.left, hz settings.axes.right, 0⟩,
    ⟨acceleration settings.axes.left, acceleration settings.axes.right, 0⟩⟩, feed⟩

def ofHead (settings : Setting.Snapshot) (requested : Float) (steps : Int) : Plan :=
  let z := settings.axes.z
  let feed := Units.capFeed requested z.maxRate
  ⟨⟨⟨0, 0, steps⟩, ⟨0, 0, Units.frequency feed z.stepsPerMm⟩,
    ⟨0, 0, Units.stepAcceleration z.acceleration z.stepsPerMm⟩⟩, feed⟩

theorem requestPositive_ok {quantity : Quantity} {x : Float}
    (passed : checkPositive quantity x = .ok ()) : Number.isPositive x = true := by
  unfold checkPositive at passed
  split at passed
  · assumption
  · cases passed

structure TrackBasis (store : Setting.Store) (direction : Direction) (mm requested : Float)
    (settings : Setting.Snapshot) (left right : Int) : Prop where
  feed : Number.isPositive requested = true
  based : motionSettings store = .ok settings
  left_steps : trackSteps mm settings.axes.left.stepsPerMm direction.shares.1 = .ok left
  right_steps : trackSteps mm settings.axes.right.stepsPerMm direction.shares.2 = .ok right
  some_hz : ¬ (left ≠ 0 ∧ (ofTracks settings requested left right).move.hz.left = 0 ∨
    right ≠ 0 ∧ (ofTracks settings requested left right).move.hz.right = 0)

theorem ofDrive_ok {direction : Direction} {requested : Float}
    (made : ofDrive store direction mm requested = .ok plan) :
    ∃ settings left right, TrackBasis store direction mm requested settings left right ∧
      plan = ofTracks settings requested left right := by
  unfold ofDrive at made
  obtain ⟨_, _, made⟩ := except_bind_eq_ok.mp made
  obtain ⟨_, positive, made⟩ := except_bind_eq_ok.mp made
  obtain ⟨settings, based, made⟩ := except_bind_eq_ok.mp made
  obtain ⟨left, left_steps, made⟩ := except_bind_eq_ok.mp made
  obtain ⟨right, right_steps, made⟩ := except_bind_eq_ok.mp made
  obtain ⟨_, made⟩ := except_guard_eq_ok.mp made
  obtain ⟨some_hz, made⟩ := except_guard_eq_ok.mp made
  cases made
  exact ⟨settings, left, right, ⟨requestPositive_ok positive, based, left_steps, right_steps,
    fun none => nomatch some_hz none⟩, rfl⟩

structure HeadBasis (store : Setting.Store) (position : Int) (mm requested : Float)
    (settings : Setting.Snapshot) (steps : Int) : Prop where
  feed : Number.isPositive requested = true
  based : motionSettings store = .ok settings
  within : settings.softLimits = true →
    checkLimit settings.axes.z position mm (some steps) = .ok ()
  counted : wholeSteps mm settings.axes.z.stepsPerMm = .ok steps
  some_steps : steps ≠ 0
  some_hz : (ofHead settings requested steps).move.hz.z ≠ 0

theorem wholeSteps_ok {stepsPerMm : Float} {steps : Int}
    (counted : wholeSteps mm stepsPerMm = .ok steps) : Units.steps? mm stepsPerMm = some steps := by
  unfold wholeSteps at counted
  split at counted
  · cases counted
    assumption
  · cases counted

theorem ofDepth_ok {position : Int} {requested : Float}
    (made : ofDepth store position mm requested = .ok plan) :
    ∃ settings steps, HeadBasis store position mm requested settings steps ∧
      plan = ofHead settings requested steps := by
  unfold ofDepth at made
  obtain ⟨_, made⟩ := except_guard_eq_ok.mp made
  obtain ⟨_, positive, made⟩ := except_bind_eq_ok.mp made
  obtain ⟨settings, based, made⟩ := except_bind_eq_ok.mp made
  obtain ⟨within, made⟩ := except_guard_eq_ok.mp made
  obtain ⟨steps, counted, made⟩ := except_bind_eq_ok.mp made
  obtain ⟨some_steps, made⟩ := except_guard_eq_ok.mp made
  obtain ⟨some_hz, made⟩ := except_guard_eq_ok.mp made
  cases made
  rw [wholeSteps_ok counted] at within
  exact ⟨settings, steps, ⟨requestPositive_ok positive, based, within, counted,
    fun none => (nomatch some_steps none), fun none => nomatch some_hz none⟩, rfl⟩

theorem ofDrive_depth {direction : Direction} (made : ofDrive store direction mm feed = .ok plan) :
    plan.move.steps.z = 0 := by
  obtain ⟨_, _, _, _, rfl⟩ := ofDrive_ok made
  rfl

section Limit

open Setting (AxisSnapshot Snapshot)

variable {a : Axis} {axis : AxisSnapshot}

structure Sourced (store : Setting.Store) (a : Axis) (axis : AxisSnapshot) : Prop where
  scale : store.float (.stepsPerMm a) = .ok axis.stepsPerMm
  rate : store.float (.maxRate a) = .ok axis.maxRate
  travel : store.float (.maxTravel a) = .ok axis.maxTravel
  scale_pos : Number.isPositive axis.stepsPerMm = true
  rate_pos : Number.isPositive axis.maxRate = true
  travel_pos : Number.isPositive axis.maxTravel = true

private theorem settingPositive_ok {key : Setting.Key} {x : Float}
    (passed : Setting.checkPositive key x = .ok ()) : Number.isPositive x = true := by
  unfold Setting.checkPositive at passed
  split at passed
  · assumption
  · cases passed

theorem axisLoad_ok (loaded : AxisSnapshot.load store a = .ok axis) :
    store.float (.stepsPerMm a) = .ok axis.stepsPerMm ∧ store.float (.maxRate a) = .ok axis.maxRate ∧
      store.float (.acceleration a) = .ok axis.acceleration ∧
      store.float (.maxTravel a) = .ok axis.maxTravel := by
  obtain ⟨_, scale, loaded⟩ := except_bind_eq_ok.mp loaded
  obtain ⟨_, rate, loaded⟩ := except_bind_eq_ok.mp loaded
  obtain ⟨_, acceleration, loaded⟩ := except_bind_eq_ok.mp loaded
  obtain ⟨_, travel, answered⟩ := except_bind_eq_ok.mp loaded
  cases answered
  exact ⟨scale, rate, acceleration, travel⟩

theorem axisValidate_ok (passed : axis.validate a = .ok ()) :
    Number.isPositive axis.stepsPerMm = true ∧ Number.isPositive axis.maxRate = true ∧
      Number.isPositive axis.acceleration = true ∧ Number.isPositive axis.maxTravel = true := by
  obtain ⟨_, scale, passed⟩ := except_bind_eq_ok.mp passed
  obtain ⟨_, rate, passed⟩ := except_bind_eq_ok.mp passed
  obtain ⟨_, acceleration, travel⟩ := except_bind_eq_ok.mp passed
  exact ⟨settingPositive_ok scale, settingPositive_ok rate, settingPositive_ok acceleration,
    settingPositive_ok travel⟩

private theorem sourced_of_valid (loaded : AxisSnapshot.load store a = .ok axis)
    (passed : axis.validate a = .ok ()) : Sourced store a axis := by
  obtain ⟨scale, rate, _, travel⟩ := axisLoad_ok loaded
  obtain ⟨scale_pos, rate_pos, _, travel_pos⟩ := axisValidate_ok passed
  exact ⟨scale, rate, travel, scale_pos, rate_pos, travel_pos⟩

structure Taken (store : Setting.Store) (settings : Snapshot) : Prop where
  axes : ∀ a, AxisSnapshot.load store a = .ok (settings.axes.get a)
  feed : store.float .homingFeed = .ok settings.homing.feed
  seek : store.float .homingSeek = .ok settings.homing.seek
  debounce : ∃ ms, store.int .homingDebounce = .ok ms ∧
    Setting.debounceOf ms = .ok settings.homing.debounceMs
  pullOff : store.float .homingPullOff = .ok settings.homing.pullOff
  softLimits : store.flag .softLimits = .ok settings.softLimits

theorem snapshot_taken (loaded : Snapshot.load store = .ok settings) : Taken store settings := by
  obtain ⟨_, debounce, loaded⟩ := except_bind_eq_ok.mp loaded
  obtain ⟨_, left, loaded⟩ := except_bind_eq_ok.mp loaded
  obtain ⟨_, right, loaded⟩ := except_bind_eq_ok.mp loaded
  obtain ⟨_, depth, loaded⟩ := except_bind_eq_ok.mp loaded
  obtain ⟨_, _, loaded⟩ := except_bind_eq_ok.mp loaded
  obtain ⟨_, feed, loaded⟩ := except_bind_eq_ok.mp loaded
  obtain ⟨_, seek, loaded⟩ := except_bind_eq_ok.mp loaded
  obtain ⟨_, waited, loaded⟩ := except_bind_eq_ok.mp loaded
  obtain ⟨_, pullOff, loaded⟩ := except_bind_eq_ok.mp loaded
  obtain ⟨_, _, loaded⟩ := except_bind_eq_ok.mp loaded
  obtain ⟨_, _, loaded⟩ := except_bind_eq_ok.mp loaded
  obtain ⟨_, _, loaded⟩ := except_bind_eq_ok.mp loaded
  obtain ⟨_, limited, loaded⟩ := except_bind_eq_ok.mp loaded
  obtain ⟨_, _, answered⟩ := except_bind_eq_ok.mp loaded
  cases answered
  exact ⟨fun | .left => left | .right => right | .z => depth, feed, seek, ⟨_, debounce, waited⟩,
    pullOff, limited⟩

structure Checked (settings : Snapshot) : Prop where
  axes : ∀ a, (settings.axes.get a).validate a = .ok ()
  feed : Number.isPositive settings.homing.feed = true
  seek : Number.isPositive settings.homing.seek = true
  debounce : settings.homing.debounceMs ≠ 0
  pullOff : Number.isPositive settings.homing.pullOff = true

theorem checkMotion_checked (passed : settings.checkMotion = .ok ()) : Checked settings := by
  obtain ⟨_, left, passed⟩ := except_bind_eq_ok.mp passed
  obtain ⟨_, right, passed⟩ := except_bind_eq_ok.mp passed
  obtain ⟨_, depth, passed⟩ := except_bind_eq_ok.mp passed
  obtain ⟨_, feed, passed⟩ := except_bind_eq_ok.mp passed
  obtain ⟨_, seek, passed⟩ := except_bind_eq_ok.mp passed
  obtain ⟨debounce, pullOff⟩ := except_guard_eq_ok.mp passed
  exact ⟨fun | .left => left | .right => right | .z => depth, settingPositive_ok feed,
    settingPositive_ok seek, fun none => (nomatch debounce none), settingPositive_ok pullOff⟩

theorem motionSettings_sourced (based : motionSettings store = .ok settings) (a : Axis) :
    Sourced store a (settings.axes.get a) := by
  obtain ⟨loaded, passed⟩ := motionSettings_ok based
  exact sourced_of_valid ((snapshot_taken loaded).axes a) ((checkMotion_checked passed).axes a)

private theorem checkLimit_ok {position steps : Int}
    (within : checkLimit axis position mm (some steps) = .ok ()) :
    (position + steps).natAbs ≤ (Units.toSteps (Number.nearest axis.travelSteps)).natAbs := by
  unfold checkLimit at within
  dsimp only at within
  split at within
  · next target reached =>
    split at within
    · cases within
    · unfold depthTarget? at reached
      dsimp only [Option.bind] at reached
      split at reached
      · cases reached
        omega
      · cases reached
  · cases within

/-- With soft limits a depth plan ends within the travel that is set. -/
theorem ofDepth_within {position : Int} (made : ofDepth store position mm feed = .ok plan)
    (limited : store.flag .softLimits = .ok true) :
    ∃ travel scale, store.float (.maxTravel .z) = .ok travel ∧
      store.float (.stepsPerMm .z) = .ok scale ∧
      ((position + plan.move.steps.z).natAbs : Int) ≤
        Units.toSteps (Number.nearest (travel * scale)) := by
  obtain ⟨settings, steps, basis, rfl⟩ := ofDepth_ok made
  have sourced : Sourced store .z settings.axes.z := motionSettings_sourced basis.based .z
  have flagged := (snapshot_taken (motionSettings_ok basis.based).1).softLimits
  rw [limited] at flagged
  cases flagged_same : settings.softLimits with
  | false =>
    rw [flagged_same] at flagged
    cases flagged
  | true =>
    have bound := checkLimit_ok (basis.within flagged_same)
    have least : 0 ≤ Units.toSteps (Number.nearest settings.axes.z.travelSteps) :=
      Number.toSteps_roundBy_nonneg (Number.nonnegative_mul
        (Number.nonnegative_of_isPositive sourced.travel_pos)
        (Number.nonnegative_of_isPositive sourced.scale_pos)) _ _
    refine ⟨_, _, sourced.travel, sourced.scale, ?_⟩
    unfold AxisSnapshot.travelSteps at bound least
    dsimp only [ofHead]
    omega

end Limit

end Crawler.Plan
