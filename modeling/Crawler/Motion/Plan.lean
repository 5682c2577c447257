import Crawler.Direction
import Crawler.Motion.Fault
import Crawler.Setting.Snapshot

/-! Plans of coordinated moves. A plan follows from the settings and a request alone, except that a
depth plan also needs the position that it starts at. -/
namespace Crawler

structure JointMove where
  steps : PerAxis Int
  hz : PerAxis Nat
  acceleration : PerAxis Float
deriving DecidableEq, Repr

/-- A move and the feed that it was made for, in mm/min. -/
structure Plan where
  move : JointMove
  feed : Float
deriving DecidableEq, Repr

def JointMove.toJson (move : JointMove) : Json :=
  .object
    [("steps", .array (move.steps.map .integer).toList),
      ("hz", .array (move.hz.map fun (hz : Nat) => Json.integer hz).toList),
      ("accel", .array (move.acceleration.map .float).toList)]

/-- The axis that makes more steps than each of the others, else the depth axis. -/
def leadAxis (steps : PerAxis Int) : Axis :=
  let left := steps.left.natAbs
  let right := steps.right.natAbs
  let z := steps.z.natAbs
  if right < left ∧ z < left then .left
  else if left < right ∧ z < right then .right
  else .z

namespace Plan

def checkPositive (quantity : Quantity) (x : Float) : Except MotionFault Unit :=
  if Number.isPositive x then .ok () else .error (.notPositive quantity x)

def motionSettings (store : Setting.Store) : Except MotionFault Setting.Snapshot :=
  Except.mapError .settings do
    let settings ← Setting.Snapshot.load store
    settings.checkMotion
    return settings

def wholeSteps (mm stepsPerMm : Float) : Except MotionFault Int :=
  match Units.steps? mm stepsPerMm with
  | some steps => .ok steps
  | none => .error (.tooFar mm)

def trackSteps (mm stepsPerMm : Float) (share : TrackShare) : Except MotionFault Int := do
  let full ← wholeSteps mm stepsPerMm
  return Units.toSteps (Number.nearest (Number.ofInt full * share.value))

/-- A drive of both tracks. They share one feed, which neither may exceed. -/
def ofDrive (store : Setting.Store) (direction : Direction) (mm feed : Float) :
    Except MotionFault Plan := do
  checkPositive .distance mm
  checkPositive .feed feed
  let settings ← motionSettings store
  let left := settings.axes.left
  let right := settings.axes.right
  let feed := Units.capFeed feed (Number.lesser left.maxRate right.maxRate)
  let (leftShare, rightShare) := direction.shares
  let leftSteps ← trackSteps mm left.stepsPerMm leftShare
  let rightSteps ← trackSteps mm right.stepsPerMm rightShare
  if leftSteps = 0 ∧ rightSteps = 0 then .error (.noSteps mm)
  let leftHz := Units.frequency feed left.stepsPerMm
  let rightHz := Units.frequency feed right.stepsPerMm
  if (leftSteps ≠ 0 ∧ leftHz = 0) ∨ (rightSteps ≠ 0 ∧ rightHz = 0) then
    .error (.noFrequency feed)
  let acceleration : PerAxis Float :=
    ⟨Units.stepAcceleration left.acceleration left.stepsPerMm,
      Units.stepAcceleration right.acceleration right.stepsPerMm, 0⟩
  return ⟨⟨⟨leftSteps, rightSteps, 0⟩, ⟨leftHz, rightHz, 0⟩, acceleration⟩, feed⟩

/-- The position that a depth move would reach, if it is one. -/
def depthTarget? (position : Int) (steps : Option Int) : Option Int :=
  steps.bind fun steps =>
    let target := position + steps
    if Int64.minValue.toInt ≤ target ∧ target ≤ Int64.maxValue.toInt then some target else none

def checkLimit (z : Setting.AxisSnapshot) (position : Int) (mm : Float) (steps : Option Int) :
    Except MotionFault Unit :=
  let limit := Units.toSteps (Number.nearest z.travelSteps)
  match depthTarget? position steps with
  | some target =>
    if limit.natAbs < target.natAbs then .error (.beyondLimit .z target limit) else .ok ()
  | none =>
    let farthest := if 0 < mm then Int64.maxValue else Int64.minValue
    .error (.beyondLimit .z farthest.toInt limit)

def ofDepth (store : Setting.Store) (position : Int) (mm feed : Float) :
    Except MotionFault Plan := do
  if !mm.isFinite || mm == 0 then .error (.noDistance mm)
  checkPositive .feed feed
  let settings ← motionSettings store
  let z := settings.axes.z
  if settings.softLimits then
    checkLimit z position mm (Units.steps? mm z.stepsPerMm)
  let steps ← wholeSteps mm z.stepsPerMm
  if steps = 0 then .error (.noSteps mm)
  let feed := Units.capFeed feed z.maxRate
  let hz := Units.frequency feed z.stepsPerMm
  if hz = 0 then .error (.noFrequency feed)
  let acceleration := Units.stepAcceleration z.acceleration z.stepsPerMm
  return ⟨⟨⟨0, 0, steps⟩, ⟨0, 0, hz⟩, ⟨0, 0, acceleration⟩⟩, feed⟩

end Plan

theorem leadAxis_eq_left_iff (steps : PerAxis Int) :
    leadAxis steps = .left ↔
      steps.right.natAbs < steps.left.natAbs ∧ steps.z.natAbs < steps.left.natAbs := by
  unfold leadAxis
  grind

theorem leadAxis_eq_right_iff (steps : PerAxis Int) :
    leadAxis steps = .right ↔
      steps.left.natAbs < steps.right.natAbs ∧ steps.z.natAbs < steps.right.natAbs := by
  unfold leadAxis
  grind

end Crawler
