import Crawler.Motion.Drives
import Crawler.Motion.Plan

/-! Carrying out coordinated moves. The axis with the most steps starts last and is waited for; the
others start before it and go on by themselves. If an axis refuses, those that were started stop. -/
namespace Crawler

structure Receipt where
  move : JointMove
  /-- The axis that was waited for. -/
  lead : Axis
  feed : Float
deriving DecidableEq, Repr

def Receipt.toJson (receipt : Receipt) : Json :=
  .object
    [("left_steps", .integer receipt.move.steps.left),
      ("right_steps", .integer receipt.move.steps.right),
      ("z_steps", .integer receipt.move.steps.z), ("left_hz", .integer receipt.move.hz.left),
      ("right_hz", .integer receipt.move.hz.right), ("z_hz", .integer receipt.move.hz.z),
      ("blocking_axis", .text receipt.lead.name), ("feed_mm_per_min", .float receipt.feed)]

namespace Drives

def launchOrder (lead : Axis) : List Axis := Axis.all.filter (· ≠ lead) ++ [lead]

def launch (move : JointMove) (a : Axis) (waiting : Waiting) :
    Action Drives Hardware.Fault Unit := do
  awaitRest a
  enable a
  setAcceleration a (move.acceleration.get a)
  setSpeed a (Number.ofInt (move.hz.get a))
  startMove a (move.steps.get a) waiting

def stopAll : List Axis → Action Drives Hardware.Fault Unit
  | [] => pure ()
  | a :: rest => do
    stop a
    stopAll rest

def launchAll (move : JointMove) (lead : Axis) :
    List Axis → List Axis → Action Drives MotionFault Unit
  | [], _ => pure ()
  | a :: rest, started => do
    if move.steps.get a = 0 then launchAll move lead rest started
    else
      let waiting := if a = lead then Waiting.attended else .unattended
      match ← (launch move a waiting).attempt with
      | .ok () => launchAll move lead rest (started ++ [a])
      | .error cause =>
        let _ ← (stopAll started).attempt
        .fail (.actuation a cause)

def carryOut (move : JointMove) : Action Drives MotionFault Axis := do
  let lead := leadAxis move.steps
  launchAll move lead (launchOrder lead) []
  return lead

def dispatch (plan : Plan) : Action Drives MotionFault Receipt := do
  let lead ← carryOut plan.move
  return ⟨plan.move, lead, plan.feed⟩

def drive (store : Setting.Store) (direction : Direction) (mm feed : Float) :
    Action Drives MotionFault Receipt := do
  let plan ← .ofExcept (Plan.ofDrive store direction mm feed)
  dispatch plan

def depth (store : Setting.Store) (mm feed : Float) : Action Drives MotionFault Receipt := do
  let drives ← .read
  let plan ← .ofExcept (Plan.ofDepth store (drives.position .z) mm feed)
  dispatch plan

def emergencyStop : Action Drives Hardware.Fault Unit := do
  stop .left
  disable .left
  stop .right
  disable .right
  stop .z
  disable .z

/-- Waits for every move in flight, up to the first axis that cannot be waited for. -/
def awaitAll : Action Drives MotionFault Unit := do
  (awaitRest .left).mapError (.actuation .left)
  (awaitRest .right).mapError (.actuation .right)
  (awaitRest .z).mapError (.actuation .z)

end Drives

end Crawler
