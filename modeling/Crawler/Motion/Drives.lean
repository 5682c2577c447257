import Crawler.Hardware.Platform
import Crawler.Json.Basic

/-! The drives of the axes. They remember the speed and the acceleration that were set, and never
start a move before the one in flight has ended. -/
namespace Crawler

open Hardware (Platform)

structure Cruise where
  speedHz : Float
  acceleration : Float
deriving DecidableEq, Repr

structure Drives where
  platform : Platform
  cruise : PerAxis Cruise
deriving Repr

structure AxisReading where
  position : Int
  speedHz : Float
  acceleration : Float
  enabled : Bool
  running : Bool
deriving DecidableEq, Repr

def AxisReading.toJson (state : AxisReading) : Json :=
  .object
    [("position", .integer state.position), ("speed_hz", .float state.speedHz),
      ("acceleration", .float state.acceleration), ("enabled", .bool state.enabled),
      ("running", .bool state.running)]

inductive Waiting where
  | attended
  | unattended
deriving DecidableEq, Repr

namespace Drives

def fresh (platform : Platform) : Drives := ⟨platform, .replicate ⟨0, 0⟩⟩

@[inline] def onPlatform {ε α : Type} (action : Action Platform ε α) : Action Drives ε α :=
  action.on Drives.platform fun drives platform => { drives with platform }

def position (drives : Drives) (a : Axis) : Int := drives.platform.position a

def isPowered (drives : Drives) (a : Axis) : Bool := (drives.platform.engine a).enabled

def setSpeed (a : Axis) (hz : Float) : Action Drives Hardware.Fault Unit := do
  onPlatform (Platform.setSpeed a hz)
  .modify fun drives =>
    { drives with cruise := drives.cruise.modify a fun cruise => { cruise with speedHz := hz } }

def setAcceleration (a : Axis) (acceleration : Float) : Action Drives Hardware.Fault Unit := do
  onPlatform (Platform.setAcceleration a acceleration)
  .modify fun drives =>
    { drives with cruise := drives.cruise.modify a fun cruise => { cruise with acceleration } }

def isMoving {ε : Type} (a : Axis) : Action Drives ε Bool := onPlatform (Platform.queryMoving a)

def awaitRest (a : Axis) : Action Drives Hardware.Fault Unit := do
  if ← isMoving a then onPlatform (Platform.awaitEnd a)

/-- Starts a move once the axis is at rest; a move of no steps is none. -/
def startMove (a : Axis) (steps : Int) (waiting : Waiting) :
    Action Drives Hardware.Fault Unit := do
  if steps ≠ 0 then
    awaitRest a
    onPlatform (Platform.startMove a steps)
    if waiting = .attended then onPlatform (Platform.awaitEnd a)

def startRun (a : Axis) (direction : Sense) : Action Drives Hardware.Fault Unit :=
  onPlatform (Platform.startRun a direction)

def stop (a : Axis) : Action Drives Hardware.Fault Unit := onPlatform (Platform.stop a)

def step (a : Axis) (direction : Sense) : Action Drives Hardware.Fault Unit :=
  onPlatform (Platform.step a direction)

def setOrigin (a : Axis) : Action Drives Hardware.Fault Unit :=
  onPlatform (Platform.setPosition a 0)

def enable (a : Axis) : Action Drives Hardware.Fault Unit := onPlatform (Platform.enable a)

def disable (a : Axis) : Action Drives Hardware.Fault Unit := onPlatform (Platform.disable a)

def state {ε : Type} (a : Axis) : Action Drives ε AxisReading := do
  let drives ← .read
  let running ← isMoving a
  let cruise := drives.cruise.get a
  return ⟨drives.position a, cruise.speedHz, cruise.acceleration, drives.isPowered a, running⟩

def readings {ε : Type} : Action Drives ε (PerAxis AxisReading) := do
  let left ← state .left
  let right ← state .right
  let z ← state .z
  return ⟨left, right, z⟩

/-- Whether some axis is running. No axis is asked after the first that is. -/
def anyMoving {ε : Type} : Action Drives ε Bool := do
  if ← isMoving .left then return true
  if ← isMoving .right then return true
  isMoving .z

end Drives

end Crawler
