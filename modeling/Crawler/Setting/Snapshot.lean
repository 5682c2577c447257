import Crawler.Setting.Store

/-! The settings that motion depends on, read at once from a store. -/
namespace Crawler.Setting

structure AxisSnapshot where
  stepsPerMm : Float
  /-- Highest feed in mm/min. -/
  maxRate : Float
  /-- In mm/s². -/
  acceleration : Float
  /-- In mm. -/
  maxTravel : Float
deriving DecidableEq, Repr

structure HomingSnapshot where
  enabled : Bool
  feed : Float
  seek : Float
  debounceMs : Nat
  pullOff : Float
deriving DecidableEq, Repr

structure SpindleSnapshot where
  maxRpm : Int
  minRpm : Int
  laserMode : Bool
deriving DecidableEq, Repr

structure Snapshot where
  axes : PerAxis AxisSnapshot
  homing : HomingSnapshot
  spindle : SpindleSnapshot
  softLimits : Bool
  hardLimits : Bool
deriving DecidableEq, Repr

def checkPositive (key : Key) (x : Float) : Except Fault Unit :=
  if Number.isPositive x then .ok () else .error (.zero key)

namespace AxisSnapshot

def load (store : Store) (a : Axis) : Except Fault AxisSnapshot :=
  return {
    stepsPerMm := ← store.float (.stepsPerMm a)
    maxRate := ← store.float (.maxRate a)
    acceleration := ← store.float (.acceleration a)
    maxTravel := ← store.float (.maxTravel a) }

def validate (settings : AxisSnapshot) (a : Axis) : Except Fault Unit := do
  checkPositive (.stepsPerMm a) settings.stepsPerMm
  checkPositive (.maxRate a) settings.maxRate
  checkPositive (.acceleration a) settings.acceleration
  checkPositive (.maxTravel a) settings.maxTravel

def travelSteps (settings : AxisSnapshot) : Float := settings.maxTravel * settings.stepsPerMm

def toJson (settings : AxisSnapshot) : Json :=
  .object
    [("steps_per_mm", .float settings.stepsPerMm), ("max_rate", .float settings.maxRate),
      ("acceleration", .float settings.acceleration), ("max_travel", .float settings.maxTravel)]

end AxisSnapshot

def debounceOf (ms : Int32) : Except Fault Nat :=
  if 0 ≤ ms.toInt then .ok ms.toInt.toNat else .error (.invalid .homingDebounce (.negative ms))

namespace Snapshot

/-- Reads every setting in a fixed order, up to the first that cannot be read. -/
def load (store : Store) : Except Fault Snapshot := do
  let debounce ← store.int .homingDebounce
  let left ← AxisSnapshot.load store .left
  let right ← AxisSnapshot.load store .right
  let z ← AxisSnapshot.load store .z
  let enabled ← store.flag .homingEnable
  let feed ← store.float .homingFeed
  let seek ← store.float .homingSeek
  let debounceMs ← debounceOf debounce
  let pullOff ← store.float .homingPullOff
  let maxRpm ← store.int .spindleMaxRpm
  let minRpm ← store.int .spindleMinRpm
  let laserMode ← store.flag .laserMode
  let softLimits ← store.flag .softLimits
  let hardLimits ← store.flag .hardLimits
  return {
    axes := ⟨left, right, z⟩
    homing := ⟨enabled, feed, seek, debounceMs, pullOff⟩
    spindle := ⟨maxRpm.toInt, minRpm.toInt, laserMode⟩
    softLimits, hardLimits }

def checkMotion (settings : Snapshot) : Except Fault Unit := do
  settings.axes.left.validate .left
  settings.axes.right.validate .right
  settings.axes.z.validate .z
  checkPositive .homingFeed settings.homing.feed
  checkPositive .homingSeek settings.homing.seek
  if settings.homing.debounceMs = 0 then .error (.zero .homingDebounce)
  checkPositive .homingPullOff settings.homing.pullOff

def toJson (settings : Snapshot) : Json :=
  .object
    [("axes", .array (settings.axes.map AxisSnapshot.toJson).toList),
      ("homing", .object
        [("enabled", .bool settings.homing.enabled), ("feed", .float settings.homing.feed),
          ("seek", .float settings.homing.seek),
          ("debounce_ms", .integer settings.homing.debounceMs),
          ("pull_off", .float settings.homing.pullOff)]),
      ("spindle", .object
        [("max_rpm", .integer settings.spindle.maxRpm),
          ("min_rpm", .integer settings.spindle.minRpm),
          ("laser_mode", .bool settings.spindle.laserMode)]),
      ("soft_limits", .bool settings.softLimits), ("hard_limits", .bool settings.hardLimits)]

end Snapshot

end Crawler.Setting
