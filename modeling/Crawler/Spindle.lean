import Crawler.Hardware.SpindleOutput
import Crawler.Json.Basic
import Crawler.Motion.Fault
import Crawler.Setting.Snapshot

/-! The spindle. Its speed is a share of the configured range. In laser mode the output has power
only while the machine moves; otherwise it follows the switch of the operator. -/
namespace Crawler

structure Spindle where
  enabled : Bool
  percent : Float
  /-- The level that was last driven. -/
  level : Bool
  output : Hardware.SpindleOutput
deriving DecidableEq, Repr

structure SpindleReading where
  enabled : Bool
  percent : Float
  rpm : Float
  level : Bool
  laserMode : Bool
deriving DecidableEq, Repr

def SpindleReading.toJson (state : SpindleReading) : Json :=
  .object
    [("enabled", .bool state.enabled), ("percent", .float state.percent), ("rpm", .float state.rpm),
      ("output_on", .bool state.level), ("laser_mode", .bool state.laserMode)]

namespace Spindle

open Setting (SpindleSnapshot)

def fresh (output : Hardware.SpindleOutput) : Spindle := ⟨false, 0, false, output⟩

def settings (store : Setting.Store) : Except Setting.Fault SpindleSnapshot := do
  let maxRpm ← store.int .spindleMaxRpm
  let minRpm ← store.int .spindleMinRpm
  let laserMode ← store.flag .laserMode
  return ⟨maxRpm.toInt, minRpm.toInt, laserMode⟩

def onOutput {α : Type} (action : Action Hardware.SpindleOutput Hardware.Fault α) :
    Action Spindle MotionFault α :=
  (action.mapError .spindle).on Spindle.output fun spindle output => { spindle with output }

def bring (on : Bool) : Action Spindle MotionFault Unit := do
  let spindle ← .read
  if spindle.level ≠ on then
    onOutput (Hardware.SpindleOutput.switch on)
    .modify fun spindle => { spindle with level := on }

def switch (on : Bool) (settings : SpindleSnapshot) : Action Spindle MotionFault Unit := do
  .modify fun spindle => { spindle with enabled := on }
  bring (on && !settings.laserMode)

def rpm (percent : Float) (settings : SpindleSnapshot) : Float :=
  let least := Number.ofInt settings.minRpm
  let greatest := Number.ofInt settings.maxRpm
  least + (greatest - least) * percent / 100

def isPercent (percent : Float) : Bool := 0 ≤ percent && percent ≤ 100

def setPercent (percent : Float) (settings : SpindleSnapshot) :
    Action Spindle MotionFault Float := do
  if !isPercent percent then .fail (.percentOutOfRange percent)
  else
    onOutput (Hardware.SpindleOutput.adjust (percent / 100))
    .modify fun spindle => { spindle with percent }
    return rpm percent settings

/-- Powers a laser before a move, if it is switched on. -/
def beforeMove (settings : SpindleSnapshot) : Action Spindle MotionFault Unit := do
  let spindle ← .read
  if settings.laserMode && spindle.enabled then bring true

def afterMove (settings : SpindleSnapshot) : Action Spindle MotionFault Unit := do
  if settings.laserMode then bring false

def stop : Action Spindle MotionFault Unit := do
  .modify fun spindle => { spindle with enabled := false }
  bring false

def state (spindle : Spindle) (settings : SpindleSnapshot) : SpindleReading :=
  ⟨spindle.enabled, spindle.percent, if spindle.enabled then rpm spindle.percent settings else 0,
    spindle.level, settings.laserMode⟩

end Spindle

end Crawler
