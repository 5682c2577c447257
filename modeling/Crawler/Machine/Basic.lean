import Crawler.Console
import Crawler.Machine.Command

/-! The machine: settings, drives, homing, spindle and console behind one set of commands, which are
carried out one at a time. -/
namespace Crawler

structure Machine where
  store : Setting.Store
  drives : Drives
  phase : Homing.Phase
  limits : Homing.Limits
  spindle : Spindle
  console : Console
deriving Repr

namespace Machine

def fresh (store : Setting.Store) (platform : Hardware.Platform) (output : Hardware.SpindleOutput)
    (limits : Homing.Limits) (console : Console) : Machine :=
  ⟨store, .fresh platform, .idle, limits, .fresh output, console⟩

def tell (severity : Severity) (text : String) : Action Machine Fault Unit :=
  .modify fun machine => { machine with console := machine.console.tell severity text }

def onDrives {ε α : Type} (action : Action Drives ε α) : Action Machine ε α :=
  action.on Machine.drives fun machine drives => { machine with drives }

def onSpindle {α : Type} (action : Action Spindle MotionFault α) : Action Machine MotionFault α :=
  action.on Machine.spindle fun machine spindle => { machine with spindle }

def onStore {α : Type} (action : Action Setting.Store Setting.Fault α) : Action Machine Fault α :=
  (action.mapError .settings).on Machine.store fun machine store => { machine with store }

def onStation {α : Type} (action : Action Homing.Station HomingFault α) :
    Action Machine HomingFault α :=
  action.on (fun machine => ⟨machine.drives, machine.phase⟩) fun machine station =>
    { machine with drives := station.drives, phase := station.phase }

def readStore {α : Type} (query : Setting.Store → Except Setting.Fault α) :
    Action Machine Fault α :=
  fun machine => ((query machine.store).mapError .settings, machine)

def awaitRest : Action Machine Fault Unit := (onDrives Drives.awaitAll).mapError .motion

def anyMoving : Action Machine Fault Bool := onDrives Drives.anyMoving

/-- Carries out a motion, with a laser under power for as long as it takes. The outcome is told
after the laser is off again. -/
def gated (motion : Action Drives MotionFault Receipt) : Action Machine Fault Receipt := do
  let settings ← readStore Spindle.settings
  (onSpindle (Spindle.beforeMove settings)).mapError .motion
  let result ← (onDrives motion).attempt
  if settings.laserMode then
    let _ ← awaitRest.attempt
  (onSpindle (Spindle.afterMove settings)).mapError .motion
  .ofExcept (result.mapError .motion)

def reporting {α : Type} (action : Action Machine Fault α) (success : α → String)
    (failure : Fault → String) : Action Machine Fault α := do
  match ← action.attempt with
  | .ok a =>
    tell .success (success a)
    return a
  | .error fault =>
    tell .error (failure fault)
    .fail fault

def drive (request : DriveRequest) : Action Machine Fault Receipt := do
  let machine ← .read
  reporting (gated (Drives.drive machine.store request.direction request.step request.speed))
    (fun receipt =>
      let mm := Number.display request.step
      s!"Driving {request.direction.name} {mm} mm at {Number.display receipt.feed} mm/min")
    (fun fault => s!"Drive failed: {fault.message}")

def depth (request : DepthRequest) : Action Machine Fault Receipt := do
  let machine ← .read
  reporting (gated (Drives.depth machine.store request.step request.speed))
    (fun receipt =>
      s!"Z moved {Number.display request.step} mm at {Number.display receipt.feed} mm/min")
    (fun fault => s!"Depth move failed: {fault.message}")

def home : Action Machine Fault Homing.Report := do
  let machine ← .read
  if ← readStore (·.flag .homingEnable) then
    tell .info "Homing Z axis"
    reporting ((onStation (Homing.Station.home machine.limits machine.store)).mapError .homing)
      (fun _ => "Z axis homed")
      (fun fault => s!"Homing failed: {fault.message}")
  else
    tell .warning "Homing is disabled ($22=0)"
    .fail (.homing (.invalid .homingEnable))

/-- Stops everything and takes the power of the axes. Homing has to be done again. -/
def emergencyStop : Action Machine Fault Unit := do
  let _ ← (onDrives Drives.emergencyStop).attempt
  let _ ← (onSpindle Spindle.stop).attempt
  .modify fun machine =>
    { machine with
      drives := { machine.drives with platform := machine.drives.platform.detach }
      phase := .idle }
  tell .error "Emergency stop"

def useSpindle (request : SpindleRequest) : Action Machine Fault SpindleReading := do
  let settings ← readStore Spindle.settings
  match request.speed with
  | some percent =>
    let _ ← (onSpindle (Spindle.setPercent percent settings)).mapError .motion
  | none => pure ()
  match request.enable with
  | some on =>
    (onSpindle (Spindle.switch on settings)).mapError .motion
    tell .info (if on then "Spindle on" else "Spindle off")
  | none => pure ()
  let machine ← .read
  return machine.spindle.state settings

/-- The reading of an axis with its position in millimetres, which a bad scale makes zero. -/
def axisReport (store : Setting.Store) (a : Axis) (reading : AxisReading) :
    Except Setting.Fault AxisReport := do
  let stepsPerMm ← store.float (.stepsPerMm a)
  let positionMm := if 0 < stepsPerMm then Units.distance reading.position stepsPerMm else 0
  return ⟨a, reading, positionMm⟩

def status : Action Machine Fault Status := do
  let settings ← readStore Spindle.settings
  let readings ← onDrives Drives.readings
  let left ← readStore (axisReport · .left readings.left)
  let right ← readStore (axisReport · .right readings.right)
  let z ← readStore (axisReport · .z readings.z)
  let machine ← .read
  return ⟨⟨left, right, z⟩, machine.phase, machine.spindle.state settings⟩

def setting (key : Setting.Key) : Action Machine Fault Setting.Entry :=
  readStore fun store => (store.value key).map (⟨key, ·⟩)

def enterSetting (key : Setting.Key) (text : String) : Action Machine Fault Setting.Entry := do
  let _ ← reporting (onStore (Setting.Store.setText key text))
    (fun value => s!"{key.text}={value.display}")
    (fun fault => s!"Failed to set {key.text}: {fault.message}")
  setting key

def restoreSettings : Action Machine Fault (List Setting.Entry) := do
  onStore Setting.Store.restoreDefaults
  tell .info "Settings reset to defaults"
  readStore (·.list)

def execute (command : Command) : Action Machine Fault Response :=
  match command with
  | .drive request => return .motion (← drive request)
  | .depth request => return .motion (← depth request)
  | .home => return .homed (← home)
  | .status => return .status (← status)
  | .emergencyStop => do
    emergencyStop
    return .stopped
  | .spindle request => return .spindle (← useSpindle request)
  | .showSettings => return .settings (← readStore (·.list))
  | .showSetting key => return .setting (← setting key)
  | .enterSetting key text => return .setting (← enterSetting key text)
  | .restoreSettings => return .settings (← restoreSettings)

end Machine

end Crawler
