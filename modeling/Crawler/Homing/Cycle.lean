import Crawler.Homing.Fault
import Crawler.Motion.Drives
import Crawler.Setting.Store

/-! The homing cycle of the depth axis. It runs in reverse until the limit switch is reached, lets
the driver rest, steps off the switch, pulls off by a distance and makes that place the origin. How
long it seeks and how many steps it makes to leave the switch is limited. -/
namespace Crawler.Homing

open Hardware (Platform)

inductive Phase where
  | idle
  | seeking
  | debouncing
  | pullingOff
  | homed
  | faulted
deriving DecidableEq, Repr

def Phase.name : Phase → String
  | idle => "idle"
  | seeking => "seeking"
  | debouncing => "debouncing"
  | pullingOff => "pullingOff"
  | homed => "homed"
  | faulted => "faulted"

structure Limits where
  pollMs : Nat
  releaseSteps : Nat
  /-- The time after which the switch counts as out of reach. -/
  timeoutMs : Nat
deriving DecidableEq, Repr

structure Parameters where
  hz : Nat
  acceleration : Float
  debounceMs : Nat
  pullOffSteps : Int
deriving DecidableEq, Repr

structure Report where
  hz : Nat
  seekMs : Nat
  releaseSteps : Nat
  pullOffSteps : Int
deriving DecidableEq, Repr

def Report.toJson (report : Report) : Json :=
  .object
    [("hz", .integer report.hz), ("seek_ms", .integer report.seekMs),
      ("release_steps", .integer report.releaseSteps),
      ("pull_off_steps", .integer report.pullOffSteps)]

structure Station where
  drives : Drives
  phase : Phase
deriving Repr

def Limits.polls (limits : Limits) : Nat := (limits.timeoutMs + limits.pollMs - 1) / limits.pollMs

namespace Parameters

def positive (store : Setting.Store) (key : Setting.Key) : Except HomingFault Float := do
  let x ← (store.float key).mapError .settings
  if Number.isPositive x then .ok x else .error (.invalid key)

def load (store : Setting.Store) : Except HomingFault Parameters := do
  let feed ← positive store .homingFeed
  let stepsPerMm ← positive store (.stepsPerMm .z)
  let pullOff ← positive store .homingPullOff
  let acceleration ← positive store (.acceleration .z)
  let debounce ← (store.int .homingDebounce).mapError .settings
  if debounce.toInt < 0 then .error (.invalid .homingDebounce)
  let hz := Units.frequency feed stepsPerMm
  if hz = 0 then .error (.invalid .homingFeed)
  return {
    hz
    acceleration := Units.stepAcceleration acceleration stepsPerMm
    debounceMs := debounce.toInt.toNat
    pullOffSteps := max 1 (Units.steps pullOff stepsPerMm) }

end Parameters

/-- Waits for the flag, for at most a number of polls, and answers how long it took. -/
def seek (limits : Limits) : Nat → Nat → Action Platform HomingFault Nat
  | 0, elapsed => fun p =>
    if p.homingSignal then (.ok elapsed, p) else (.error (.notReached limits.timeoutMs), p)
  | polls + 1, elapsed => fun p =>
    if p.homingSignal then (.ok elapsed, p)
    else seek limits polls (elapsed + limits.pollMs) (p.delay limits.pollMs)

def release : Nat → Nat → Action Platform HomingFault Nat
  | 0, made => fun p => if p.switchActive then (.error (.stillActive made), p) else (.ok made, p)
  | left + 1, made => fun p =>
    if p.switchActive then
      match Platform.step .z .forward p with
      | (.ok (), p) => release left (made + 1) p
      | (.error cause, p) => (.error (.actuation cause), p)
    else (.ok made, p)

namespace Station

def enter (phase : Phase) : Action Station HomingFault Unit :=
  .modify fun station => { station with phase }

def onDrives {α : Type} (action : Action Drives Hardware.Fault α) : Action Station HomingFault α :=
  (action.mapError .actuation).on Station.drives fun station drives => { station with drives }

def onPlatform {α : Type} (action : Action Platform HomingFault α) : Action Station HomingFault α :=
  (Drives.onPlatform action).on Station.drives fun station drives => { station with drives }

def setFlag (flag : Bool) : Action Station HomingFault Unit :=
  onPlatform (.modify fun p => { p with homingSignal := flag })

def delay (ms : Nat) : Action Station HomingFault Unit := onPlatform (.modify (Platform.delay ms))

def seekSwitch (limits : Limits) (parameters : Parameters) : Action Station HomingFault Nat := do
  enter .seeking
  onDrives (Drives.awaitRest .z)
  onDrives (Drives.enable .z)
  onDrives (Drives.setAcceleration .z parameters.acceleration)
  onDrives (Drives.setSpeed .z (Number.ofInt parameters.hz))
  onPlatform ((Platform.attach .homing).mapError .actuation)
  onDrives (Drives.startRun .z .reverse)
  onPlatform (seek limits limits.polls 0)

/-- Stops the axis and leaves its driver without power for a while. -/
def debounce (parameters : Parameters) : Action Station HomingFault Unit := do
  enter .debouncing
  onDrives (Drives.stop .z)
  onDrives (Drives.disable .z)
  delay parameters.debounceMs
  onDrives (Drives.enable .z)

def pullOff (limits : Limits) (parameters : Parameters) : Action Station HomingFault Nat := do
  enter .pullingOff
  let steps ← onPlatform (release limits.releaseSteps 0)
  onDrives (Drives.startMove .z parameters.pullOffSteps .attended)
  onDrives (Drives.setOrigin .z)
  setFlag false
  onPlatform (.modify Platform.detach)
  return steps

def sequence (limits : Limits) (parameters : Parameters) : Action Station HomingFault Report := do
  let seekMs ← seekSwitch limits parameters
  debounce parameters
  let releaseSteps ← pullOff limits parameters
  return ⟨parameters.hz, seekMs, releaseSteps, parameters.pullOffSteps⟩

def abandon : Action Station HomingFault Unit := do
  onDrives (Drives.stop .z)
  onPlatform (.modify Platform.detach)
  setFlag false

/-- Runs the whole cycle. Settings that do not allow it are found out before anything moves. -/
def home (limits : Limits) (store : Setting.Store) : Action Station HomingFault Report := do
  enter .idle
  setFlag false
  match Parameters.load store with
  | .error fault =>
    enter .faulted
    .fail fault
  | .ok parameters =>
    match ← (sequence limits parameters).attempt with
    | .ok report =>
      enter .homed
      return report
    | .error fault =>
      abandon
      enter .faulted
      .fail fault

end Station

end Crawler.Homing
