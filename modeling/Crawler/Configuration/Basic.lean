import Crawler.Homing.Cycle

/-! The configuration of the service: how it logs, where the settings are kept, which pins are used,
how far homing may go and what is simulated. -/
namespace Crawler

inductive LogLevel where
  | trace
  | debug
  | info
  | warn
  | error
deriving DecidableEq, Repr

def LogLevel.name : LogLevel → String
  | trace => "trace"
  | debug => "debug"
  | info => "info"
  | warn => "warn"
  | error => "error"

def LogLevel.ofName? (name : String) : Option LogLevel :=
  [trace, debug, info, warn, error].find? (·.name = name)

structure SharedSection where
  logLevel : LogLevel
  serviceName : String
deriving DecidableEq, Repr

structure DriverPins where
  step : Nat
  dir : Nat
  enable : Nat
deriving DecidableEq, Repr

structure PinSection where
  axes : PerAxis DriverPins
  zLimit : Nat
deriving DecidableEq, Repr

structure Configuration where
  shared : SharedSection
  settingsPath : String
  pins : PinSection
  homing : Homing.Limits
  capacity : Nat
  switchPosition : Int
deriving DecidableEq, Repr

inductive Inconsistency where
  | blankName
  | pinReused (pin : Nat) (label : String)
  | noPollInterval
  | noReleaseSteps
  | timeoutTooShort
  | noCapacity
deriving DecidableEq, Repr

inductive ConfigurationFault where
  | notFound
  | unreadable
  | inconsistent (cause : Inconsistency)
deriving DecidableEq, Repr

def Inconsistency.message : Inconsistency → String
  | blankName => "shared.service_name is blank"
  | pinReused pin label => s!"pin {pin} assigned twice (second use: {label})"
  | noPollInterval => "homing.poll_interval_ms must be > 0"
  | noReleaseSteps => "homing.release_step_limit must be > 0"
  | timeoutTooShort => "homing.seek_timeout_ms must be >= poll_interval_ms"
  | noCapacity => "console.capacity must be > 0"

def ConfigurationFault.message : ConfigurationFault → String
  | notFound => "Service configuration file not found"
  | unreadable => "Cannot read service configuration"
  | inconsistent cause => s!"Invalid service configuration: {cause.message}"

namespace SharedSection

def default : SharedSection := ⟨.info, "trak-motion"⟩

def validate (shared : SharedSection) : Except Inconsistency Unit :=
  if Text.trim shared.serviceName = "" then .error .blankName else .ok ()

def toJson (shared : SharedSection) : Json :=
  .object
    [("log_level", .text shared.logLevel.name), ("service_name", .text shared.serviceName)]

end SharedSection

def DriverPins.toJson (pins : DriverPins) : Json :=
  .object
    [("step", .integer pins.step), ("dir", .integer pins.dir), ("enable", .integer pins.enable)]

def DriverPins.labelled (name : String) (pins : DriverPins) : List (String × Nat) :=
  [(s!"{name}.step", pins.step), (s!"{name}.dir", pins.dir), (s!"{name}.enable", pins.enable)]

namespace PinSection

def default : PinSection := ⟨⟨⟨26, 25, 33⟩, ⟨14, 12, 13⟩, ⟨17, 16, 4⟩⟩, 34⟩

def uses (pins : PinSection) : List (String × Nat) :=
  Axis.all.flatMap (fun a => (pins.axes.get a).labelled a.name) ++ [("z_limit", pins.zLimit)]

def firstReuse? : List Nat → List (String × Nat) → Option (String × Nat)
  | _, [] => none
  | seen, (label, pin) :: rest =>
    if pin ∈ seen then some (label, pin) else firstReuse? (pin :: seen) rest

def validate (pins : PinSection) : Except Inconsistency Unit :=
  match firstReuse? [] pins.uses with
  | some (label, pin) => .error (.pinReused pin label)
  | none => .ok ()

def toJson (pins : PinSection) : Json :=
  .object
    [("left", pins.axes.left.toJson), ("right", pins.axes.right.toJson), ("z", pins.axes.z.toJson),
      ("z_limit", .integer pins.zLimit)]

end PinSection

namespace Homing.Limits

def default : Limits := ⟨1, 2000, 120000⟩

def validate (limits : Limits) : Except Inconsistency Unit :=
  if limits.pollMs = 0 then .error .noPollInterval
  else if limits.releaseSteps = 0 then .error .noReleaseSteps
  else if limits.timeoutMs < limits.pollMs then .error .timeoutTooShort
  else .ok ()

def toJson (limits : Limits) : Json :=
  .object
    [("poll_interval_ms", .integer limits.pollMs),
      ("release_step_limit", .integer limits.releaseSteps),
      ("seek_timeout_ms", .integer limits.timeoutMs)]

end Homing.Limits

namespace Configuration

def default : Configuration :=
  ⟨.default, "trak_settings.toml", .default, .default, 64, -2000⟩

def validate (c : Configuration) : Except Inconsistency Unit := do
  c.shared.validate
  c.pins.validate
  c.homing.validate
  if c.capacity = 0 then .error .noCapacity

def toJson (c : Configuration) : Json :=
  .object
    [("shared", c.shared.toJson), ("settings", .object [("path", .text c.settingsPath)]),
      ("pins", c.pins.toJson), ("homing", c.homing.toJson),
      ("console", .object [("capacity", .integer c.capacity)]),
      ("simulation", .object [("z_switch_position", .integer c.switchPosition)])]

end Configuration

end Crawler
