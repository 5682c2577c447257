import Crawler.Configuration.Basic
import Crawler.Toml.Reader

/-! Reading the configuration from a TOML document. What is missing has its default and what is not
known is ignored. A section may also be written as an array of its fields in order. -/
namespace Crawler

/-- The fields of a section by name. What a table holds beside them has to be readable; what follows
them in an array is never looked at. A date in place of a section has no fields. -/
def Toml.fields? (names : List String) : Toml → Option (String → Option Toml)
  | .table _ entries =>
    if Toml.othersReadable names entries then some fun name => Toml.entry? name entries else none
  | .array items | .tables items => some fun name => items[names.idxOf name]?
  | .moment _ => some fun _ => none
  | _ => none

namespace Configuration

def orDefault {α : Type} (default : α) (decode : Toml → Option α) : Option Toml → Option α
  | none => some default
  | some value => decode value

def natural? (bound : Nat) : Toml → Option Nat
  | .integer n => if 0 ≤ n ∧ n < bound then some n.toNat else none
  | _ => none

def position? : Toml → Option Int
  | .integer n => if Int64.minValue.toInt ≤ n ∧ n ≤ Int64.maxValue.toInt then some n else none
  | _ => none

def text? : Toml → Option String
  | .text s => some s
  | _ => none

def isVoid : Toml → Bool
  | .array [] | .table _ [] => true
  | _ => false

/-- A level by its name, which may also be the only entry of a table, with nothing as its value. -/
def logLevel? : Toml → Option LogLevel
  | .text s => LogLevel.ofName? s
  | .table _ [(name, value)] => if isVoid value then LogLevel.ofName? name else none
  | _ => none

def shared? (value : Toml) : Option SharedSection := do
  let field ← value.fields? ["log_level", "service_name"]
  let logLevel ← orDefault SharedSection.default.logLevel logLevel? (field "log_level")
  let serviceName ← orDefault SharedSection.default.serviceName text? (field "service_name")
  return ⟨logLevel, serviceName⟩

def settingsPath? (value : Toml) : Option String := do
  let field ← value.fields? ["path"]
  orDefault Configuration.default.settingsPath text? (field "path")

/-- The pins of one driver, none of which has a default. -/
def driverPins? (value : Toml) : Option DriverPins := do
  let field ← value.fields? ["step", "dir", "enable"]
  let step ← (field "step").bind (natural? 256)
  let dir ← (field "dir").bind (natural? 256)
  let enable ← (field "enable").bind (natural? 256)
  return ⟨step, dir, enable⟩

def pins? (value : Toml) : Option PinSection := do
  let field ← value.fields? ["left", "right", "z", "z_limit"]
  let left ← orDefault PinSection.default.axes.left driverPins? (field "left")
  let right ← orDefault PinSection.default.axes.right driverPins? (field "right")
  let z ← orDefault PinSection.default.axes.z driverPins? (field "z")
  let zLimit ← orDefault PinSection.default.zLimit (natural? 256) (field "z_limit")
  return ⟨⟨left, right, z⟩, zLimit⟩

def homing? (value : Toml) : Option Homing.Limits := do
  let field ← value.fields? ["poll_interval_ms", "release_step_limit", "seek_timeout_ms"]
  let default := Homing.Limits.default
  let pollMs ← orDefault default.pollMs (natural? UInt64.size) (field "poll_interval_ms")
  let releaseSteps ←
    orDefault default.releaseSteps (natural? UInt32.size) (field "release_step_limit")
  let timeoutMs ← orDefault default.timeoutMs (natural? UInt64.size) (field "seek_timeout_ms")
  return ⟨pollMs, releaseSteps, timeoutMs⟩

def capacity? (value : Toml) : Option Nat := do
  let field ← value.fields? ["capacity"]
  orDefault Configuration.default.capacity (natural? UInt64.size) (field "capacity")

def switchPosition? (value : Toml) : Option Int := do
  let field ← value.fields? ["z_switch_position"]
  orDefault Configuration.default.switchPosition position? (field "z_switch_position")

def sections : List String := ["shared", "settings", "pins", "homing", "console", "simulation"]

def ofEntries? (entries : Toml.Entries) : Option Configuration := do
  guard (Toml.othersReadable sections entries)
  let default := Configuration.default
  let shared ← orDefault default.shared shared? (Toml.entry? "shared" entries)
  let settingsPath ← orDefault default.settingsPath settingsPath? (Toml.entry? "settings" entries)
  let pins ← orDefault default.pins pins? (Toml.entry? "pins" entries)
  let homing ← orDefault default.homing homing? (Toml.entry? "homing" entries)
  let capacity ← orDefault default.capacity capacity? (Toml.entry? "console" entries)
  let switchPosition ←
    orDefault default.switchPosition switchPosition? (Toml.entry? "simulation" entries)
  return { shared, settingsPath, pins, homing, capacity, switchPosition }

def read? (content : String) : Option Configuration := (Toml.read? content).bind ofEntries?

def load (files : Files) (path : String) : Except ConfigurationFault Configuration :=
  match files.find path with
  | .error .missing => .error .notFound
  | .ok (.text content) =>
    match read? content with
    | some c => .ok c
    | none => .error .unreadable
  | _ => .error .unreadable

end Configuration

end Crawler
