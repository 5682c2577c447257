import Crawler.Axis
import Crawler.Setting.Value

/-! The table of machine settings. A setting is known by its number, written after a dollar sign,
and has a kind, a description, a unit and a default that are fixed. -/
namespace Crawler.Setting

inductive Key where
  | stepPulse
  | stepIdleDelay
  | stepPulseInvert
  | stepDirectionInvert
  | invertStepEnable
  | invertLimitPins
  | invertProbePin
  | statusReportMask
  | junctionDeviation
  | arcTolerance
  | reportInches
  | softLimits
  | hardLimits
  | homingEnable
  | homingDirectionInvert
  | homingFeed
  | homingSeek
  | homingDebounce
  | homingPullOff
  | spindleMaxRpm
  | spindleMinRpm
  | laserMode
  | stepsPerMm (a : Axis)
  | maxRate (a : Axis)
  | acceleration (a : Axis)
  | maxTravel (a : Axis)
deriving DecidableEq, Repr

structure Definition where
  description : String
  unit : Option String
  default : Value
deriving DecidableEq, Repr

namespace Key

def all : List Key :=
  [stepPulse, stepIdleDelay, stepPulseInvert, stepDirectionInvert, invertStepEnable,
    invertLimitPins, invertProbePin, statusReportMask, junctionDeviation, arcTolerance,
    reportInches, softLimits, hardLimits, homingEnable, homingDirectionInvert, homingFeed,
    homingSeek, homingDebounce, homingPullOff, spindleMaxRpm, spindleMinRpm, laserMode] ++
  Axis.all.map stepsPerMm ++ Axis.all.map maxRate ++ Axis.all.map acceleration ++
  Axis.all.map maxTravel

def number : Key → Nat
  | stepPulse => 0
  | stepIdleDelay => 1
  | stepPulseInvert => 2
  | stepDirectionInvert => 3
  | invertStepEnable => 4
  | invertLimitPins => 5
  | invertProbePin => 6
  | statusReportMask => 10
  | junctionDeviation => 11
  | arcTolerance => 12
  | reportInches => 13
  | softLimits => 20
  | hardLimits => 21
  | homingEnable => 22
  | homingDirectionInvert => 23
  | homingFeed => 24
  | homingSeek => 25
  | homingDebounce => 26
  | homingPullOff => 27
  | spindleMaxRpm => 30
  | spindleMinRpm => 31
  | laserMode => 32
  | stepsPerMm a => 100 + a.index
  | maxRate a => 110 + a.index
  | acceleration a => 120 + a.index
  | maxTravel a => 130 + a.index

def ofNumber? (n : Nat) : Option Key := all.find? (·.number = n)

def text (key : Key) : String := s!"${key.number}"

def definition : Key → Definition
  | stepPulse => ⟨"Step pulse time in microseconds", some "µs", .int 10⟩
  | stepIdleDelay => ⟨"Step idle delay in milliseconds", some "ms", .int 25⟩
  | stepPulseInvert => ⟨"Step pulse invert mask", none, .short 0⟩
  | stepDirectionInvert => ⟨"Step direction invert mask", none, .short 0⟩
  | invertStepEnable => ⟨"Invert step enable pin", none, .bool false⟩
  | invertLimitPins => ⟨"Invert limit pins", none, .bool false⟩
  | invertProbePin => ⟨"Invert probe pin", none, .bool false⟩
  | statusReportMask => ⟨"Status report options mask", none, .short 1⟩
  | junctionDeviation => ⟨"Junction deviation in millimeters", some "mm", .float 0.010⟩
  | arcTolerance => ⟨"Arc tolerance in millimeters", some "mm", .float 0.002⟩
  | reportInches => ⟨"Report in inches", none, .bool false⟩
  | softLimits => ⟨"Soft limits enabled", none, .bool false⟩
  | hardLimits => ⟨"Hard limits enabled", none, .bool false⟩
  | homingEnable => ⟨"Homing cycle enabled", none, .bool true⟩
  | homingDirectionInvert => ⟨"Homing direction invert mask", none, .short 0⟩
  | homingFeed => ⟨"Homing feed rate in mm/min", some "mm/min", .float 25.0⟩
  | homingSeek => ⟨"Homing seek rate in mm/min", some "mm/min", .float 500.0⟩
  | homingDebounce => ⟨"Homing debounce delay in milliseconds", some "ms", .int 250⟩
  | homingPullOff => ⟨"Homing pull-off in millimeters", some "mm", .float 1.0⟩
  | spindleMaxRpm => ⟨"Maximum spindle speed in RPM", some "RPM", .int 1000⟩
  | spindleMinRpm => ⟨"Minimum spindle speed in RPM", some "RPM", .int 0⟩
  | laserMode => ⟨"Laser mode enabled", none, .bool false⟩
  | stepsPerMm a => ⟨s!"{a.letter}-axis steps per millimeter", some "steps/mm", .float 250.0⟩
  | maxRate a => ⟨s!"{a.letter}-axis maximum rate in mm/min", some "mm/min", .float 500.0⟩
  | acceleration a => ⟨s!"{a.letter}-axis acceleration in mm/sec²", some "mm/sec²", .float 10.0⟩
  | maxTravel a => ⟨s!"{a.letter}-axis maximum travel in millimeters", some "mm", .float 200.0⟩

def default (key : Key) : Value := key.definition.default

def kind (key : Key) : Kind := key.default.kind

/-- The key that a text names, with or without its dollar sign. -/
def parse? (source : String) : Option Key :=
  let trimmed := (Text.trim source).toList
  let digits :=
    match trimmed with
    | '$' :: rest => rest
    | _ => trimmed
  match Number.readInteger 0 65535 (String.ofList digits) with
  | .ok n => ofNumber? n.toNat
  | .error _ => none

theorem mem_all (key : Key) : key ∈ all := by
  cases key with
  | stepsPerMm a | maxRate a | acceleration a | maxTravel a => cases a <;> decide
  | _ => decide

end Key

end Crawler.Setting
