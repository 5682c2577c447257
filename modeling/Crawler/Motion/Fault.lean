import Crawler.Hardware.Fault
import Crawler.Setting.Fault
import Crawler.Units

/-! Why a motion or a spindle request is not carried out. -/
namespace Crawler

inductive Quantity where
  | distance
  | feed
deriving DecidableEq, Repr

def Quantity.name : Quantity → String
  | distance => "distance"
  | feed => "feed"

inductive MotionFault where
  | notPositive (quantity : Quantity) (x : Float)
  | noDistance (x : Float)
  | tooFar (mm : Float)
  | noSteps (mm : Float)
  | noFrequency (feed : Float)
  | percentOutOfRange (percent : Float)
  /-- The target of a move lies outside the soft limits. -/
  | beyondLimit (a : Axis) (target limit : Int)
  | settings (cause : Setting.Fault)
  | actuation (a : Axis) (cause : Hardware.Fault)
  | spindle (cause : Hardware.Fault)
deriving DecidableEq, Repr

inductive MotionFault.Kind where
  | badRequest
  | beyondLimit
  | settings (cause : Setting.Fault)
  | actuation (cause : Hardware.Fault)
  | spindle (cause : Hardware.Fault)
deriving DecidableEq, Repr

namespace MotionFault

def kind : MotionFault → Kind
  | beyondLimit .. => .beyondLimit
  | settings cause => .settings cause
  | actuation _ cause => .actuation cause
  | spindle cause => .spindle cause
  | _ => .badRequest

/-- Whether a fault was caused by a request and not by the machine. -/
def isClient (fault : MotionFault) : Bool :=
  match fault.kind with
  | .badRequest | .beyondLimit => true
  | _ => false

def message : MotionFault → String
  | notPositive quantity x =>
    s!"Invalid parameters: {quantity.name} must be a positive number, got {Number.display x}"
  | noDistance x =>
    s!"Invalid parameters: distance must be a non-zero number, got {Number.display x}"
  | tooFar mm =>
    s!"Invalid parameters: distance {Number.display mm} mm exceeds {Units.stepLimit} steps"
  | noSteps mm => s!"Invalid parameters: distance {Number.display mm} mm resolves to zero steps"
  | noFrequency feed =>
    s!"Invalid parameters: feed {Number.display feed} mm/min resolves to zero steps/s"
  | percentOutOfRange percent =>
    s!"Invalid parameters: spindle speed {Number.display percent}% outside 0..=100"
  | beyondLimit a target limit =>
    s!"Soft limit exceeded on {a.name}: target {target} steps, limit ±{limit} steps"
  | settings cause => cause.message
  | actuation a cause => s!"Actuation failure on {a.name}: {cause.message}"
  | spindle cause => s!"Spindle output failure: {cause.message}"

end MotionFault

end Crawler
