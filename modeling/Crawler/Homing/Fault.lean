import Crawler.Hardware.Fault
import Crawler.Setting.Fault

/-! Why homing does not reach its end. -/
namespace Crawler

inductive HomingFault where
  /-- A setting that homing needs is not positive, or homing is switched off. -/
  | invalid (key : Setting.Key)
  | notReached (timeoutMs : Nat)
  | stillActive (steps : Nat)
  | settings (cause : Setting.Fault)
  | actuation (cause : Hardware.Fault)
deriving DecidableEq, Repr

def HomingFault.message : HomingFault → String
  | invalid key => s!"Homing configuration invalid: {key.text} is zero"
  | notReached timeoutMs => s!"Homing fault: limit switch not reached within {timeoutMs} ms"
  | stillActive steps => s!"Homing fault: switch still active after {steps} release steps"
  | settings cause => cause.message
  | actuation cause => s!"Actuation failure during homing: {cause.message}"

end Crawler
