import Crawler.Number.Notation

/-! Why the hardware refuses an operation. -/
namespace Crawler.Hardware

inductive Fault where
  | moveRejected (engine reason : String)
  | unpowered (engine : String)
  | speedOutOfRange (engine : String) (hz : Float)
  | accelerationOutOfRange (engine : String) (acceleration : Float)
  | speedNotSet (engine : String)
  /-- A continuous run has no end that could be waited for. -/
  | endlessWait (engine : String)
  | stepInFlight (engine : String)
  | switchArmed
  | dutyOutOfRange (duty : Float)
  | outputOffline
deriving DecidableEq, Repr

inductive FaultKind where
  | moveRejected
  | unpowered
  | badParameter
  | communication
deriving DecidableEq, Repr

namespace Fault

def kind : Fault → FaultKind
  | moveRejected .. => .moveRejected
  | unpowered _ => .unpowered
  | outputOffline => .communication
  | _ => .badParameter

def detail : Fault → String
  | moveRejected engine reason => s!"{engine}: {reason}"
  | unpowered engine => engine
  | speedOutOfRange engine hz => s!"{engine}: max speed {Number.display hz} out of range"
  | accelerationOutOfRange engine acceleration =>
    s!"{engine}: acceleration {Number.display acceleration} out of range"
  | speedNotSet engine => s!"{engine}: max speed not set"
  | endlessWait engine => s!"{engine}: cannot wait on a continuous run"
  | stepInFlight engine => s!"{engine}: single step while a move is in flight"
  | switchArmed => "limit switch interrupt already attached"
  | dutyOutOfRange duty => s!"spindle duty {Number.display duty} outside 0..=1"
  | outputOffline => "spindle offline"

def message (fault : Fault) : String :=
  match fault.kind with
  | .moveRejected => s!"Move rejected by {fault.detail}"
  | .unpowered => s!"Driver {fault.detail} is disabled"
  | .badParameter => s!"Invalid parameter: {fault.detail}"
  | .communication => s!"Hardware communication error: {fault.detail}"

end Fault

end Crawler.Hardware
