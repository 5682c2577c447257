import Crawler.Homing.Cycle
import Crawler.Motion.Dispatch
import Crawler.Request
import Crawler.Spindle

/-! What a machine can be asked for, what it answers and why it refuses. -/
namespace Crawler.Machine

inductive Command where
  | drive (request : DriveRequest)
  | depth (request : DepthRequest)
  | home
  | status
  | emergencyStop
  | spindle (request : SpindleRequest)
  | showSettings
  | showSetting (key : Setting.Key)
  | enterSetting (key : Setting.Key) (value : String)
  | restoreSettings
deriving DecidableEq, Repr

structure AxisReport where
  axis : Axis
  reading : AxisReading
  positionMm : Float
deriving DecidableEq, Repr

structure Status where
  axes : PerAxis AxisReport
  phase : Homing.Phase
  spindle : SpindleReading
deriving DecidableEq, Repr

inductive Response where
  | motion (receipt : Receipt)
  | homed (report : Homing.Report)
  | status (current : Status)
  | spindle (state : SpindleReading)
  | settings (entries : List Setting.Entry)
  | setting (entry : Setting.Entry)
  | stopped
deriving DecidableEq, Repr

inductive Fault where
  | motion (cause : MotionFault)
  | homing (cause : HomingFault)
  | settings (cause : Setting.Fault)
deriving DecidableEq, Repr

def Fault.message : Fault → String
  | motion cause => cause.message
  | homing cause => cause.message
  | settings cause => cause.message

/-- Whether a fault was caused by a request and not by the machine. Homing has no such faults. -/
def Fault.isClient : Fault → Bool
  | motion cause => cause.isClient
  | homing _ => false
  | settings cause => cause.isClient

namespace Status

def busy (status : Status) : Bool := status.axes.toList.any (·.reading.running)

def isHomed (status : Status) : Bool := status.phase = .homed

end Status

def AxisReport.toJson (report : AxisReport) : Json :=
  .object
    [("axis", .text report.axis.name), ("position_steps", .integer report.reading.position),
      ("position_mm", .float report.positionMm), ("speed_hz", .float report.reading.speedHz),
      ("acceleration", .float report.reading.acceleration),
      ("enabled", .bool report.reading.enabled), ("running", .bool report.reading.running)]

def Status.toJson (status : Status) : Json :=
  .object
    [("axes", .array (status.axes.map AxisReport.toJson).toList), ("z_homed", .bool status.isHomed),
      ("homing_phase", .text status.phase.name), ("spindle", status.spindle.toJson),
      ("busy", .bool status.busy)]

def Response.content : Response → String × Option Json
  | motion receipt => ("motion", some receipt.toJson)
  | homed report => ("homed", some report.toJson)
  | status current => ("status", some current.toJson)
  | spindle state => ("spindle", some state.toJson)
  | settings entries => ("settings", some (.array (entries.map Setting.Entry.toJson)))
  | setting entry => ("setting", some entry.toJson)
  | stopped => ("stopped", none)

def Response.toJson (response : Response) : Json :=
  let (tag, content) := response.content
  .object (("result", .text tag) :: (content.map fun content => ("data", content)).toList)

end Crawler.Machine
