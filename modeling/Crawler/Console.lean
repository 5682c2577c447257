import Crawler.Json.Basic

/-! Messages to the operator. They go into a queue of limited length that someone drains, or only
into a log. A message that cannot be delivered is lost, and nothing else happens. -/
namespace Crawler

inductive Severity where
  | info
  | warning
  | error
  | success
deriving DecidableEq, Repr

def Severity.name : Severity → String
  | info => "info"
  | warning => "warning"
  | error => "error"
  | success => "success"

def Severity.ofName? (name : String) : Option Severity :=
  [info, warning, error, success].find? (·.name = name)

structure Notice where
  severity : Severity
  text : String
deriving DecidableEq, Repr

def Notice.toJson (m : Notice) : Json :=
  .object [("type", .text m.severity.name), ("message", .text m.text)]

inductive Console where
  | queue (capacity : Nat) (waiting : List Notice)
  /-- A queue that nobody drains any more. -/
  | closed
  | log
deriving DecidableEq, Repr

inductive ConsoleFault where
  | full
  | disconnected
deriving DecidableEq, Repr

def ConsoleFault.message : ConsoleFault → String
  | full => "Console queue full"
  | disconnected => "Console receiver disconnected"

namespace Console

def deliver (m : Notice) : Console → Except ConsoleFault Unit × Console
  | queue capacity waiting =>
    if waiting.length < capacity then (.ok (), queue capacity (waiting ++ [m]))
    else (.error .full, queue capacity waiting)
  | closed => (.error .disconnected, closed)
  | log => (.ok (), log)

/-- Sends a message, whether it arrives or not. -/
def tell (console : Console) (severity : Severity) (text : String) : Console :=
  (console.deliver ⟨severity, text⟩).2

def collect : Console → List Notice × Console
  | queue capacity waiting => (waiting, queue capacity [])
  | closed => ([], closed)
  | log => ([], log)

end Console

end Crawler
