import Crawler.Sense

/-! What the log of an engine tells. -/
namespace Crawler.Hardware

inductive Occurrence where
  | speedSet (hz : Float)
  | accelerationSet (acceleration : Float)
  | moveStarted (steps : Int) (hz : Float)
  /-- A move arrived while another one was in flight. -/
  | moveDropped (steps : Int)
  | moveRejected (steps : Int)
  | runStarted (direction : Sense)
  | waitedIdle
  | stopped
  | stepped (direction : Sense)
  | positionReset (position : Int)
  | enabled
  | disabled
deriving DecidableEq, Repr

structure Event where
  /-- Counts the events of all engines. -/
  seq : Nat
  time : Nat
  what : Occurrence
deriving DecidableEq, Repr

def Occurrence.startedMove? : Occurrence → Option (Int × Float)
  | moveStarted steps hz => some (steps, hz)
  | _ => none

def Occurrence.isDrop : Occurrence → Bool
  | moveDropped _ => true
  | _ => false

end Crawler.Hardware
