import Crawler.Hardware.Event
import Crawler.Hardware.Fault
import Crawler.Hardware.Profile
import Crawler.Units

/-! The step engine of one axis. A motion is known by its start and its profile, and the position
at any time follows from them. The physical position belongs to the machine frame; the logical one
differs from it by an offset. Each operation is told the time and reports at most one occurrence. -/
namespace Crawler.Hardware

structure Move where
  start : Nat
  origin : Int
  steps : Int
  hz : Float
  acceleration : Float
  duration : Nat
deriving DecidableEq, Repr

structure Run where
  start : Nat
  origin : Int
  direction : Sense
  hz : Float
  acceleration : Float
deriving DecidableEq, Repr

inductive Motion where
  | idle
  | move (m : Move)
  | run (r : Run)
deriving DecidableEq, Repr

structure Engine where
  name : String
  physical : Int
  offset : Int
  motion : Motion
  speed : Float
  acceleration : Float
  enabled : Bool
  nextFault : Option String
deriving DecidableEq, Repr

def Move.finish (m : Move) : Nat := m.start + m.duration

def Move.doneAt (m : Move) (now : Nat) : Int :=
  let n := Number.ofInt m.steps.natAbs
  let done := Profile.distance n m.hz m.acceleration (Profile.seconds (now - m.start))
  min (Units.toSteps (Number.floor done)) m.steps.natAbs

def Move.positionAt (m : Move) (now : Nat) : Int :=
  if m.finish ≤ now then m.origin + m.steps else m.origin + m.doneAt now * m.steps.sign

def Run.positionAt (r : Run) (now : Nat) : Int :=
  let done := Profile.runStepsAt r.hz r.acceleration (Profile.seconds (now - r.start))
  r.origin + Units.toSteps (Number.floor done) * r.direction.sign

structure Engine.Outcome (α : Type) where
  engine : Engine
  occurrence : Option Occurrence
  result : Except Fault α

namespace Engine

def fresh (name : String) : Engine := ⟨name, 0, 0, .idle, 0, 0, true, none⟩

def absoluteAt (e : Engine) (now : Nat) : Int :=
  match e.motion with
  | .idle => e.physical
  | .move m => m.positionAt now
  | .run r => r.positionAt now

def positionAt (e : Engine) (now : Nat) : Int := e.absoluteAt now - e.offset

def freeze (now : Nat) (e : Engine) : Engine :=
  { e with physical := e.absoluteAt now, motion := .idle }

/-- Ends a move whose time is over. -/
def retire (now : Nat) (e : Engine) : Engine :=
  match e.motion with
  | .move m => if m.finish ≤ now then e.freeze now else e
  | _ => e

def isMoving (e : Engine) : Bool :=
  match e.motion with
  | .idle => false
  | _ => true

def isSpeed (x : Float) : Bool := x.isFinite && !(x < 0)

def setSpeed (hz : Float) (e : Engine) : Outcome Unit :=
  if isSpeed hz then ⟨{ e with speed := hz }, some (.speedSet hz), .ok ()⟩
  else ⟨e, none, .error (.speedOutOfRange e.name hz)⟩

def setAcceleration (a : Float) (e : Engine) : Outcome Unit :=
  if isSpeed a then ⟨{ e with acceleration := a }, some (.accelerationSet a), .ok ()⟩
  else ⟨e, none, .error (.accelerationOutOfRange e.name a)⟩

/-- The time that a move takes at the set speed, at least a microsecond. -/
def moveDuration (steps : Int) (e : Engine) : Nat :=
  let duration := Profile.duration (Number.ofInt steps.natAbs) e.speed e.acceleration
  max 1 ((Number.ceil (duration * 1000000)).clamp 0 (UInt64.size - 1)).toNat

/-- Starts a move. One that arrives while another is in flight is dropped. -/
def startMove (steps : Int) (now : Nat) (e : Engine) : Outcome Unit :=
  let e := e.retire now
  if !e.enabled then ⟨e, none, .error (.unpowered e.name)⟩
  else
    match e.nextFault with
    | some reason =>
      ⟨{ e with nextFault := none }, some (.moveRejected steps),
        .error (.moveRejected e.name reason)⟩
    | none =>
      if steps = 0 then ⟨e, none, .ok ()⟩
      else if e.isMoving then ⟨e, some (.moveDropped steps), .ok ()⟩
      else if e.speed ≤ 0 then ⟨e, none, .error (.speedNotSet e.name)⟩
      else
        let m : Move := ⟨now, e.physical, steps, e.speed, e.acceleration, e.moveDuration steps⟩
        ⟨{ e with motion := .move m }, some (.moveStarted steps e.speed), .ok ()⟩

/-- Starts a run without end, in place of any other motion. -/
def startRun (direction : Sense) (now : Nat) (e : Engine) : Outcome Unit :=
  let e := e.freeze now
  if !e.enabled then ⟨e, none, .error (.unpowered e.name)⟩
  else if e.speed ≤ 0 then ⟨e, none, .error (.speedNotSet e.name)⟩
  else
    let r : Run := ⟨now, e.physical, direction, e.speed, e.acceleration⟩
    ⟨{ e with motion := .run r }, some (.runStarted direction), .ok ()⟩

/-- The end of the move in flight, if there is one to wait for. -/
def beginWait (now : Nat) (e : Engine) : Outcome (Option Nat) :=
  let e := e.retire now
  match e.motion with
  | .idle => ⟨e, none, .ok none⟩
  | .run _ => ⟨e, none, .error (.endlessWait e.name)⟩
  | .move m => ⟨e, some .waitedIdle, .ok (some m.finish)⟩

def stop (now : Nat) (e : Engine) : Outcome Unit := ⟨e.freeze now, some .stopped, .ok ()⟩

def step (direction : Sense) (now : Nat) (e : Engine) : Outcome Unit :=
  let e := e.retire now
  if !e.enabled then ⟨e, none, .error (.unpowered e.name)⟩
  else if e.isMoving then ⟨e, none, .error (.stepInFlight e.name)⟩
  else
    ⟨{ e with physical := e.physical + direction.sign }, some (.stepped direction), .ok ()⟩

def setPosition (position : Int) (now : Nat) (e : Engine) : Outcome Unit :=
  let e := e.freeze now
  ⟨{ e with offset := e.physical - position }, some (.positionReset position), .ok ()⟩

def enable (e : Engine) : Outcome Unit :=
  if e.enabled then ⟨e, none, .ok ()⟩ else ⟨{ e with enabled := true }, some .enabled, .ok ()⟩

def disable (now : Nat) (e : Engine) : Outcome Unit :=
  let e := e.freeze now
  if e.enabled then ⟨{ e with enabled := false }, some .disabled, .ok ()⟩ else ⟨e, none, .ok ()⟩

end Engine

end Crawler.Hardware
