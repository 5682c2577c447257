import Crawler.Action
import Crawler.Axis
import Crawler.Hardware.Engine

/-! The platform: three engines, the limit switch of the depth axis and a clock that only moves when
something waits. The switch is active where the depth axis is at its trigger position or beyond; it
serves its armed handler, once, as soon as the clock moves while it is active. -/
namespace Crawler.Hardware

inductive Handler where
  | homing
  | observer (id : Nat)
deriving DecidableEq, Repr

structure LimitSwitch where
  trigger : Int
  /-- A level in place of the one that the position gives. -/
  levelOverride : Option Bool
  armed : Option Handler
  /-- The handlers that were told, oldest first. -/
  served : List Handler
deriving DecidableEq, Repr

structure Platform where
  now : Nat
  eventCount : Nat
  engines : PerAxis Engine
  logs : PerAxis (Array Event)
  limit : LimitSwitch
  homingSignal : Bool
deriving Repr

namespace Platform

/-- A platform at rest whose engines are named after the pins that they step. -/
def fresh (pins : PerAxis Nat) (trigger : Int) : Platform where
  now := 0
  eventCount := 0
  engines := .ofFn fun a => .fresh s!"{a.name}@gpio{pins.get a}"
  logs := .replicate #[]
  limit := ⟨trigger, none, none, []⟩
  homingSignal := false

def engine (p : Platform) (a : Axis) : Engine := p.engines.get a

def log (p : Platform) (a : Axis) : Array Event := p.logs.get a

def physical (p : Platform) (a : Axis) : Int := (p.engine a).absoluteAt p.now

def position (p : Platform) (a : Axis) : Int := (p.engine a).positionAt p.now

def switchActive (p : Platform) : Bool :=
  p.limit.levelOverride.getD (decide (p.physical .z ≤ p.limit.trigger))

def tell (handler : Handler) (p : Platform) : Platform :=
  let p := { p with limit := { p.limit with armed := none, served := p.limit.served ++ [handler] } }
  match handler with
  | .homing => { p with homingSignal := true }
  | .observer _ => p

/-- Tells the armed handler of an edge, or of an active level. -/
def serve (edge : Bool) (p : Platform) : Platform :=
  match p.limit.armed with
  | none => p
  | some handler => if edge || p.switchActive then p.tell handler else p

def advance (us : Nat) (p : Platform) : Platform := serve false { p with now := p.now + us }

def advanceUntil (us : Nat) (p : Platform) : Platform :=
  if p.now < us then p.advance (us - p.now) else p

def microseconds (ms : Nat) : Nat := min (ms * 1000) (UInt64.size - 1)

def delay (ms : Nat) (p : Platform) : Platform := p.advance (microseconds ms)

def note (a : Axis) (what : Occurrence) (p : Platform) : Platform :=
  let event : Event := ⟨p.eventCount, p.now, what⟩
  { p with eventCount := p.eventCount + 1, logs := p.logs.modify a (·.push event) }

@[inline] def engage {α : Type} (a : Axis) (op : Nat → Engine → Engine.Outcome α) :
    Action Platform Fault α := fun p =>
  let outcome := op p.now (p.engines.get a)
  let p := { p with engines := p.engines.set a outcome.engine }
  match outcome.occurrence with
  | none => (outcome.result, p)
  | some what => (outcome.result, p.note a what)

def setSpeed (a : Axis) (hz : Float) : Action Platform Fault Unit :=
  engage a fun _ => Engine.setSpeed hz

def setAcceleration (a : Axis) (acceleration : Float) : Action Platform Fault Unit :=
  engage a fun _ => Engine.setAcceleration acceleration

def startMove (a : Axis) (steps : Int) : Action Platform Fault Unit :=
  engage a (Engine.startMove steps)

def startRun (a : Axis) (direction : Sense) : Action Platform Fault Unit :=
  engage a (Engine.startRun direction)

def retire (a : Axis) (p : Platform) : Platform :=
  { p with engines := p.engines.modify a (·.retire p.now) }

/-- Whether an axis is in motion; a move whose time is over has ended. -/
def queryMoving {ε : Type} (a : Axis) : Action Platform ε Bool := do
  .modify (retire a)
  let p ← .read
  return (p.engine a).isMoving

def awaitEnd (a : Axis) : Action Platform Fault Unit := do
  match ← engage a Engine.beginWait with
  | none => pure ()
  | some finish =>
    .modify (advanceUntil finish)
    .modify (retire a)

def stop (a : Axis) : Action Platform Fault Unit := engage a Engine.stop

def step (a : Axis) (direction : Sense) : Action Platform Fault Unit :=
  engage a (Engine.step direction)

def setPosition (a : Axis) (position : Int) : Action Platform Fault Unit :=
  engage a (Engine.setPosition position)

def enable (a : Axis) : Action Platform Fault Unit := engage a fun _ => Engine.enable

def disable (a : Axis) : Action Platform Fault Unit := engage a Engine.disable

def failNext (a : Axis) (reason : String) (p : Platform) : Platform :=
  { p with engines := p.engines.modify a fun e => { e with nextFault := some reason } }

def clearLog (a : Axis) (p : Platform) : Platform := { p with logs := p.logs.set a #[] }

def takeNumber : Action Platform Fault Nat := fun p =>
  (.ok p.eventCount, { p with eventCount := p.eventCount + 1 })

/-- Arms the limit switch for one handler, which is told at once if the switch is active. -/
def attach (handler : Handler) : Action Platform Fault Unit := fun p =>
  match p.limit.armed with
  | some _ => (.error .switchArmed, p)
  | none => (.ok (), serve false { p with limit := { p.limit with armed := some handler } })

def detach (p : Platform) : Platform := { p with limit := { p.limit with armed := none } }

/-- An edge at the limit switch, wherever the axis is. -/
def trigger (p : Platform) : Platform := p.serve true

def overrideLevel (level : Option Bool) (p : Platform) : Platform :=
  { p with limit := { p.limit with levelOverride := level } }

def observed (p : Platform) : Nat :=
  (p.limit.served.filter fun
    | .observer _ => true
    | .homing => false).length

def moveHistory (p : Platform) (a : Axis) : List (Int × Float) :=
  (p.log a).toList.filterMap (·.what.startedMove?)

def sawDrop (p : Platform) (a : Axis) : Bool := (p.log a).any (·.what.isDrop)

end Platform

end Crawler.Hardware
