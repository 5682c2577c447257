import Crawler.Hardware.Platform

/-! Everything that can be asked of the platform, as data. A query may end a move whose time is over, as
the engines do when they are looked at; all other operations are there to change something. -/
namespace Crawler.Hardware

inductive Answer where
  | done
  | name (text : String)
  | flag (b : Bool)
  | count (n : Nat)
  | place (steps : Int)
  | rate (x : Float)
  | events (log : List Event)
  | moves (history : List (Int × Float))
deriving DecidableEq, Repr

inductive Query where
  | now
  | name (a : Axis)
  | moving (a : Axis)
  | position (a : Axis)
  | physical (a : Axis)
  | enabled (a : Axis)
  | speed (a : Axis)
  | acceleration (a : Axis)
  | events (a : Axis)
  | moves (a : Axis)
  | saw (a : Axis) (wanted : Occurrence → Bool)
  | armed
  | active
  | served
  | trigger

/-- What an engine can be told to do. -/
inductive Engine.Call where
  | setSpeed (hz : Float)
  | setAcceleration (acceleration : Float)
  | startMove (steps : Int)
  | startRun (direction : Sense)
  | awaitEnd
  | stop
  | step (direction : Sense)
  | setPosition (position : Int)
  | enable
  | disable
deriving DecidableEq, Repr

/-- A way to let time pass. -/
inductive Passage where
  | advance (us : Nat)
  | advanceUntil (us : Nat)
  | delay (ms : Nat)
deriving DecidableEq, Repr

inductive Operation where
  | query (asked : Query)
  | call (a : Axis) (told : Engine.Call)
  | pass (passage : Passage)
  | failNext (a : Axis) (reason : String)
  | clearLog (a : Axis)
  | takeNumber
  | attach (handler : Handler)
  | detach
  | trigger
  | overrideLevel (level : Option Bool)

def Query.ask : Query → Action Platform Fault Answer
  | now => tell fun p => .count p.now
  | name a => tell fun p => .name (p.engine a).name
  | moving a => return .flag (← Platform.queryMoving a)
  | position a => tell fun p => .place (p.position a)
  | physical a => tell fun p => .place (p.physical a)
  | enabled a => tell fun p => .flag (p.engine a).enabled
  | speed a => tell fun p => .rate (p.engine a).speed
  | acceleration a => tell fun p => .rate (p.engine a).acceleration
  | events a => tell fun p => .events (p.log a).toList
  | moves a => tell fun p => .moves (p.moveHistory a)
  | saw a wanted => tell fun p => .flag ((p.log a).any (wanted ·.what))
  | armed => tell fun p => .flag p.limit.armed.isSome
  | active => tell fun p => .flag p.switchActive
  | served => tell fun p => .count p.limit.served.length
  | trigger => tell fun p => .place p.limit.trigger
where
  tell (answer : Platform → Answer) : Action Platform Fault Answer := fun p => (.ok (answer p), p)

def Engine.Call.action (a : Axis) : Engine.Call → Action Platform Fault Unit
  | setSpeed hz => Platform.setSpeed a hz
  | setAcceleration acceleration => Platform.setAcceleration a acceleration
  | startMove steps => Platform.startMove a steps
  | startRun direction => Platform.startRun a direction
  | awaitEnd => Platform.awaitEnd a
  | stop => Platform.stop a
  | step direction => Platform.step a direction
  | setPosition position => Platform.setPosition a position
  | enable => Platform.enable a
  | disable => Platform.disable a

def Passage.apply : Passage → Platform → Platform
  | advance us => Platform.advance us
  | advanceUntil us => Platform.advanceUntil us
  | delay ms => Platform.delay ms

/-- By how much the clock moves. -/
def Passage.length (p : Platform) : Passage → Nat
  | advance us => us
  | advanceUntil us => us - p.now
  | delay ms => Platform.microseconds ms

def Operation.action : Operation → Action Platform Fault Answer
  | query asked => asked.ask
  | call a told => noted (told.action a)
  | pass passage => noted (.modify passage.apply)
  | failNext a reason => noted (.modify (Platform.failNext a reason))
  | clearLog a => noted (.modify (Platform.clearLog a))
  | takeNumber => return .count (← Platform.takeNumber)
  | attach handler => noted (Platform.attach handler)
  | detach => noted (.modify Platform.detach)
  | trigger => noted (.modify Platform.trigger)
  | overrideLevel level => noted (.modify (Platform.overrideLevel level))
where
  noted (action : Action Platform Fault Unit) : Action Platform Fault Answer := do
    action
    return .done

/-- The answers to one operation after another, failures among them. -/
def Platform.answers : List Operation → Platform → List (Except Fault Answer) × Platform
  | [], p => ([], p)
  | operation :: rest, p =>
    let (answer, p) := operation.action.run p
    let (answers, p) := answers rest p
    (answer :: answers, p)

end Crawler.Hardware
