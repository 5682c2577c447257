import Crawler.Direction
import Crawler.Json.Basic

/-! Requests of the operator. A request arrives as a JSON object whose unknown members are ignored,
or as an array of its fields in order. -/
namespace Crawler

structure DriveRequest where
  direction : Direction
  /-- Requested feed in mm/min. -/
  speed : Float
  step : Float
deriving DecidableEq, Repr

structure DepthRequest where
  speed : Float
  /-- Requested travel in mm, downward if positive. -/
  step : Float
deriving DecidableEq, Repr

structure SpindleRequest where
  enable : Option Bool
  /-- Speed in percent of the configured range. -/
  speed : Option Float
deriving DecidableEq, Repr

inductive RequestFault where
  | direction (cause : DirectionFault)
  | malformed
deriving DecidableEq, Repr

namespace Request

def required {α : Type} (decode : Json → Except RequestFault α) :
    Option Json → Except RequestFault α
  | some value => decode value
  | none => .error .malformed

/-- A field that may be absent or null. -/
def optional {α : Type} (decode : Json → Except RequestFault α) :
    Option Json → Except RequestFault (Option α)
  | none | some .null => .ok none
  | some value => (decode value).map some

def number (value : Json) : Except RequestFault Float :=
  match value.number? with
  | some x => .ok x
  | none => .error .malformed

def switch (value : Json) : Except RequestFault Bool :=
  match value.bool? with
  | some b => .ok b
  | none => .error .malformed

def direction : Json → Except RequestFault Direction
  | .integer n =>
    if 0 ≤ n ∧ n ≤ 255 then (Direction.ofCode n.toNat).mapError .direction else .error .malformed
  | .text s => (Direction.parse s).mapError .direction
  | _ => .error .malformed

/-- The member that holds the direction, which has two names and may be given once. -/
def directionMember (members : List (String × Json)) : Except RequestFault Direction := do
  let old := Json.member? "axis" members
  let current := Json.member? "direction" members
  match old, current with
  | some value, some _ =>
    let _ ← direction value
    .error .malformed
  | some value, none => direction value
  | none, value => required direction value

end Request

open Request

def DriveRequest.ofJson : Json → Except RequestFault DriveRequest
  | .object members => do
    let heading ← directionMember members
    let speed ← required number (Json.member? "speed" members)
    let step ← required number (Json.member? "step" members)
    return ⟨heading, speed, step⟩
  | .array items => do
    let heading ← required Request.direction items[0]?
    let speed ← required number items[1]?
    let step ← required number items[2]?
    if items.length ≤ 3 then return ⟨heading, speed, step⟩ else .error .malformed
  | _ => .error .malformed

def DepthRequest.ofJson : Json → Except RequestFault DepthRequest
  | .object members => do
    let speed ← required number (Json.member? "speed" members)
    let step ← required number (Json.member? "step" members)
    return ⟨speed, step⟩
  | .array items => do
    let speed ← required number items[0]?
    let step ← required number items[1]?
    if items.length ≤ 2 then return ⟨speed, step⟩ else .error .malformed
  | _ => .error .malformed

def SpindleRequest.ofJson : Json → Except RequestFault SpindleRequest
  | .object members => do
    let enable ← optional switch (Json.member? "enable" members)
    let speed ← optional number (Json.member? "speed" members)
    return ⟨enable, speed⟩
  | .array items => do
    let enable ← optional switch items[0]?
    let speed ← optional number items[1]?
    if items.length ≤ 2 then return ⟨enable, speed⟩ else .error .malformed
  | _ => .error .malformed

def DriveRequest.toJson (r : DriveRequest) : Json :=
  .object
    [("direction", .text r.direction.name), ("speed", .ofFloat r.speed), ("step", .ofFloat r.step)]

def DepthRequest.toJson (r : DepthRequest) : Json :=
  .object [("speed", .ofFloat r.speed), ("step", .ofFloat r.step)]

def SpindleRequest.toJson (r : SpindleRequest) : Json :=
  .object [("enable", Json.ofOption .bool r.enable), ("speed", Json.ofOption .ofFloat r.speed)]

end Crawler
