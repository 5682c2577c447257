import Crawler.Number.Notation

/-! JSON values. Integers and floats are told apart by how they are written, and members of an
object keep their order. -/
namespace Crawler

inductive Json where
  | null
  | bool (b : Bool)
  | integer (n : Int)
  | float (x : Float)
  | text (s : String)
  | array (items : List Json)
  | object (members : List (String × Json))
deriving Inhabited

namespace Json

def ofOption {α : Type} (encode : α → Json) : Option α → Json
  | some a => encode a
  | none => null

/-- A float as a number, or null if it has no digits. -/
def ofFloat (x : Float) : Json := if x.isFinite then float x else null

/-- The value of a member; of several with one name the last one counts. -/
def member? (name : String) (members : List (String × Json)) : Option Json :=
  (members.reverse.find? (·.1 = name)).map (·.2)

/-- The number that a value stands for; an integer counts as the nearest float. -/
def number? : Json → Option Float
  | integer n => some (Number.ofInt n)
  | float x => some x
  | _ => none

def bool? : Json → Option Bool
  | bool b => some b
  | _ => none

def text? : Json → Option String
  | text s => some s
  | _ => none

def integer? : Json → Option Int
  | integer n => some n
  | _ => none

end Json

end Crawler
