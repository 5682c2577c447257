import Crawler.Json.Basic
import Crawler.Number.IntegerText
import Crawler.Text.Blank

/-! Values of settings. A value has one of four kinds; a stored value is what the persisted document
can hold, where integers of all kinds look alike and floats are wide. -/
namespace Crawler.Setting

inductive Kind where
  | int
  | short
  | bool
  | float
deriving DecidableEq, Repr

def Kind.name : Kind → String
  | int => "int"
  | short => "short"
  | bool => "bool"
  | float => "float"

inductive Stored where
  | bool (b : Bool)
  | integer (n : Int)
  | float (x : Float)
deriving DecidableEq, Repr

inductive Value where
  | int (n : Int32)
  | short (n : Int16)
  | bool (b : Bool)
  | float (x : Float32)
deriving DecidableEq, Repr

inductive ValueFault where
  | notInt (text : String) (cause : Number.IntegerFault)
  | notShort (text : String) (cause : Number.IntegerFault)
  | beyondShort (n : Int)
  | notBool (text : String)
  | notFloat (text : String) (cause : Number.NumeralFault)
  | textNotFinite (text : String)
  | notFinite (x : Float32)
  | unfit (stored : Stored) (kind : Kind)
  | negative (n : Int32)
deriving DecidableEq, Repr

def Stored.describe : Stored → String
  | bool b => s!"Bool({b})"
  | integer n => s!"Integer({n})"
  | float x => s!"Float({Number.write .marked x})"

def ValueFault.message : ValueFault → String
  | notInt text cause => s!"'{text}' is not an int: {cause.message}"
  | notShort text cause => s!"'{text}' is not an integer: {cause.message}"
  | beyondShort n => s!"{n} is out of range for short"
  | notBool text => s!"'{text}' is not a bool"
  | notFloat text cause => s!"'{text}' is not a float: {cause.message}"
  | textNotFinite text => s!"'{text}' is not finite"
  | notFinite x => s!"{Number.display (Number.widen x)} is not finite"
  | unfit stored kind => s!"stored value {stored.describe} does not fit type {kind.name}"
  | negative n => s!"{n.toInt} is negative"

def int32? (n : Int) : Option Int32 :=
  if Int32.minValue.toInt ≤ n ∧ n ≤ Int32.maxValue.toInt then some (Int32.ofInt n) else none

def int16? (n : Int) : Option Int16 :=
  if Int16.minValue.toInt ≤ n ∧ n ≤ Int16.maxValue.toInt then some (Int16.ofInt n) else none

namespace Value

def kind : Value → Kind
  | int _ => .int
  | short _ => .short
  | bool _ => .bool
  | float _ => .float

/-- The number that a value stands for; a switch counts as one or zero. -/
def number : Value → Float
  | int n => Number.ofInt n.toInt
  | short n => Number.ofInt n.toInt
  | bool b => if b then 1 else 0
  | float x => Number.widen x

def display : Value → String
  | int n => toString n.toInt
  | short n => toString n.toInt
  | bool b => if b then "1" else "0"
  | float x => Number.writeFixed 2 (Number.widen x)

def toJson : Value → Json
  | int n => .integer n.toInt
  | short n => .integer n.toInt
  | bool b => .bool b
  | float x => .float (Number.widen x)

def toStored : Value → Stored
  | int n => .integer n.toInt
  | short n => .integer n.toInt
  | bool b => .bool b
  | float x => .float (Number.widen x)

private def parseInt (text : String) : Except ValueFault Value :=
  match Number.readInteger Int32.minValue.toInt.natAbs Int32.maxValue.toInt.natAbs text with
  | .ok n => .ok (.int (Int32.ofInt n))
  | .error cause => .error (.notInt text cause)

private def parseShort (text : String) : Except ValueFault Value :=
  match Number.readInteger Int64.minValue.toInt.natAbs Int64.maxValue.toInt.natAbs text with
  | .error cause => .error (.notShort text cause)
  | .ok n =>
    match int16? n with
    | some n => .ok (.short n)
    | none => .error (.beyondShort n)

private def parseBool (text : String) : Except ValueFault Value :=
  let word := String.ofList (text.toList.map Char.toLower)
  if word = "1" ∨ word = "true" ∨ word = "on" then .ok (.bool true)
  else if word = "0" ∨ word = "false" ∨ word = "off" then .ok (.bool false)
  else .error (.notBool text)

private def parseFloat (text : String) : Except ValueFault Value :=
  match Number.readSingle text with
  | .error cause => .error (.notFloat text cause)
  | .ok x => if x.isFinite then .ok (.float x) else .error (.textNotFinite text)

def parse (kind : Kind) (text : String) : Except ValueFault Value :=
  let trimmed := Text.trim text
  match kind with
  | .int => parseInt trimmed
  | .short => parseShort trimmed
  | .bool => parseBool trimmed
  | .float => parseFloat trimmed

/-- The value that a persisted scalar stands for in a setting of some kind: integers stand for
integers in range, for switches if they are zero or one, and for floats; floats for floats alone. -/
def ofStored (kind : Kind) (stored : Stored) : Except ValueFault Value :=
  match kind, stored with
  | .int, .integer n =>
    match int32? n with
    | some n => .ok (.int n)
    | none => .error (.unfit stored kind)
  | .short, .integer n =>
    match int16? n with
    | some n => .ok (.short n)
    | none => .error (.unfit stored kind)
  | .bool, .bool b => .ok (.bool b)
  | .bool, .integer 0 => .ok (.bool false)
  | .bool, .integer 1 => .ok (.bool true)
  | .float, .float x => .ok (.float (Number.narrow x))
  | .float, .integer n => .ok (.float (Number.singleOfInt n))
  | _, _ => .error (.unfit stored kind)

end Value

end Crawler.Setting
