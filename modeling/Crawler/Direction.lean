import Crawler.Number.IntegerText
import Crawler.Text.Blank

/-! Drive directions. A direction has a code, a name and the share of the travelled distance that
each track makes: a straight drive moves both alike, an arc halves the inside track and a turn moves
the tracks against each other. -/
namespace Crawler

inductive Direction where
  | forward
  | backward
  | forwardLeft
  | forwardRight
  | turnLeft
  | turnRight
  | backwardLeft
  | backwardRight
deriving DecidableEq, Repr, Inhabited

inductive DirectionFault where
  | codeOutOfRange (code : Nat)
  | unrecognized (text : String)
deriving DecidableEq, Repr

def DirectionFault.message : DirectionFault → String
  | codeOutOfRange code => s!"direction code {code} out of range 0..=7"
  | unrecognized text => s!"unrecognized direction '{text}'"

structure TrackShare where
  backward : Bool
  half : Bool
deriving DecidableEq, Repr

def TrackShare.value (share : TrackShare) : Float :=
  let magnitude := if share.half then 0.5 else 1.0
  if share.backward then -magnitude else magnitude

namespace Direction

def all : List Direction :=
  [forward, backward, forwardLeft, forwardRight, turnLeft, turnRight, backwardLeft, backwardRight]

def code : Direction → Nat
  | forward => 0
  | backward => 1
  | forwardLeft => 2
  | forwardRight => 3
  | turnLeft => 4
  | turnRight => 5
  | backwardLeft => 6
  | backwardRight => 7

def ofCode? (n : Nat) : Option Direction := all[n]?

def name : Direction → String
  | forward => "forward"
  | backward => "backward"
  | forwardLeft => "forwardLeft"
  | forwardRight => "forwardRight"
  | turnLeft => "turnLeft"
  | turnRight => "turnRight"
  | backwardLeft => "backwardLeft"
  | backwardRight => "backwardRight"

def shares : Direction → TrackShare × TrackShare
  | forward => (⟨false, false⟩, ⟨false, false⟩)
  | backward => (⟨true, false⟩, ⟨true, false⟩)
  | forwardLeft => (⟨false, true⟩, ⟨false, false⟩)
  | forwardRight => (⟨false, false⟩, ⟨false, true⟩)
  | turnLeft => (⟨true, false⟩, ⟨false, false⟩)
  | turnRight => (⟨false, false⟩, ⟨true, false⟩)
  | backwardLeft => (⟨true, true⟩, ⟨true, false⟩)
  | backwardRight => (⟨true, false⟩, ⟨true, true⟩)

def ofCode (n : Nat) : Except DirectionFault Direction :=
  match ofCode? n with
  | some d => .ok d
  | none => .error (.codeOutOfRange n)

def foldName (text : List Char) : List Char :=
  (text.filter fun c => c ≠ '_' ∧ c ≠ '-').map Text.foldLetter

def ofName? (text : String) : Option Direction :=
  all.find? fun d => foldName d.name.toList = foldName text.toList

/-- Reads a direction from its code or from its name, whose words may be joined by `_` or `-`. -/
def parse (text : String) : Except DirectionFault Direction :=
  let trimmed := Text.trim text
  match Number.readInteger 0 255 trimmed with
  | .ok n => ofCode n.toNat
  | .error _ =>
    match ofName? trimmed with
    | some d => .ok d
    | none => .error (.unrecognized trimmed)

@[simp] theorem ofCode?_code (d : Direction) : ofCode? d.code = some d := by cases d <;> rfl

end Direction

end Crawler
