/-! Integers in decimal text. Digits are read from the left and the first thing that goes wrong
decides: a digit too many for the range, or a character that is no digit. -/
namespace Crawler.Number

inductive IntegerFault where
  | empty
  | badDigit
  | tooLarge
  | tooSmall
deriving DecidableEq, Repr

def IntegerFault.message : IntegerFault → String
  | empty => "cannot parse integer from empty string"
  | badDigit => "invalid digit found in string"
  | tooLarge => "number too large to fit in target type"
  | tooSmall => "number too small to fit in target type"

def readDigits (bound : Nat) (overflow : IntegerFault) : Nat → List Char → Except IntegerFault Nat
  | read, [] => .ok read
  | read, c :: rest =>
    if c.isDigit then
      let next := 10 * read + (c.toNat - '0'.toNat)
      if next ≤ bound then readDigits bound overflow next rest else .error overflow
    else .error .badDigit

/-- Reads an integer between `-below` and `above`; where nothing lies below zero, a minus sign is
no part of a number. -/
def readInteger (below above : Nat) (text : String) : Except IntegerFault Int :=
  match text.toList with
  | [] => .error .empty
  | ['+'] | ['-'] => .error .badDigit
  | '+' :: digits => (readDigits above .tooLarge 0 digits).map Int.ofNat
  | '-' :: digits =>
    if below = 0 then .error .badDigit
    else (readDigits below .tooSmall 0 digits).map fun n => -(n : Int)
  | digits => (readDigits above .tooLarge 0 digits).map Int.ofNat

end Crawler.Number
