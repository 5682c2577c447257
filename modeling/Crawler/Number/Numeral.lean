import Crawler.Number.Binary

/-! Written numbers. A numeral is what its text says, before any rounding: a decimal is held as
`±digits·10^exponent` and rounded once, straight to the width that is asked for. -/
namespace Crawler.Number

open Float.Model (UnpackedFloat)
open Float.Model.Format (binary32 binary64)

inductive Numeral where
  | undefined
  | infinite (negative : Bool)
  | decimal (negative : Bool) (digits : Nat) (exponent : Int)
deriving DecidableEq, Repr

inductive NumeralFault where
  | empty
  | malformed
deriving DecidableEq, Repr

def NumeralFault.message : NumeralFault → String
  | empty => "cannot parse float from empty string"
  | malformed => "invalid float literal"

def signed (negative : Bool) : UnpackedFloat → UnpackedFloat
  | .finite _ m e h => .finite (if negative then .negative else .positive) m e h
  | .zero _ => .zero (if negative then .negative else .positive)
  | .infinity _ => .infinity (if negative then .negative else .positive)
  | .notANumber => .notANumber

namespace Numeral

def round (format : Float.Model.Format) : Numeral → UnpackedFloat
  | undefined => .notANumber
  | infinite negative => signed negative (.infinity .positive)
  | decimal negative digits exponent =>
    signed negative (UnpackedFloat.ofScientific format digits exponent)

def toFloat (n : Numeral) : Float := .ofModel (.pack (n.round binary64))

def toSingle (n : Numeral) : Float32 := .ofModel (.pack (n.round binary32))

def splitSign : List Char → Bool × List Char
  | '-' :: rest => (true, rest)
  | '+' :: rest => (false, rest)
  | rest => (false, rest)

def splitDigits (text : List Char) : List Char × List Char :=
  (text.takeWhile Char.isDigit, text.dropWhile Char.isDigit)

def digitsValue (digits : List Char) : Nat := Nat.ofDigitChars 10 digits 0

def splitFraction : List Char → List Char × List Char
  | '.' :: rest => splitDigits rest
  | rest => ([], rest)

def exponentOf? : List Char → Option Int
  | [] => some 0
  | mark :: rest =>
    if mark = 'e' ∨ mark = 'E' then
      match splitSign rest with
      | (negative, digits) =>
        if digits.isEmpty ∨ ¬digits.all Char.isDigit then none
        else some (if negative then -(digitsValue digits : Int) else digitsValue digits)
    else none

/-- A decimal without its sign: digits, a fraction and an exponent, with at least one digit before
or after the point. -/
def decimalOf? (negative : Bool) (text : List Char) : Option Numeral :=
  match splitDigits text with
  | (whole, rest) =>
    match splitFraction rest with
    | (fraction, rest) =>
      if whole.isEmpty ∧ fraction.isEmpty then none
      else
        (exponentOf? rest).map fun exponent =>
          decimal negative (digitsValue (whole ++ fraction)) (exponent - fraction.length)

/-- The words for values that have no digits, in any letter case. -/
def wordOf? (negative : Bool) (text : List Char) : Option Numeral :=
  let word := String.ofList (text.map Char.toLower)
  if word = "inf" ∨ word = "infinity" then some (infinite negative)
  else if word = "nan" then some undefined
  else none

def read (text : List Char) : Except NumeralFault Numeral :=
  if text.isEmpty then .error .empty
  else
    match splitSign text with
    | (negative, rest) =>
      match (wordOf? negative rest).or (decimalOf? negative rest) with
      | some n => .ok n
      | none => .error .malformed

end Numeral

def readFloat (text : String) : Except NumeralFault Float :=
  (Numeral.read text.toList).map (·.toFloat)

def readSingle (text : String) : Except NumeralFault Float32 :=
  (Numeral.read text.toList).map (·.toSingle)

end Crawler.Number
