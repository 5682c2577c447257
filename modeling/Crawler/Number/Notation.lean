import Crawler.Number.Shortest

/-! How floats are written. The digits are always the shortest that read back, or a fixed number
of places; a style decides about everything around them. -/
namespace Crawler.Number

open Float.Model (UnpackedFloat)

structure Style where
  wholeTail : String
  /-- The decimal exponents written without an exponent mark; all of them if none are named. -/
  positional : Option (Int × Int)
  undefined : String
  infinite : String
deriving DecidableEq, Repr

namespace Style

/-- Never an exponent and no trailing point. -/
def plain : Style := ⟨"", none, "NaN", "inf"⟩

/-- Always a fraction or an exponent; powers of ten from `10^-4` to `10^15` are positional. -/
def marked : Style := ⟨".0", some (-4, 15), "NaN", "inf"⟩

/-- The form of a settings document: always a fraction and never an exponent. -/
def document : Style := ⟨".0", none, "nan", "inf"⟩

/-- The form of a report: powers of ten from `10^-5` to `10^15` are positional, and a value without
digits is nothing. -/
def report : Style := ⟨".0", some (-5, 15), "null", "null"⟩

def isPositional (style : Style) (exponent : Int) : Bool :=
  match style.positional with
  | none => true
  | some (least, greatest) => least ≤ exponent ∧ exponent ≤ greatest

end Style

/-- The digits before and after the point of `digits·10^exponent`, with a digit before the point. -/
def splitAtPoint (digits : List Char) : Int → List Char × List Char
  | .ofNat k => (digits ++ List.replicate k '0', [])
  | .negSucc k =>
    let padded := List.replicate (k + 2 - digits.length) '0' ++ digits
    padded.splitAt (padded.length - (k + 1))

def writeScientific (digits : List Char) (exponent : Int) : List Char :=
  digits.take 1 ++ (if digits.length ≤ 1 then [] else '.' :: digits.drop 1) ++
    'e' :: (toString exponent).toList

def writePositional (wholeTail : String) (digits : List Char) (exponent : Int) : List Char :=
  match splitAtPoint digits exponent with
  | (whole, []) => whole ++ wholeTail.toList
  | (whole, fraction) => whole ++ '.' :: fraction

def writeMagnitude (style : Style) (m : Nat) (e : Int) : List Char :=
  let (value, exponent) := shortest m e
  let digits := Nat.toDigits 10 value
  let scientific := exponent + digits.length - 1
  if style.isPositional scientific then writePositional style.wholeTail digits exponent
  else writeScientific digits scientific

def writeSign : UnpackedFloat.Sign → List Char
  | .negative => ['-']
  | .positive => []

def write (style : Style) (x : Float) : String :=
  match x.toModel.unpack with
  | .notANumber => style.undefined
  | .infinity s => String.ofList (writeSign s) ++ style.infinite
  | .zero s => String.ofList (writeSign s ++ '0' :: style.wholeTail.toList)
  | .finite s m e _ => String.ofList (writeSign s ++ writeMagnitude style m e)

def display (x : Float) : String := write .plain x

def roundQuotient (n d : Nat) : Nat :=
  let q := n / d
  let r := n % d
  if 2 * r < d ∨ (2 * r = d ∧ q % 2 = 0) then q else q + 1

/-- `m·2^e·10^places` rounded to an integer. -/
def scaleRounded (places m : Nat) : Int → Nat
  | .ofNat k => (m <<< k) * Nat.pow 10 places
  | .negSucc k => roundQuotient (m * Nat.pow 10 places) (1 <<< (k + 1))

/-- Writes a float with exactly `places + 1` digits after the point. -/
def writeFixed (places : Nat) (x : Float) : String :=
  let fixed (s : UnpackedFloat.Sign) (n : Nat) : String :=
    String.ofList (writeSign s ++ writePositional "" (Nat.toDigits 10 n) (.negSucc places))
  match x.toModel.unpack with
  | .notANumber => "NaN"
  | .infinity s => String.ofList (writeSign s) ++ "inf"
  | .zero s => fixed s 0
  | .finite s m e _ => fixed s (scaleRounded (places + 1) m e)

end Crawler.Number
