import Crawler.Number.Numeral

/-! The fewest decimal digits that read back as a given float. A float has a finite decimal
expansion; the search cuts it after one digit, after two, and so on, and takes the first cut whose
lower or upper neighbour still rounds to the float. -/
namespace Crawler.Number

open Float.Model (UnpackedFloat)
open Float.Model.Format (binary64)

/-- All digits of `m·2^e` as an integer, and how many of them stand after the point. -/
def expansion (m : Nat) : Int → Nat × Nat
  | .ofNat k => (m <<< k, 0)
  | .negSucc k => (m * Nat.pow 5 (k + 1), k + 1)

/-- Whether `digits·10^exponent` rounds to `m·2^e`. -/
def readsBack (m : Nat) (e : Int) (digits : Nat) (exponent : Int) : Bool :=
  match UnpackedFloat.ofScientific binary64 digits exponent with
  | .finite .positive m' e' _ => m' = m ∧ e' = e
  | _ => false

/-- The neighbours of `digits` on the grid of multiples of `unit`, the nearer one first and the
upper one first of two that are equally near. -/
def gridNeighbours (digits unit : Nat) : List Nat :=
  if unit ≤ 2 * (digits % unit) then [digits / unit + 1, digits / unit]
  else [digits / unit, digits / unit + 1]

/-- The first cut of an expansion after at most seventeen digits that passes a test; the whole
expansion if none does. -/
def cutWhere (test : Nat → Int → Bool) (digits places : Nat) : Nat × Int :=
  let length := (Nat.toDigits 10 digits).length
  let cut := (List.range 17).findSome? fun kept =>
    let dropped := length - (kept + 1)
    let exponent := (dropped : Int) - places
    ((gridNeighbours digits (Nat.pow 10 dropped)).find? (test · exponent)).map (·, exponent)
  cut.getD (digits, -(places : Int))

def dropTrailingZeros (digits : Nat) (exponent : Int) : Nat × Int :=
  let zeros := ((Nat.toDigits 10 digits).reverse.takeWhile (· = '0')).length
  (digits / Nat.pow 10 zeros, exponent + zeros)

/-- The shortest decimal `digits·10^exponent` for `m·2^e`. -/
def shortest (m : Nat) (e : Int) : Nat × Int :=
  let (digits, places) := expansion m e
  let (digits, exponent) := cutWhere (readsBack m e) digits places
  dropTrailingZeros digits exponent

end Crawler.Number
