/-! Integers from floats. A float is read as its exact value `±m·2^e` and rounded in integer
arithmetic, so each rule is a statement about integers. -/
namespace Crawler.Number

open Float.Model (UnpackedFloat)

inductive Whole where
  | undefined
  | infinite (negative : Bool)
  | integer (n : Int)
deriving DecidableEq, Repr

/-- The closest number of a range; an undefined value counts as zero. -/
def Whole.clamp (lo hi : Int) : Whole → Int
  | undefined => max lo (min hi 0)
  | infinite true => lo
  | infinite false => hi
  | integer n => max lo (min hi n)

def floorMagnitude (m : Nat) : Int → Nat
  | .ofNat k => m <<< k
  | .negSucc k => m >>> (k + 1)

def ceilMagnitude (m : Nat) : Int → Nat
  | .ofNat k => m <<< k
  | .negSucc k => (m + (1 <<< (k + 1) - 1)) >>> (k + 1)

/-- The integer nearest to `m·2^e`, the larger one of two. -/
def nearestMagnitude (m : Nat) : Int → Nat
  | .ofNat k => m <<< k
  | .negSucc k => (m + 1 <<< k) >>> (k + 1)

def roundBy (positive negative : Nat → Int → Nat) (x : Float) : Whole :=
  match x.toModel.unpack with
  | .notANumber => .undefined
  | .infinity .negative => .infinite true
  | .infinity .positive => .infinite false
  | .zero _ => .integer 0
  | .finite .positive m e _ => .integer (positive m e)
  | .finite .negative m e _ => .integer (-(negative m e : Int))

/-- The nearest integer; a half goes away from zero. -/
def nearest (x : Float) : Whole := roundBy nearestMagnitude nearestMagnitude x

def floor (x : Float) : Whole := roundBy floorMagnitude ceilMagnitude x

def ceil (x : Float) : Whole := roundBy ceilMagnitude floorMagnitude x

theorem Whole.le_clamp {lo hi : Int} (h : lo ≤ hi) (w : Whole) : lo ≤ w.clamp lo hi := by
  match w with
  | undefined | infinite true | infinite false | integer _ => simp only [clamp]; omega

theorem Whole.clamp_le {lo hi : Int} (h : lo ≤ hi) (w : Whole) : w.clamp lo hi ≤ hi := by
  match w with
  | undefined | infinite true | infinite false | integer _ => simp only [clamp]; omega

end Crawler.Number
