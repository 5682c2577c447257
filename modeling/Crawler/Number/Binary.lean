import Crawler.Number.Whole

/-! Floats as exact values: rounding an integer or a float to the nearest binary64 or binary32
number, ties to even. -/
namespace Crawler.Number

open Float.Model (UnpackedFloat)
open Float.Model.Format (binary32 binary64)

def ofInt (n : Int) : Float := .ofModel (.pack (UnpackedFloat.ofInt binary64 n))

def singleOfInt (n : Int) : Float32 := .ofModel (.pack (UnpackedFloat.ofInt binary32 n))

/-- The single-precision float nearest to a float: a value beyond the range becomes infinite. -/
def narrow (x : Float) : Float32 :=
  .ofModel <| .pack <|
    match x.toModel.unpack with
    | .finite sign m e _ => UnpackedFloat.round binary32 sign m e
    | other => other

def widen (x : Float32) : Float :=
  .ofModel <| .pack <|
    match x.toModel.unpack with
    | .finite sign m e _ => UnpackedFloat.round binary64 sign m e
    | other => other

def isPositive (x : Float) : Bool := x.isFinite && 0 < x

end Crawler.Number
