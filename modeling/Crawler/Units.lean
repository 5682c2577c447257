import Crawler.Number.Binary
import Crawler.Number.Compare
import Crawler.Number.Whole

/-! Conversions between the units of the operator (mm, mm/min, mm/s²) and those of the engines
(steps, steps/s, steps/s²). A half goes away from zero, and a value beyond the range of a count of
steps or hertz becomes the end of the range. -/
namespace Crawler.Units

def stepLimit : Nat := 2147483647

/-- The closest number among the signed 64-bit integers. -/
def toSteps (w : Number.Whole) : Int := w.clamp Int64.minValue.toInt Int64.maxValue.toInt

def steps (mm stepsPerMm : Float) : Int := toSteps (Number.nearest (mm * stepsPerMm))

/-- The steps of a distance, unless they are more than one move may carry. -/
def steps? (mm stepsPerMm : Float) : Option Int :=
  match Number.nearest (mm * stepsPerMm) with
  | .integer n => if n.natAbs ≤ stepLimit then some n else none
  | _ => none

def frequency (mmPerMin stepsPerMm : Float) : Nat :=
  ((Number.nearest (mmPerMin * stepsPerMm / 60)).clamp 0 (UInt32.size - 1)).toNat

def distance (steps : Int) (stepsPerMm : Float) : Float := Number.ofInt steps / stepsPerMm

def feed (hz : Nat) (stepsPerMm : Float) : Float := Number.ofInt hz * 60 / stepsPerMm

def stepAcceleration (mmPerS2 stepsPerMm : Float) : Float := mmPerS2 * stepsPerMm

def capFeed (requested ceiling : Float) : Float := Number.lesser requested ceiling

theorem steps?_bound {mm stepsPerMm : Float} {n : Int}
    (h : steps? mm stepsPerMm = some n) : n.natAbs ≤ stepLimit := by
  unfold steps? at h
  split at h
  · split at h
    · injection h with h
      subst h
      assumption
    · exact absurd h nofun
  · exact absurd h nofun

theorem frequency_lt (mmPerMin stepsPerMm : Float) : frequency mmPerMin stepsPerMm < UInt32.size := by
  have range : (0 : Int) ≤ UInt32.size - 1 := by decide
  have h := Number.Whole.clamp_le range (Number.nearest (mmPerMin * stepsPerMm / 60))
  unfold frequency
  omega

end Crawler.Units
