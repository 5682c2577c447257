import Crawler.Number.Binary
import Crawler.Number.Compare

/-! Speed profiles. A move speeds up at a constant rate, cruises and slows down again; a short one
turns before it reaches its cruise speed. Without acceleration the speed is constant. -/
namespace Crawler.Hardware.Profile

/-- The steps made `t` seconds into a move of `n` steps with cruise speed `v`. -/
def distance (n v a t : Float) : Float :=
  if a ≤ 0 then Number.lesser (v * t) n
  else
    let ramp := v * v / a
    let (accelerating, cruising, top) :=
      if ramp ≤ n then (v / a, (n - ramp) / v, v)
      else
        let peak := (n * a).sqrt
        (peak / a, 0, peak)
    let total := 2 * accelerating + cruising
    if t < accelerating then 0.5 * a * t * t
    else if t < accelerating + cruising then 0.5 * top * accelerating + top * (t - accelerating)
    else if t < total then
      let left := total - t
      n - 0.5 * a * left * left
    else n

/-- The seconds that a move of `n` steps takes. -/
def duration (n v a : Float) : Float :=
  if a ≤ 0 then n / v
  else if v * v / a ≤ n then 2 * v / a + (n - v * v / a) / v
  else 2 * (n * a).sqrt / a

/-- The steps made `t` seconds into a run without end. -/
def runStepsAt (v a t : Float) : Float :=
  if a ≤ 0 then v * t
  else
    let accelerating := v / a
    if t < accelerating then 0.5 * a * t * t
    else 0.5 * v * accelerating + v * (t - accelerating)

def seconds (us : Nat) : Float := Number.ofInt us / 1000000

end Crawler.Hardware.Profile
