/-! The sense of a step: forward steps increase the position. -/
namespace Crawler

inductive Sense where
  | forward
  | reverse
deriving DecidableEq, Repr

namespace Sense

/-- The sense of a signed number of steps; none at all count as forward. -/
def of (steps : Int) : Sense := if steps < 0 then reverse else forward

def sign : Sense → Int
  | forward => 1
  | reverse => -1

def name : Sense → String
  | forward => "forward"
  | reverse => "reverse"

end Sense

end Crawler
