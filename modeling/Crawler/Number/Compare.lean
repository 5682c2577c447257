/-! The lesser of two floats. -/
namespace Crawler.Number

/-- The lesser of two floats; an undefined value gives way to the other one. -/
def lesser (x y : Float) : Float := if x.isNaN || y < x then y else x

end Crawler.Number
