/-!
# Saturating 64-bit arithmetic

Times and weights are integers between `minTime` and `maxTime`. A sum that leaves
the range stops at its end, so a timeline never wraps around.
-/

namespace StackProfile

/-- The least time. -/
def minTime : Int := -9223372036854775808

/-- The greatest time, also the greatest weight. -/
def maxTime : Int := 9223372036854775807

/-- The value of the 64-bit range nearest to `n`. -/
def clampTime (n : Int) : Int := max minTime (min maxTime n)

/-- Addition that stops at the ends of the 64-bit range. -/
def satAdd (a b : Int) : Int := clampTime (a + b)

/-- The saturated sum of a list, from the left. -/
def satSum (ws : List Int) : Int := ws.foldl satAdd 0

end StackProfile
