import StackProfile.Metric
import StackProfile.Saturate

/-!
# Summaries

Count, extremes and total of some values. Summaries can be merged, so values can be
collected in parts.
-/

namespace StackProfile

/-- What is known about the values of a metric that were put together in a node. -/
structure Summary where
  count : Nat := 0
  least : Int := 0
  greatest : Int := 0
  total : Int := 0
  deriving DecidableEq, Repr

namespace Summary

/-- The summary with one more value. -/
def add (s : Summary) (v : Int) : Summary :=
  if s.count = 0 then ⟨1, v, v, satAdd s.total v⟩
  else ⟨s.count + 1, min s.least v, max s.greatest v, satAdd s.total v⟩

/-- The summary of a list of values. -/
def collect (vs : List Int) : Summary := vs.foldl add {}

/-- The summary of the values of both. -/
def merge (s other : Summary) : Summary :=
  if other.count = 0 then s
  else if s.count = 0 then other
  else ⟨s.count + other.count, min s.least other.least, max s.greatest other.greatest,
    satAdd s.total other.total⟩

/-- The arithmetic mean, 0 for no values. -/
def mean (s : Summary) : Float :=
  if s.count = 0 then 0.0 else Binary64.ofInt s.total / Binary64.ofInt s.count

/-- Extremes and mean on one line. -/
def describe (s : Summary) (m : Metric) : String :=
  let least := m.format (.integer s.least)
  let greatest := m.format (.integer s.greatest)
  let mean := m.format (.float s.mean)
  s!"min: {least}, max: {greatest}, avg: {mean}"

end Summary

end StackProfile
