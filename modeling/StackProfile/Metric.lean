import StackProfile.Binary64

/-!
# Metrics

A metric has a title and a kind of quantity, which decides how its values are written:
scaled to the largest unit that they reach, with one decimal place for most units.
-/

namespace StackProfile

/-- What the values of a metric represent. -/
inductive Quantity where
  | number
  | nanoseconds
  | bytes
  | bytesPerSecond
  | other
  deriving DecidableEq, Repr

/-- A value of a metric. -/
inductive MetricValue where
  | integer (n : Int)
  | float (x : Float)
  | text (s : String)
  deriving DecidableEq, Repr

namespace MetricValue

def toFloat? : MetricValue → Option Float
  | integer n => some (Binary64.ofInt n)
  | float x => some x
  | text _ => none

/-- Integers and texts as they are, other numbers with three places unless they are
integral. -/
def display : MetricValue → String
  | integer n => toString n
  | float x => if Binary64.isIntegral x then Binary64.toFixed 0 x else Binary64.toFixed 3 x
  | text s => s

end MetricValue

namespace Quantity

/-- A unit: the number of base units in it, its name, and the places of values in it. -/
structure Scale where
  factor : Float
  name : String
  places : Nat

/-- A value in the first unit whose factor its magnitude reaches, by `base` if there is
none. -/
def scaled (base : Float → String) (x : Float) : List Scale → String
  | [] => base x
  | u :: us =>
    if u.factor ≤ x.abs then Binary64.toFixed u.places (x / u.factor) ++ u.name
    else scaled base x us

def decimalScales : List Scale :=
  [⟨1e12, " T", 1⟩, ⟨1e9, " G", 1⟩, ⟨1e6, " M", 1⟩, ⟨1e3, " k", 1⟩]

def durationScales : List Scale :=
  [⟨1e9, "s", 2⟩, ⟨1e6, "ms", 1⟩, ⟨1e3, "µs", 1⟩]

def byteScales : List Scale :=
  [⟨1099511627776.0, " TiB", 1⟩, ⟨1073741824.0, " GiB", 1⟩, ⟨1048576.0, " MiB", 1⟩,
    ⟨1024.0, " KiB", 1⟩]

/-- A plain number below the first unit: with two places unless it is integral. -/
def plain (x : Float) : String :=
  if Binary64.isIntegral x then Binary64.toFixed 0 x else Binary64.toFixed 2 x

def formatBytes (x : Float) : String :=
  scaled (fun x => Binary64.toFixed 0 x ++ " B") x byteScales

/-- A value of the quantity as text. -/
def format (x : Float) : Quantity → String
  | number => scaled plain x decimalScales
  | nanoseconds => scaled (fun x => Binary64.toFixed 0 x ++ "ns") x durationScales
  | bytes => formatBytes x
  | bytesPerSecond => formatBytes x ++ "/s"
  | other => (MetricValue.float x).display

end Quantity

/-- A metric. A formatter of its own takes the place of its quantity's format. -/
structure Metric where
  title : String
  quantity : Quantity
  hasStatistics : Bool := false
  formatter : Option (MetricValue → String) := none

namespace Metric

/-- The weight of nodes, if nothing else is said. -/
def weight : Metric := { title := "Weight", quantity := .number }

def format (m : Metric) (v : MetricValue) : String :=
  match m.formatter, v.toFloat? with
  | some formatter, _ => formatter v
  | none, some x => m.quantity.format x
  | none, none => v.display

/-- The title of the field that shows the statistics of the metric. -/
def statisticsTitle (m : Metric) : String := m.title ++ " (statistics)"

end Metric

/-- A metric of a provider: the weight, or an additional metric by position. -/
inductive MetricIndex where
  | weight
  | additional (index : Nat)
  deriving DecidableEq, Repr

/-- Why a metric has no value. -/
inductive MetricError where
  | outOfRange (index count : Nat)
  | notComputed (title : String)
  deriving DecidableEq, Repr

def MetricError.message : MetricError → String
  | outOfRange index count =>
    s!"metric index {index} out of range: {count} additional metric(s) declared"
  | notComputed title => s!"metric `{title}` is declared but not computed by this provider"

end StackProfile
