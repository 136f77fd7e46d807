import StackProfile.Frame
import StackProfile.Palette
import StackProfile.Profile
import StackProfile.Summary

/-!
# Providers

A provider is where an engine gets a profile from, with the metrics of its nodes and the
way they are displayed. `Recipe` puts one together for a profile that is at hand.
-/

namespace StackProfile

/-- Whether the analysis behind a provider is still producing trees. -/
inductive Analysis where
  | running
  | completed
  deriving DecidableEq, Repr

/-- A source of profiles. `selection` is the profile restricted to a range of times, if
the provider can tell. A summary is `none` where a metric has no statistics. -/
structure Provider (α ε : Type) where
  title : String
  profile : Profile α ε
  selection : Int → Int → Option (Profile α ε)
  analysis : Analysis
  weightMetric : Metric
  metrics : List Metric
  metricValue : CallTree α → Nat → Except MetricError MetricValue
  summaryOf : CallTree α → MetricIndex → Except MetricError (Option Summary)
  extraTitles : List String
  display : CallTree α → String
  palette : Option (Palette α)

namespace Provider

variable {α ε : Type} [ToString α]

/-- No values for any metric. -/
def noValue (metrics : List Metric) (_ : CallTree α) (index : Nat) :
    Except MetricError MetricValue :=
  .error (.outOfRange index metrics.length)

/-- No statistics for the weight and the declared metrics. -/
def noSummary (metrics : List Metric) (_ : CallTree α) :
    MetricIndex → Except MetricError (Option Summary)
  | .weight => .ok none
  | .additional index =>
    if index < metrics.length then .ok none else .error (.outOfRange index metrics.length)

/-- A provider that only has a profile, with metrics that are declared and no more. -/
def plain (title : String) (profile : Profile α ε) (metrics : List Metric := []) :
    Provider α ε where
  title := title
  profile := profile
  selection := fun _ _ => none
  analysis := .completed
  weightMetric := .weight
  metrics := metrics
  metricValue := noValue metrics
  summaryOf := noSummary metrics
  extraTitles := profile.extraTitles
  display := CallTree.name
  palette := none

end Provider

/-- An additional metric with the functions that compute it. -/
structure Column (α : Type) where
  metric : Metric
  value : Option (CallTree α → MetricValue) := none
  summary : Option (CallTree α → Summary) := none

/-- A provider in the making. -/
structure Recipe (α ε : Type) where
  title : String
  profile : Profile α ε
  analysis : Analysis := .completed
  weightMetric : Metric := .weight
  weightSummary : Option (CallTree α → Summary) := none
  columns : List (Column α) := []
  palette : Option (Palette α) := none

namespace Recipe

variable {α ε : Type}

def withWeightMetric (r : Recipe α ε) (m : Metric) : Recipe α ε := { r with weightMetric := m }

/-- One more metric, computed by a function. -/
def withMetric (r : Recipe α ε) (m : Metric) (value : CallTree α → MetricValue) : Recipe α ε :=
  { r with columns := r.columns ++ [{ metric := m, value := some value }] }

/-- One more metric that is declared without being computed. Asking for its value is an
error. -/
def withDeclaredMetric (r : Recipe α ε) (m : Metric) : Recipe α ε :=
  { r with columns := r.columns ++ [{ metric := m }] }

/-- Statistics for a metric, which is marked as having some. Metrics that are not declared
get none. -/
def withStatistics (r : Recipe α ε) (index : MetricIndex) (summary : CallTree α → Summary) :
    Recipe α ε :=
  match index with
  | .weight =>
    { r with
      weightMetric := { r.weightMetric with hasStatistics := true }
      weightSummary := some summary }
  | .additional i =>
    { r with
      columns := r.columns.modify i fun c =>
        { c with metric := { c.metric with hasStatistics := true }, summary := some summary } }

def withAnalysis (r : Recipe α ε) (a : Analysis) : Recipe α ε := { r with analysis := a }

def withPalette (r : Recipe α ε) (p : Palette α) : Recipe α ε := { r with palette := some p }

/-- The value of an additional metric. -/
def metricValue (r : Recipe α ε) (t : CallTree α) (index : Nat) :
    Except MetricError MetricValue :=
  match r.columns[index]? with
  | none => .error (.outOfRange index r.columns.length)
  | some c =>
    match c.value with
    | some value => .ok (value t)
    | none => .error (.notComputed c.metric.title)

def summaryOf (r : Recipe α ε) (t : CallTree α) :
    MetricIndex → Except MetricError (Option Summary)
  | .weight => .ok (r.weightSummary.map fun f => f t)
  | .additional index =>
    match r.columns[index]? with
    | none => .error (.outOfRange index r.columns.length)
    | some c => .ok (c.summary.map fun f => f t)

/-- The finished provider. -/
def provider [ToString α] (r : Recipe α ε) : Provider α ε where
  title := r.title
  profile := r.profile
  selection := fun _ _ => none
  analysis := r.analysis
  weightMetric := r.weightMetric
  metrics := r.columns.map Column.metric
  metricValue := r.metricValue
  summaryOf := r.summaryOf
  extraTitles := r.profile.extraTitles
  display := CallTree.name
  palette := r.palette

end Recipe

end StackProfile
