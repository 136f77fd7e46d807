import Mathlib
import StackProfile.Proofs.ColumnLists
import StackProfile.Proofs.Session

/-!
# Fields of a tooltip

A tooltip looks up values and statistics by position. For a made recipe both lookups read the right
column, so a tooltip has all fields or reports the first uncomputed metric.
-/

namespace StackProfile

open Recipe (Ingredient)

variable {α ε : Type}

/-- The field of an attached summary, if the metric is marked. -/
def statisticsField (m : Metric) (summary : Option (CallTree α → Summary)) (t : CallTree α) :
    List TooltipField :=
  if m.hasStatistics then
    (summary.map fun f => ⟨m.statisticsTitle, (f t).describe m⟩ : Option TooltipField).toList
  else []

namespace Engine

/-! ## The two walks -/

section Walks

variable [ToString α] {r : Recipe α ε} (t : CallTree α)

theorem metricFields_columns (done cs : List (Column α)) (h : r.columns = done ++ cs) :
    metricFields r.provider t done.length (cs.map Column.metric) =
      match cs.find? fun c => c.value.isNone with
      | some c => .error (.metric (.notComputed c.metric.title))
      | none => .ok (cs.filterMap fun c =>
          c.value.map fun value => ⟨c.metric.title, c.metric.format (value t)⟩) := by
  induction cs generalizing done with
  | nil => rfl
  | cons c cs ih =>
    have hc : r.columns[done.length]? = some c := by simp [h]
    have hlater := ih (done ++ [c]) (by simp [h])
    rw [List.length_append, List.length_singleton] at hlater
    rw [List.map_cons, metricFields, hlater]
    cases hv : c.value with
    | none => simp [Recipe.provider, Recipe.metricValue, hc, hv, Except.mapError, bind, Except.bind]
    | some value =>
      cases hf : cs.find? fun c => c.value.isNone <;>
        simp [Recipe.provider, Recipe.metricValue, hc, hv, hf, Except.mapError, bind, Except.bind,
          pure, Except.pure]

theorem summaryField_eq (index : MetricIndex) (m : Metric)
    (summary : Option (CallTree α → Summary))
    (h : r.summaryOf t index = .ok (summary.map fun f => f t)) :
    summaryField r.provider t index m = .ok (statisticsField m summary t) := by
  cases hm : m.hasStatistics <;> cases summary <;>
    simp [summaryField, statisticsField, Recipe.provider, hm, h, Except.mapError, bind, Except.bind,
      pure, Except.pure]

theorem summaryFields_columns (done cs : List (Column α)) (h : r.columns = done ++ cs) :
    summaryFields r.provider t done.length (cs.map Column.metric) =
      .ok (cs.flatMap fun c => statisticsField c.metric c.summary t) := by
  induction cs generalizing done with
  | nil => rfl
  | cons c cs ih =>
    have hc : r.columns[done.length]? = some c := by simp [h]
    have hhere : summaryField r.provider t (.additional done.length) c.metric =
        .ok (statisticsField c.metric c.summary t) :=
      summaryField_eq t _ _ _ (by simp [Recipe.summaryOf, hc])
    have hlater := ih (done ++ [c]) (by simp [h])
    rw [List.length_append, List.length_singleton] at hlater
    rw [List.map_cons, summaryFields, hhere, hlater]
    rfl

theorem describe_provider :
    describe r.provider t =
      match r.columns.find? fun c => c.value.isNone with
      | some c => .error (.metric (.notComputed c.metric.title))
      | none => .ok ⟨⟨r.weightMetric.title, r.weightMetric.format (.integer t.weight)⟩ ::
          ((r.columns.filterMap fun c =>
              c.value.map fun value => ⟨c.metric.title, c.metric.format (value t)⟩) ++
            statisticsField r.weightMetric r.weightSummary t ++
            r.columns.flatMap fun c => statisticsField c.metric c.summary t)⟩ := by
  have hvalues : metricFields r.provider t 0 r.provider.metrics = _ :=
    metricFields_columns t [] r.columns rfl
  have hweight : summaryField r.provider t .weight r.provider.weightMetric = _ :=
    summaryField_eq t .weight r.weightMetric r.weightSummary rfl
  have hsummaries : summaryFields r.provider t 0 r.provider.metrics = _ :=
    summaryFields_columns t [] r.columns rfl
  unfold describe
  rw [hvalues]
  cases r.columns.find? fun c => c.value.isNone with
  | some c => rfl
  | none =>
    simp only [hweight, hsummaries]
    rfl

end Walks

end Engine

/-! ## Tooltips of recipes -/

namespace Recipe

/-- Weight, declared metrics with their own functions, then the last summaries of marked metrics,
the weight's first. -/
def tooltipFor (steps : List (Ingredient α)) (t : CallTree α) : Tooltip where
  fields :=
    ⟨(takenForWeight steps).title, (takenForWeight steps).format (.integer t.weight)⟩ ::
      (((declared steps).filterMap fun c =>
          c.2.map fun value => ⟨c.1.title, c.1.format (value t)⟩) ++
        statisticsField (finishedWeight steps) (attached .weight steps).getLast? t ++
        (declared steps).zipIdx.flatMap fun (c, i) =>
          let fs := attached (.additional i) steps
          statisticsField (finished c fs).metric fs.getLast? t)

/-- A made provider shows `tooltipFor`, or reports the first uncomputed metric. -/
theorem describe_made [ToString α] (title : String) (p : Profile α ε) (steps : List (Ingredient α))
    (t : CallTree α) :
    Engine.describe (made title p steps).provider t =
      match (declared steps).find? fun c => c.2.isNone with
      | some c => .error (.metric (.notComputed c.1.title))
      | none => .ok (tooltipFor steps t) := by
  have hdeclared : declared steps = (declared steps).zipIdx.map Prod.fst :=
    (List.zipIdx_map_fst 0 _).symm
  have hfind : (declared steps).find? (fun c => c.2.isNone) = _ :=
    (congrArg _ hdeclared).trans List.find?_map
  have hvalues := congrArg (List.filterMap fun c : Metric × Option (CallTree α → MetricValue) =>
    c.2.map fun value => (⟨c.1.title, c.1.format (value t)⟩ : TooltipField)) hdeclared
  rw [List.filterMap_map] at hvalues
  rw [Engine.describe_provider, columns_made, weightMetric_made, weightSummary_made, hfind,
    tooltipFor, hvalues, List.find?_map, List.filterMap_map, List.flatMap_map]
  simp only [Function.comp_def, finished]
  cases (declared steps).zipIdx.find? fun c => c.1.2.isNone <;> rfl

theorem metricValue_ne_outOfRange {r : Recipe α ε} {i : Nat} (h : i < r.columns.length)
    (t : CallTree α) (n count : Nat) : r.metricValue t i ≠ .error (.outOfRange n count) := by
  unfold metricValue
  rw [List.getElem?_eq_getElem h]
  cases hv : r.columns[i].value <;> simp [hv]

theorem summaryOf_ne_outOfRange {r : Recipe α ε} {i : Nat} (h : i < r.columns.length)
    (t : CallTree α) (n count : Nat) :
    r.summaryOf t (.additional i) ≠ .error (.outOfRange n count) := by
  simp [summaryOf, h]

end Recipe

/-! ## Tooltip queries -/

section Queries

variable [ToString α] [DecidableEq ε]

theorem Engine.fetchTooltip_of_node (e : Engine α ε) (feed : Feed α ε) {q : Query} (token : Token)
    {time id : Int} {t : CallTree α} (htimes : q.times = .ok (some [time]))
    (hitems : q.items = .ok (some [id])) (hnode : e.nodeAt? id time = some t) :
    e.fetchTooltip feed q token =
      if token.cancelledAt {} then .cancelled
      else
        match describe (feed 0) t with
        | .ok tooltip => .completed tooltip
        | .error err => err.response := by
  have htooltip : e.tooltip (feed 0) q = describe (feed 0) t := by
    simp [Engine.tooltip, htimes, hitems, hnode, Engine.single, Except.mapError, bind, Except.bind]
  rw [← htooltip]
  rfl

/-- A tooltip has the fields of all metrics, each from its own functions, or names the first
uncomputed metric. The vectors behind it stay parallel, and every lookup into them succeeds. -/
theorem tooltip_complete_or_failed (title : String) (profile : Profile α ε)
    (steps : List (Ingredient α)) (e : Engine α ε) {q : Query} (token : Token) {time id : Int}
    {t : CallTree α} (htimes : q.times = .ok (some [time])) (hitems : q.items = .ok (some [id]))
    (hnode : e.nodeAt? id time = some t) :
    let p := (Recipe.made title profile steps).provider
    e.fetchTooltip (fun _ => p) q token =
        (if token.cancelledAt {} then .cancelled
        else
          match (Recipe.declared steps).find? fun c => c.2.isNone with
          | some c => .failed (MetricError.notComputed c.1.title).message
          | none => .completed (Recipe.tooltipFor steps t)) ∧
      (ColumnLists.made steps).Serves p ∧
      p.metrics.length = (Recipe.declared steps).length ∧
      ∀ i < p.metrics.length, ∀ n count,
        p.metricValue t i ≠ .error (.outOfRange n count) ∧
          p.summaryOf t (.additional i) ≠ .error (.outOfRange n count) := by
  intro p
  refine ⟨?_, ColumnLists.serves_made title profile steps, ?_, fun i hi n count => ?_⟩
  · rw [e.fetchTooltip_of_node _ token htimes hitems hnode, Recipe.describe_made]
    cases (Recipe.declared steps).find? fun c => c.2.isNone <;> rfl
  · exact List.length_map .. |>.trans (Recipe.length_columns_made title profile steps)
  · rw [show p.metrics.length = _ from List.length_map ..] at hi
    exact ⟨Recipe.metricValue_ne_outOfRange hi t n count,
      Recipe.summaryOf_ne_outOfRange hi t n count⟩

end Queries

namespace Sample

def draw : CallTree Frame := .graft (.leaf ⟨"draw"⟩ 10) (.leaf ⟨"blend"⟩ 4)

def atDraw : Query := (Query.withTimes {} [3]).withItems [2]

theorem nodeAt?_draw : engine.nodeAt? 2 3 = some draw := by cbv

def integersOnly : MetricValue → String
  | .integer n => toString n
  | _ => "-"

def cost : Metric := { title := "Cost", quantity := .number, formatter := some integersOnly }

def self : Metric := { title := "Self", quantity := .number, formatter := some integersOnly }

def calls (t : CallTree Frame) : Summary := .collect (t.children.map CallTree.weight)

/-- Statistics for a metric declared later, and two for one metric. -/
def steps : List (Ingredient Frame) :=
  [.statistics (.additional 0) calls, .weightMetric cost,
    .metric self fun t => .integer t.ownWeight, .statistics (.additional 0) calls,
    .statistics .weight calls,
    .statistics (.additional 0) fun t => .collect [t.ownWeight, t.weight]]

def stepsWithWait : List (Ingredient Frame) :=
  steps ++ [.declaredMetric { title := "Wait", quantity := .nanoseconds }]

end Sample

/-- The first call of the small session, with all metrics computed and without. -/
theorem tooltip_complete_or_failed_sample :
    Sample.engine.fetchTooltip (fun _ => (Recipe.made "" Sample.profile Sample.steps).provider)
        Sample.atDraw .live =
      .completed ⟨[⟨"Cost", "10"⟩, ⟨"Self", "6"⟩,
        ⟨"Cost (statistics)", "min: 4, max: 4, avg: -"⟩,
        ⟨"Self (statistics)", "min: 6, max: 10, avg: -"⟩]⟩ ∧
    Sample.engine.fetchTooltip
        (fun _ => (Recipe.made "" Sample.profile Sample.stepsWithWait).provider)
        Sample.atDraw .live =
      .failed "metric `Wait` is declared but not computed by this provider" := by
  have htimes : Sample.atDraw.times = .ok (some [3]) := rfl
  have hitems : Sample.atDraw.items = .ok (some [2]) := rfl
  constructor
  · rw [(tooltip_complete_or_failed "" Sample.profile Sample.steps Sample.engine .live htimes hitems
      Sample.nodeAt?_draw).1]
    rfl
  · rw [(tooltip_complete_or_failed "" Sample.profile Sample.stepsWithWait Sample.engine .live
      htimes hitems Sample.nodeAt?_draw).1]
    rfl

end StackProfile
