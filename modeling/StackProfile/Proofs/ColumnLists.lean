import Mathlib.Data.List.Basic
import StackProfile.Proofs.BuiltRecipe

/-!
# Columns as parallel lists

`ColumnLists` keeps metrics, functions and summaries in separate lists. Builder steps keep the lists
parallel, and lookups agree with those in the columns of the recipe.
-/

namespace StackProfile

open Recipe (Ingredient)

variable {α ε : Type}

/-- The parallel vectors of a recipe: metrics, functions and summaries. -/
structure ColumnLists (α : Type) where
  metrics : List Metric := []
  values : List (Option (CallTree α → MetricValue)) := []
  summaries : List (Option (CallTree α → Summary)) := []

namespace ColumnLists

def ofColumns (cs : List (Column α)) : ColumnLists α where
  metrics := cs.map Column.metric
  values := cs.map Column.value
  summaries := cs.map Column.summary

def push (l : ColumnLists α) (m : Metric) (value : Option (CallTree α → MetricValue)) :
    ColumnLists α where
  metrics := l.metrics ++ [m]
  values := l.values ++ [value]
  summaries := l.summaries ++ [none]

/-- Attaches to metric `i` if both vectors have it. -/
def attach (l : ColumnLists α) (i : Nat) (summary : CallTree α → Summary) : ColumnLists α :=
  match l.metrics[i]?, l.summaries[i]? with
  | some m, some _ =>
    { l with
      metrics := l.metrics.set i { m with hasStatistics := true }
      summaries := l.summaries.set i (some summary) }
  | _, _ => l

def apply (l : ColumnLists α) : Ingredient α → ColumnLists α
  | .metric m value => l.push m (some value)
  | .declaredMetric m => l.push m none
  | .statistics (.additional i) summary => l.attach i summary
  | _ => l

def made (steps : List (Ingredient α)) : ColumnLists α := steps.foldl apply {}

/-- The value of metric `index`. `none` would be a failed lookup of the title, which an uncomputed
metric needs for its error. -/
def value? (l : ColumnLists α) (t : CallTree α) (index : Nat) :
    Option (Except MetricError MetricValue) :=
  match l.values[index]? with
  | none => some (.error (.outOfRange index l.metrics.length))
  | some (some value) => some (.ok (value t))
  | some none => l.metrics[index]?.map fun m => .error (.notComputed m.title)

def summaryOf (l : ColumnLists α) (t : CallTree α) (index : Nat) :
    Except MetricError (Option Summary) :=
  match l.summaries[index]? with
  | none => .error (.outOfRange index l.metrics.length)
  | some summary => .ok (summary.map fun f => f t)

/-- The vectors answer as the provider does. -/
structure Serves (l : ColumnLists α) (p : Provider α ε) : Prop where
  metrics : l.metrics = p.metrics
  value : ∀ t i, l.value? t i = some (p.metricValue t i)
  summary : ∀ t i, l.summaryOf t i = p.summaryOf t (.additional i)

/-! ## Steps -/

theorem push_ofColumns (cs : List (Column α)) (m : Metric)
    (value : Option (CallTree α → MetricValue)) :
    (ofColumns cs).push m value = ofColumns (cs ++ [{ metric := m, value := value }]) := by
  simp [ofColumns, push]

/-- `attach` writes one column of both vectors, or none. -/
theorem attach_ofColumns (cs : List (Column α)) (i : Nat) (summary : CallTree α → Summary) :
    (ofColumns cs).attach i summary =
      ofColumns (cs.modify i fun c =>
        { c with metric := { c.metric with hasStatistics := true }, summary := some summary }) := by
  rcases Nat.lt_or_ge i cs.length with hi | hi
  · have hvalues : (cs.map Column.value).set i cs[i].value = cs.map Column.value := by
      rw [← List.map_set, List.set_getElem_self]
    rw [List.modify_eq_set_getElem?]
    simp [attach, ofColumns, List.map_set, hi, hvalues]
  · rw [List.modify_eq_self hi]
    simp [attach, ofColumns, hi]

theorem apply_ofColumns (r : Recipe α ε) (c : Ingredient α) :
    (ofColumns r.columns).apply c = ofColumns (c.apply r).columns := by
  cases c with
  | metric m value => exact push_ofColumns r.columns m (some value)
  | declaredMetric m => exact push_ofColumns r.columns m none
  | statistics index summary =>
    cases index with
    | weight => rfl
    | additional i => exact attach_ofColumns r.columns i summary
  | _ => rfl

/-- `made` is the columns of the recipe. -/
theorem made_eq (title : String) (p : Profile α ε) (steps : List (Ingredient α)) :
    made steps = ofColumns (Recipe.made title p steps).columns := by
  have hsteps : ∀ r : Recipe α ε, steps.foldl apply (ofColumns r.columns) =
      ofColumns (steps.foldl Ingredient.apply r).columns := by
    induction steps with
    | nil => exact fun _ => rfl
    | cons c steps ih =>
      intro r
      rw [List.foldl_cons, List.foldl_cons, apply_ofColumns, ih]
  exact hsteps { title, profile := p }

/-! ## Lookups -/

theorem value?_ofColumns (r : Recipe α ε) (t : CallTree α) (i : Nat) :
    (ofColumns r.columns).value? t i = some (r.metricValue t i) := by
  simp only [value?, ofColumns, Recipe.metricValue, List.getElem?_map, List.length_map]
  cases r.columns[i]? with
  | none => rfl
  | some c => cases hv : c.value <;> simp [hv]

theorem summaryOf_ofColumns (r : Recipe α ε) (t : CallTree α) (i : Nat) :
    (ofColumns r.columns).summaryOf t i = r.summaryOf t (.additional i) := by
  simp only [summaryOf, ofColumns, Recipe.summaryOf, List.getElem?_map, List.length_map]
  cases r.columns[i]? <;> rfl

/-- The vectors of a recipe serve its provider, and every title lookup succeeds. -/
theorem serves_made [ToString α] (title : String) (p : Profile α ε) (steps : List (Ingredient α)) :
    (made steps).Serves (Recipe.made title p steps).provider := by
  rw [made_eq title p steps]
  exact ⟨rfl, value?_ofColumns _, summaryOf_ofColumns _⟩

end ColumnLists

end StackProfile
