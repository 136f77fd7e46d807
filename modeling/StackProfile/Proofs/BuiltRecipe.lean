import Mathlib.Data.List.Induction
import StackProfile.Provider

/-!
# Recipes from builder steps

`Recipe.made` applies a list of `Ingredient`s. `finishedWeight`, `declared` and `attached` compute
the metrics of the result and what is attached to them from the list.
-/

namespace StackProfile.Recipe

variable {α ε : Type}

/-! ## Steps -/

/-- A builder step of a recipe. -/
inductive Ingredient (α : Type) where
  | weightMetric (m : Metric)
  | metric (m : Metric) (value : CallTree α → MetricValue)
  | declaredMetric (m : Metric)
  | statistics (index : MetricIndex) (summary : CallTree α → Summary)
  | analysis (a : Analysis)
  | palette (p : Palette α)

namespace Ingredient

def apply (r : Recipe α ε) : Ingredient α → Recipe α ε
  | weightMetric m => r.withWeightMetric m
  | metric m value => r.withMetric m value
  | declaredMetric m => r.withDeclaredMetric m
  | statistics index summary => r.withStatistics index summary
  | analysis a => r.withAnalysis a
  | palette p => r.withPalette p

def weightMetric? : Ingredient α → Option Metric
  | weightMetric m => some m
  | _ => none

/-- The mark that a step leaves on the weight metric. -/
def weightMark? : Ingredient α → Option Bool
  | weightMetric m => some m.hasStatistics
  | statistics .weight _ => some true
  | _ => none

/-- The metric that a step declares, with its function if it has one. -/
def declared? : Ingredient α → Option (Metric × Option (CallTree α → MetricValue))
  | metric m value => some (m, some value)
  | declaredMetric m => some (m, none)
  | _ => none

def attached? (index : MetricIndex) : Ingredient α → Option (CallTree α → Summary)
  | statistics i summary => if i = index then some summary else none
  | _ => none

theorem weightMetric_apply (r : Recipe α ε) (c : Ingredient α) :
    (c.apply r).weightMetric =
      { c.weightMetric?.getD r.weightMetric with
        hasStatistics := c.weightMark?.getD r.weightMetric.hasStatistics } := by
  cases c with
  | statistics index f => cases index <;> rfl
  | _ => rfl

theorem weightSummary_apply (r : Recipe α ε) (c : Ingredient α) :
    (c.apply r).weightSummary = (c.attached? .weight).or r.weightSummary := by
  cases c with
  | statistics index f => cases index <;> rfl
  | _ => rfl

end Ingredient

def made (title : String) (p : Profile α ε) (steps : List (Ingredient α)) : Recipe α ε :=
  steps.foldl Ingredient.apply { title, profile := p }

def takenForWeight (steps : List (Ingredient α)) : Metric :=
  (steps.filterMap Ingredient.weightMetric?).getLast?.getD .weight

/-- The weight metric of the finished recipe. Its mark is left by the last step that has one. -/
def finishedWeight (steps : List (Ingredient α)) : Metric :=
  { takenForWeight steps with
    hasStatistics := (steps.filterMap Ingredient.weightMark?).getLast?.getD false }

def declared (steps : List (Ingredient α)) : List (Metric × Option (CallTree α → MetricValue)) :=
  steps.filterMap Ingredient.declared?

def IsDeclared (steps : List (Ingredient α)) : MetricIndex → Prop
  | .weight => True
  | .additional i => i < (declared steps).length

instance (steps : List (Ingredient α)) : (index : MetricIndex) → Decidable (IsDeclared steps index)
  | .weight => .isTrue trivial
  | .additional i => inferInstanceAs (Decidable (i < (declared steps).length))

/-- The summaries attached at `index`, which an earlier step must have declared. -/
def attachedAfter (index : MetricIndex) (earlier : List (Ingredient α)) :
    List (Ingredient α) → List (CallTree α → Summary)
  | [] => []
  | c :: later =>
    (if IsDeclared earlier index then c.attached? index else none).toList ++
      attachedAfter index (earlier ++ [c]) later

def attached (index : MetricIndex) (steps : List (Ingredient α)) : List (CallTree α → Summary) :=
  attachedAfter index [] steps

theorem made_append_singleton (title : String) (p : Profile α ε) (steps : List (Ingredient α))
    (c : Ingredient α) : made title p (steps ++ [c]) = c.apply (made title p steps) := by
  rw [made, List.foldl_append]
  rfl

theorem declared_append_singleton (steps : List (Ingredient α)) (c : Ingredient α) :
    declared (steps ++ [c]) = declared steps ++ c.declared?.toList := by
  rw [declared, List.filterMap_append, ← declared]
  cases hc : c.declared? <;> simp [hc]

theorem attachedAfter_append (index : MetricIndex) (earlier steps later : List (Ingredient α)) :
    attachedAfter index earlier (steps ++ later) =
      attachedAfter index earlier steps ++ attachedAfter index (earlier ++ steps) later := by
  induction steps generalizing earlier with
  | nil => rw [List.append_nil]; rfl
  | cons c steps ih =>
    rw [List.cons_append, attachedAfter, attachedAfter, ih, List.append_assoc, List.append_assoc,
      List.singleton_append]

theorem attached_append_singleton (index : MetricIndex) (steps : List (Ingredient α))
    (c : Ingredient α) : attached index (steps ++ [c]) =
      attached index steps ++
        (if IsDeclared steps index then c.attached? index else none).toList := by
  rw [attached, attachedAfter_append, ← attached, attachedAfter, attachedAfter, List.append_nil,
    List.nil_append]

theorem attached_of_not_isDeclared {index : MetricIndex} {steps : List (Ingredient α)}
    (h : ¬ IsDeclared steps index) : attached index steps = [] := by
  induction steps using List.reverseRecOn with
  | nil => rfl
  | append_singleton steps c ih =>
    have hearlier : ¬ IsDeclared steps index := by
      cases index with
      | weight => exact absurd trivial h
      | additional i =>
        simp only [IsDeclared, declared_append_singleton, List.length_append] at h ⊢
        omega
    rw [attached_append_singleton, ih hearlier, if_neg hearlier]
    rfl

/-! ## Made recipes -/

section Made

variable (title : String) (p : Profile α ε) (steps : List (Ingredient α))

theorem weightMetric_made : (made title p steps).weightMetric = finishedWeight steps := by
  induction steps using List.reverseRecOn with
  | nil => rfl
  | append_singleton steps c ih =>
    rw [made_append_singleton, c.weightMetric_apply, ih, finishedWeight, takenForWeight,
      finishedWeight, takenForWeight, List.filterMap_append, List.filterMap_append]
    cases hm : c.weightMetric? <;> cases hmark : c.weightMark? <;> simp [hm, hmark]

theorem weightSummary_made :
    (made title p steps).weightSummary = (attached .weight steps).getLast? := by
  induction steps using List.reverseRecOn with
  | nil => rfl
  | append_singleton steps c ih =>
    rw [made_append_singleton, attached_append_singleton, c.weightSummary_apply, ih,
      if_pos (show IsDeclared steps .weight from trivial)]
    cases hc : c.attached? .weight <;> simp

theorem length_columns_made :
    (made title p steps).columns.length = (declared steps).length := by
  induction steps using List.reverseRecOn with
  | nil => rfl
  | append_singleton steps c ih =>
    rw [made_append_singleton, declared_append_singleton, List.length_append, ← ih]
    cases c with
    | metric m value => exact List.length_append
    | declaredMetric m => exact List.length_append
    | statistics index summary =>
      cases index with
      | weight => rfl
      | additional i => exact List.length_modify ..
    | _ => rfl

/-- The finished column of a declared metric, with the last summary attached to it. -/
def finished (c : Metric × Option (CallTree α → MetricValue)) (fs : List (CallTree α → Summary)) :
    Column α where
  metric := { c.1 with hasStatistics := c.1.hasStatistics || !fs.isEmpty }
  value := c.2
  summary := fs.getLast?

theorem finished_nil (c : Metric × Option (CallTree α → MetricValue)) :
    finished c [] = { metric := c.1, value := c.2 } := by
  simp [finished]

theorem finished_append_singleton (c : Metric × Option (CallTree α → MetricValue))
    (fs : List (CallTree α → Summary)) (f : CallTree α → Summary) :
    finished c (fs ++ [f]) =
      { finished c fs with
        metric := { (finished c fs).metric with hasStatistics := true }
        summary := some f } := by
  simp [finished]

theorem getElem?_append_column (i : Nat) (c : Metric × Option (CallTree α → MetricValue))
    (h : (made title p steps).columns[i]? =
      (declared steps)[i]?.map fun c => finished c (attached (.additional i) steps)) :
    ((made title p steps).columns ++ [finished c []])[i]? =
      (declared steps ++ [c])[i]?.map fun c => finished c (attached (.additional i) steps) := by
  by_cases hi : i < (declared steps).length
  · rw [List.getElem?_append_left (by rwa [length_columns_made]), List.getElem?_append_left hi, h]
  · have hnew : attached (.additional i) steps = [] := attached_of_not_isDeclared hi
    rw [List.getElem?_append_right (by rw [length_columns_made]; omega),
      List.getElem?_append_right (by omega), length_columns_made, hnew, ← List.getElem?_map]
    rfl

theorem getElem?_columns_made (i : Nat) :
    (made title p steps).columns[i]? =
      (declared steps)[i]?.map fun c => finished c (attached (.additional i) steps) := by
  induction steps using List.reverseRecOn with
  | nil => rfl
  | append_singleton steps c ih =>
    rw [made_append_singleton, declared_append_singleton, attached_append_singleton]
    cases c with
    | statistics index f =>
      cases index with
      | weight =>
        simpa [Ingredient.apply, withStatistics, Ingredient.declared?, Ingredient.attached?]
          using ih
      | additional j =>
        change ((made title p steps).columns.modify j _)[i]? = _
        rw [List.getElem?_modify, ih]
        by_cases hij : j = i
        · subst hij
          by_cases hj : j < (declared steps).length
          · simp [IsDeclared, hj, Ingredient.declared?, Ingredient.attached?,
              finished_append_singleton]
          · simp [hj, Ingredient.declared?]
        · simp [hij, Ingredient.declared?, Ingredient.attached?]
    | metric m value =>
      simpa [Ingredient.apply, withMetric, Ingredient.declared?, Ingredient.attached?, finished_nil]
        using getElem?_append_column title p steps i (m, some value) ih
    | declaredMetric m =>
      simpa [Ingredient.apply, withDeclaredMetric, Ingredient.declared?, Ingredient.attached?,
          finished_nil]
        using getElem?_append_column title p steps i (m, none) ih
    | _ =>
      simpa [Ingredient.apply, withWeightMetric, withAnalysis, withPalette, Ingredient.declared?,
        Ingredient.attached?] using ih

/-- `made` keeps the declared metrics in order, each with its own function and summaries. -/
theorem columns_made :
    (made title p steps).columns =
      (declared steps).zipIdx.map fun c =>
        finished c.1 (attached (.additional c.2) steps) := by
  refine List.ext_getElem? fun i => ?_
  rw [getElem?_columns_made, List.getElem?_map, List.getElem?_zipIdx, Option.map_map, Nat.zero_add]
  rfl

end Made

end StackProfile.Recipe
