import StackProfile.Proofs.TooltipFields

/-!
# Shown statistics

Attaching summaries marks the metric, and tooltips show the summaries of marked metrics. Additional
metrics stay marked; the weight's mark is replaced with its metric.
-/

namespace StackProfile

open Recipe (Ingredient)

variable {α ε : Type}

def Provider.metric? (p : Provider α ε) : MetricIndex → Option Metric
  | .weight => some p.weightMetric
  | .additional i => p.metrics[i]?

namespace Recipe

variable {earlier later : List (Ingredient α)} {index : MetricIndex} {f : CallTree α → Summary}

theorem attached_ne_nil (h : IsDeclared earlier index) :
    attached index (earlier ++ .statistics index f :: later) ≠ [] := by
  rw [attached, attachedAfter_append, attachedAfter, List.nil_append, if_pos h]
  simp [Ingredient.attached?]

theorem IsDeclared.append (h : IsDeclared earlier index) (later : List (Ingredient α)) :
    IsDeclared (earlier ++ later) index := by
  cases index with
  | weight => trivial
  | additional i =>
    simp only [IsDeclared, declared, List.filterMap_append, List.length_append] at h ⊢
    omega

/-- The mark after attaching to the weight is that of the last later step with one. -/
theorem finishedWeight_hasStatistics :
    (finishedWeight (earlier ++ .statistics .weight f :: later)).hasStatistics =
      (later.filterMap Ingredient.weightMark?).getLast?.getD true := by
  have hmark : (Ingredient.statistics .weight f).weightMark? = some true := rfl
  change ((earlier ++ _ :: later).filterMap Ingredient.weightMark?).getLast?.getD false = _
  rw [List.filterMap_append, List.filterMap_cons_some hmark, List.getLast?_append_cons,
    List.getLast?_cons, Option.getD_some]

theorem exists_marked [ToString α] (title : String) (p : Profile α ε) {steps : List (Ingredient α)}
    (hdeclared : IsDeclared steps index) (hattached : attached index steps ≠ [])
    (hweight : index = .weight → (finishedWeight steps).hasStatistics = true) :
    ∃ m, (made title p steps).provider.metric? index = some m ∧ m.hasStatistics = true ∧
      ∀ t g, (attached index steps).getLast? = some g →
        ⟨m.statisticsTitle, (g t).describe m⟩ ∈ (tooltipFor steps t).fields := by
  cases index with
  | weight =>
    refine ⟨finishedWeight steps, congrArg some (weightMetric_made title p steps), hweight rfl,
      fun t g hg => ?_⟩
    let m := finishedWeight steps
    have hfield : ⟨m.statisticsTitle, (g t).describe m⟩ ∈
        statisticsField m (attached .weight steps).getLast? t := by
      simp [statisticsField, m, hweight rfl, hg]
    simp only [tooltipFor, List.mem_cons, List.mem_append]
    exact .inr (.inl (.inr hfield))
  | additional i =>
    let fs := attached (.additional i) steps
    obtain ⟨c, hc⟩ : ∃ c, (declared steps)[i]? = some c := ⟨_, List.getElem?_eq_getElem hdeclared⟩
    have hmark : (finished c fs).metric.hasStatistics = true := by
      simp [finished, fs, hattached]
    refine ⟨(finished c fs).metric, ?_, hmark, fun t g hg => ?_⟩
    · change ((made title p steps).columns.map Column.metric)[i]? = _
      rw [List.getElem?_map, getElem?_columns_made, hc]
      rfl
    · have hfield : ⟨(finished c fs).metric.statisticsTitle, (g t).describe (finished c fs).metric⟩
          ∈ statisticsField (finished c fs).metric fs.getLast? t := by
        simp [statisticsField, hmark, fs, hg]
      simp only [tooltipFor, List.mem_cons, List.mem_append, List.mem_flatMap]
      exact .inr (.inr ⟨(c, i), List.mem_zipIdx_iff_getElem?.2 hc, hfield⟩)

end Recipe

/-- Attached statistics are shown: the finished metric is marked, and tooltips show the last summary
attached. For the weight, no later metric may clear the mark. -/
theorem attached_statistics_shown [ToString α] [DecidableEq ε] (title : String)
    (profile : Profile α ε) (earlier later : List (Ingredient α)) (index : MetricIndex)
    (f : CallTree α → Summary)
    (hdeclared : Recipe.IsDeclared earlier index)
    (hlater : index = .weight → (later.filterMap Ingredient.weightMark?).getLast? ≠ some false) :
    let steps := earlier ++ .statistics index f :: later
    let p := (Recipe.made title profile steps).provider
    ∃ m g, p.metric? index = some m ∧ m.hasStatistics = true ∧
      (Recipe.attached index steps).getLast? = some g ∧
      ∀ (e : Engine α ε) (q : Query) (token : Token) (time id : Int) (t : CallTree α),
        q.times = .ok (some [time]) → q.items = .ok (some [id]) →
        e.nodeAt? id time = some t →
        ∀ tooltip, (e.fetchTooltip (fun _ => p) q token).model = some tooltip →
          ⟨m.statisticsTitle, (g t).describe m⟩ ∈ tooltip.fields := by
  intro steps p
  have hattached : Recipe.attached index steps ≠ [] := Recipe.attached_ne_nil hdeclared
  obtain ⟨m, hm, hmark, hfields⟩ :=
    Recipe.exists_marked title profile (hdeclared.append _) hattached fun hindex => by
      subst hindex
      rw [Recipe.finishedWeight_hasStatistics]
      cases hlast : (later.filterMap Ingredient.weightMark?).getLast? with
      | none => rfl
      | some mark =>
        cases mark with
        | true => rfl
        | false => exact absurd hlast (hlater rfl)
  refine ⟨m, _, hm, hmark, List.getLast?_eq_some_getLast hattached, ?_⟩
  intro e q token time id t htimes hitems hnode tooltip htooltip
  have hfield := hfields t _ (List.getLast?_eq_some_getLast hattached)
  rw [e.fetchTooltip_of_node _ token htimes hitems hnode, Recipe.describe_made] at htooltip
  split at htooltip
  · cases htooltip
  · cases hfind : (Recipe.declared steps).find? fun c => c.2.isNone with
    | some c => rw [hfind] at htooltip; cases htooltip
    | none =>
      rw [hfind] at htooltip
      cases htooltip
      exact hfield

/-- Statistics of the weight under a later metric with a mark. -/
theorem attached_statistics_shown_marked :
    let marked : Metric := { Sample.cost with hasStatistics := true }
    let p := (Recipe.made "" Sample.profile
      [.statistics .weight Sample.calls, .weightMetric marked]).provider
    p.weightMetric.hasStatistics = true ∧
      ∀ tooltip, (Sample.engine.fetchTooltip (fun _ => p) Sample.atDraw .live).model =
        some tooltip → ⟨"Cost (statistics)", "min: 4, max: 4, avg: -"⟩ ∈ tooltip.fields := by
  intro marked p
  obtain ⟨m, g, hm, hmark, hg, h⟩ := attached_statistics_shown "" Sample.profile []
    [.weightMetric marked] .weight Sample.calls trivial (by decide)
  cases hm
  cases hg
  exact ⟨hmark, h Sample.engine Sample.atDraw .live 3 2 _ rfl rfl Sample.nodeAt?_draw⟩

/-- Counterexample: a later metric without a mark hides statistics that are still attached. -/
theorem unmarked_weight_hides_statistics :
    let p := (Recipe.made "" Sample.profile
      [.statistics .weight Sample.calls, .weightMetric Sample.cost]).provider
    p.weightMetric.hasStatistics = false ∧
      p.summaryOf Sample.draw .weight = .ok (some ⟨1, 4, 4, 4⟩) ∧
      Sample.engine.fetchTooltip (fun _ => p) Sample.atDraw .live =
        .completed ⟨[⟨"Cost", "10"⟩]⟩ := by
  refine ⟨rfl, rfl, ?_⟩
  rw [Sample.engine.fetchTooltip_of_node _ .live (q := Sample.atDraw) rfl rfl
    Sample.nodeAt?_draw]
  rfl

end StackProfile
