import StackProfile.Proofs.AlikeEngine

/-!
# Sessions on alike profiles

`run_related` lifts a simulation of calls to sessions. For providers that do not tell alike nodes
apart the logs are equal.
-/

namespace StackProfile

variable {α β ε δ : Type} [ToString α] [ToString β] [ToString ε] [ToString δ]

/-! ## Runs -/

namespace Engine

/-- Simulation: a relation that every call preserves is preserved by `run`. -/
theorem run_related [BEq α] [BEq β] [Grouping ε] [Grouping δ] [DecidableEq ε] [DecidableEq δ]
    {K : Engine α ε → Engine β δ → Prop} {S : Answer α → Answer β → Prop}
    {p : Provider α ε} {p' : Provider β δ} {cs : List Call}
    (hcall : ∀ c ∈ cs, ∀ {e : Engine α ε} {e' : Engine β δ}, K e e' →
      S (e.call (fun _ => p) c).1 (e'.call (fun _ => p') c).1 ∧
        K (e.call (fun _ => p) c).2 (e'.call (fun _ => p') c).2)
    {e : Engine α ε} {e' : Engine β δ} (h : K e e') :
    List.Forall₂ (fun x y => x.1 = y.1 ∧ S x.2 y.2)
      (e.run (cs.map fun c => (fun _ => p, c))).1
      (e'.run (cs.map fun c => (fun _ => p', c))).1 := by
  induction cs generalizing e e' with
  | nil => exact .nil
  | cons c cs ih =>
    obtain ⟨hc, hcs⟩ := List.forall_mem_cons.mp hcall
    obtain ⟨hanswer, hafter⟩ := hc h
    exact .cons ⟨rfl, hanswer⟩ (ih hcs hafter)

end Engine

/-! ## Tooltips -/

structure Provider.ShowsAlike (p p' : Provider α ε) : Prop extends Provider.DrawsAlike p p' where
  weightMetric : p.weightMetric = p'.weightMetric
  metrics : p.metrics = p'.metrics
  metricValue : ∀ {t t' : CallTree α}, t.Alike t' → p.metricValue t = p'.metricValue t'
  summaryOf : ∀ {t t' : CallTree α}, t.Alike t' → p.summaryOf t = p'.summaryOf t'

namespace Engine

variable {e e' : Engine α ε} {p p' : Provider α ε} {q : Query} {token : Token}

section Tooltips

variable {t t' : CallTree α}

omit [ToString ε] in
theorem metricFields_alike (hp : p.ShowsAlike p') (ht : t.Alike t') (i : Nat) (ms : List Metric) :
    metricFields p t i ms = metricFields p' t' i ms := by
  induction ms generalizing i with
  | nil => rfl
  | cons m ms ih => rw [metricFields, metricFields, hp.metricValue ht, ih]

omit [ToString ε] in
theorem summaryField_alike (hp : p.ShowsAlike p') (ht : t.Alike t') :
    summaryField p t = summaryField p' t' := by
  funext index m
  rw [summaryField, summaryField, hp.summaryOf ht]

omit [ToString ε] in
theorem summaryFields_alike (hp : p.ShowsAlike p') (ht : t.Alike t') (i : Nat)
    (ms : List Metric) : summaryFields p t i ms = summaryFields p' t' i ms := by
  induction ms generalizing i with
  | nil => rfl
  | cons m ms ih => rw [summaryFields, summaryFields, summaryField_alike hp ht, ih]

omit [ToString ε] in
theorem describe_alike (hp : p.ShowsAlike p') (ht : t.Alike t') :
    describe p t = describe p' t' := by
  rw [describe, describe, hp.weightMetric, hp.metrics, metricFields_alike hp ht,
    summaryField_alike hp ht, summaryFields_alike hp ht, ht.weight]

variable [DecidableEq ε]

theorem nodeAt?_alike (h : Alike (.exact ε) e e') (id time : Int) :
    Option.Rel CallTree.Alike (e.nodeAt? id time) (e'.nodeAt? id time) := by
  rw [nodeAt?, nodeAt?]
  refine (Outline.shown?_alike h.index.outline id).bind ?_
  rintro ⟨a, depth⟩ ⟨b, depth'⟩ ⟨hab, hdepth⟩
  obtain rfl : depth = depth' := hdepth
  exact Layout.nodeAt?_alike depth time (h.index.profile.treesOf hab)

theorem fetchTooltip_alike (h : Alike (.exact ε) e e') (hp : p.ShowsAlike p') (q : Query)
    (token : Token) :
    e.fetchTooltip (fun _ => p) q token = e'.fetchTooltip (fun _ => p') q token := by
  have htooltip : e.tooltip p q = e'.tooltip p' q := by
    unfold tooltip
    refine bind_congr fun times => bind_congr fun time => bind_congr fun items =>
      bind_congr fun id => ?_
    have hnode := nodeAt?_alike h id time
    generalize e.nodeAt? id time = x, e'.nodeAt? id time = y at hnode ⊢
    cases hnode with
    | none => rfl
    | some ht => exact describe_alike hp ht
  rw [fetchTooltip, fetchTooltip, htooltip]

end Tooltips

/-! ## Sessions -/

section Sessions

variable [BEq α] [Grouping ε] [DecidableEq ε]

/-- The calls on which providers of alike profiles agree. A tree query needs alike profiles at its
level and range; `node` hands out the tree itself. -/
def Compares (p p' : Provider α ε) : Call → Prop
  | .tree q _ => ∀ level range, q.level = .ok level →
      Profile.Alike (.exact ε) (profileFor (fun _ => p) level range)
        (profileFor (fun _ => p') level range)
  | .node _ _ => False
  | .rows _ _ | .tooltip _ _ | .styles => True

structure ShowsAlike (e e' : Engine α ε) : Prop extends Alike (.exact ε) e e' where
  sheet : e.palette.sheet.get = e'.palette.sheet.get

omit [DecidableEq ε] in
theorem palette_fetchTree (e : Engine α ε) (feed : Feed α ε) (q : Query) (token : Token) :
    (e.fetchTree feed q token).2.palette = e.palette := by
  rcases fetchTree_snd e feed q token with hsame | ⟨i, -, hnew⟩
  · rw [hsame]
  · rw [hnew]

theorem call_alike (h : e.ShowsAlike e') (hp : p.ShowsAlike p') {c : Call} (hc : Compares p p' c) :
    (e.call (fun _ => p) c).1 = (e'.call (fun _ => p') c).1 ∧
      (e.call (fun _ => p) c).2.ShowsAlike (e'.call (fun _ => p') c).2 := by
  cases c with
  | tree q token =>
    obtain ⟨hanswer, hafter⟩ := fetchTree_alike h.toAlike hp.toDrawsAlike hc token
    refine ⟨congrArg Answer.tree ?_, hafter, ?_⟩
    · simpa only [Response.map_entries_exact] using hanswer
    · rw [call, call, palette_fetchTree, palette_fetchTree, h.sheet]
  | rows q token =>
    have hanswer := fetchRows_alike h.toAlike hp.toDrawsAlike q token
    refine ⟨congrArg Answer.rows ?_, h⟩
    simpa only [Response.map_spans_exact] using hanswer
  | tooltip q token => exact ⟨congrArg Answer.tooltip (fetchTooltip_alike h.toAlike hp q token), h⟩
  | styles => exact ⟨congrArg (fun sheet => Answer.styles (.completed sheet)) h.sheet, h⟩
  | node id time => exact hc.elim

/-- Alike engines have equal logs. -/
theorem run_alike (h : e.ShowsAlike e') (hp : p.ShowsAlike p') {cs : List Call}
    (hcs : ∀ c ∈ cs, Compares p p' c) :
    (e.run (cs.map fun c => (fun _ => p, c))).1 =
      (e'.run (cs.map fun c => (fun _ => p', c))).1 := by
  have hlogs := run_related (K := ShowsAlike) (S := Eq)
    (fun c hc e e' h => call_alike h hp (hcs c hc)) h
  rw [← List.forall₂_eq_eq_eq]
  exact hlogs.imp fun x y hxy => Prod.ext hxy.1 hxy.2

end Sessions

end Engine

end StackProfile
