import StackProfile.Proofs.CheckedLayout
import StackProfile.Proofs.GrownTree
import StackProfile.Proofs.OutlineSteps
import StackProfile.Proofs.RowTiling

/-!
# Checked walks

A recursive walk that polls, appends spans and checks every plain operation. `run_eq_carry` proves
it equal to carrying out the plan of the walk. The induction carries sound slots and
`depth + height ≤ maxIndex`.
-/

namespace StackProfile

open Rows (endOf)

variable {α ε : Type}

namespace Checked

/-! ## Filling rows -/

/-- Appends `span` to the rows with a depth in `(lower, upper]`; a range given by both ends must not
be inverted. -/
def appendIn (lower : Option Nat) (upper : Nat) (span : Span) (rows : List (Nat × List Span)) :
    Option (List (Nat × List Span)) :=
  if lower.all (· < upper) then
    some (rows.map fun r => if lower.all (· < r.1) && r.1 ≤ upper then (r.1, r.2 ++ [span]) else r)
  else none

def fill (above : Option Nat) (through : Nat) (start duration : Int)
    (rows : List (Nat × List Span)) : Option (List (Nat × List Span)) :=
  if duration ≤ 0 then some rows
  else if above.any (through ≤ ·) then some rows
  else appendIn above through (.gap start duration) rows

def extend (paint : Rows.Paint α) (step : Step α) (rows : List (Nat × List Span)) :
    List (Nat × List Span) :=
  rows.map fun r => (r.1, r.2 ++ (paint.stepSpan? r.1 step).toList)

theorem append_if (p : Prop) [Decidable p] (span : Span) (r : Nat × List Span) :
    (if p then (r.1, r.2 ++ [span]) else r) =
      (r.1, r.2 ++ (if p then some span else none).toList) := by
  split
  · rfl
  · rw [Option.toList_none, List.append_nil]

/-- `fill` succeeds: no gap is improper and no range of depths inverted. -/
theorem fill_eq (paint : Rows.Paint α) (above : Option Nat) (through : Nat) (start duration : Int)
    (rows : List (Nat × List Span)) :
    fill above through start duration rows =
      some (extend paint (.gap above through start duration) rows) := by
  unfold fill extend
  split
  · next hempty =>
    have hempty : ¬ 0 < duration := by omega
    simp [Rows.Paint.stepSpan?, hempty]
  · next hproper =>
    have hproper : 0 < duration := by omega
    cases above with
    | none => simp [Rows.Paint.stepSpan?, hproper, appendIn, append_if]
    | some a =>
      by_cases hinverted : through ≤ a
      · have hnone : ∀ d : Nat, ¬ ((0 < duration ∧ a < d) ∧ d ≤ through) := by omega
        simp [Rows.Paint.stepSpan?, hinverted, hnone]
      · have hrange : a < through := by omega
        simp [Rows.Paint.stepSpan?, hproper, hinverted, hrange, appendIn, append_if]

/-! ## Walking -/

/-- The state of a walk: rows and poll counters. -/
structure Painter where
  rows : List (Nat × List Span)
  progress : Progress

section Walks

variable (w : RowWalk α)

namespace Painter

def ofWalk (w : RowWalk α) : Painter := ⟨w.rows, w.progress⟩

def poll (p : Painter) : Painter :=
  { p with progress := { p.progress with polls := p.progress.polls + 1 } }

def node (p : Painter) (depth : Nat) (s : Slot α) : Painter where
  rows := p.rows.map fun r =>
    if r.1 = depth && w.paint.filters.accepts depth (w.paint.span s) s.tree.weight then
      (r.1, r.2 ++ [w.paint.span s])
    else r
  progress :=
    if w.depths.contains depth then { p.progress with spans := p.progress.spans + 1 }
    else p.progress

def gap (p : Painter) (above : Option Nat) (through : Nat) (start duration : Int) :
    Option Painter := do
  let rows ← fill above through start duration p.rows
  return { p with rows }

end Painter

/-- Visits slots until a time misses one or a visit is not finished. -/
def forEach (visit : Slot α → Painter → Option (Painter × Bool)) :
    List (Slot α) → Painter → Option (Painter × Bool)
  | [], p => some (p, true)
  | s :: rest, p =>
    if Layout.touches w.times s.start s.width then do
      let (p, finished) ← visit s p
      if finished then forEach visit rest p else some (p, false)
    else forEach visit rest p

variable [ToString α]

/-- Walks over a node and its subtree, down to depth `limit`. -/
def place (levels depth limit : Nat) (s : Slot α) (p : Painter) : Option (Painter × Bool) :=
  if w.token.cancelledAt p.progress then some (p, false)
  else
    let p := p.poll.node w depth s
    if limit ≤ depth then some (p, true)
    else
      match levels with
      | 0 => none
      | levels + 1 => do
        let reach ← pred (← plus depth s.tree.height)
        let p ← p.gap (some reach) limit s.start s.width
        let children ← childSlots s
        let visit (c : Slot α) (p : Painter) : Option (Painter × Bool) := do
          place levels (← plus depth 1) (min limit reach) c p
        let (p, finished) ← forEach w visit children p
        if finished then
          let used := endOf s.start children
          let unused ← minus s.finish used
          if 0 < unused && Layout.touches w.times used unused then
            let p ← p.gap (some depth) (min limit reach) used unused
            return (p, true)
          else return (p, true)
        else return (p, false)

/-- One run of a walk, with the end of the last root, `none` if cancelled. -/
def run (roots : List (CallTree α)) (elementEnd : Int) : Option (Painter × Option Int) := do
  let level ← slots roots 0 none
  let deepest := Rows.deepestOf w.depths
  let (p, finished) ← forEach w (place w deepest 0 deepest) level (.ofWalk w)
  if finished then
    let cursor := endOf 0 level
    if cursor < elementEnd then
      let rest ← minus elementEnd cursor
      if Layout.touches w.times cursor rest then
        let p ← p.gap none deepest cursor rest
        return (p, some cursor)
      else return (p, some cursor)
    else return (p, some cursor)
  else return (p, none)

end Walks

/-! ## Carrying out a plan -/

section Plans

variable {w : RowWalk α} {p : Painter} {rest : List (Step α)}

/-- The rows and progress after `steps`, and whether the token let all of them pass. -/
def carry (w : RowWalk α) (p : Painter) (steps : List (Step α)) : Painter × Bool :=
  let outcome := Rows.carryOut w.token w.depths.contains p.progress steps
  (⟨p.rows.map fun r => (r.1, r.2 ++ w.paint.row r.1 outcome.done), outcome.progress⟩,
    outcome.finished)

theorem carry_nil (w : RowWalk α) (p : Painter) : carry w p [] = (p, true) := by
  simp [carry, Rows.carryOut]

theorem row_cons (paint : Rows.Paint α) (d : Nat) (step : Step α) (steps : List (Step α)) :
    paint.row d (step :: steps) = (paint.stepSpan? d step).toList ++ paint.row d steps := by
  rw [Rows.Paint.row, List.filterMap_cons]
  cases paint.stepSpan? d step <;> rfl

theorem map_extend (paint : Rows.Paint α) (step : Step α) (rows : List (Nat × List Span))
    (steps : List (Step α)) :
    ((extend paint step rows).map fun r => (r.1, r.2 ++ paint.row r.1 steps)) =
      rows.map fun r => (r.1, r.2 ++ paint.row r.1 (step :: steps)) := by
  simp only [extend, List.map_map, row_cons, ← List.append_assoc]
  rfl

theorem carry_poll :
    carry w p (.poll :: rest) =
      if w.token.cancelledAt p.progress then (p, false) else carry w p.poll rest := by
  unfold carry
  rw [Rows.carryOut]
  split
  · simp
  · rfl

theorem node_rows (depth : Nat) (s : Slot α) :
    (p.node w depth s).rows = extend w.paint (.node depth s) p.rows := by
  simp only [Painter.node, extend, Rows.Paint.stepSpan?, append_if]
  refine List.map_congr_left fun r _ => ?_
  by_cases hdepth : r.1 = depth
  · subst hdepth
    rfl
  · simp [hdepth, Ne.symm hdepth]

theorem carry_node (depth : Nat) (s : Slot α) :
    carry w p (.node depth s :: rest) = carry w (p.node w depth s) rest := by
  simp only [carry, node_rows, map_extend]
  rfl

def Painter.withGap (w : RowWalk α) (p : Painter) (above : Option Nat) (through : Nat)
    (start duration : Int) : Painter :=
  { p with rows := extend w.paint (.gap above through start duration) p.rows }

theorem gap_eq (w : RowWalk α) (p : Painter) (above : Option Nat) (through : Nat)
    (start duration : Int) :
    p.gap above through start duration = some (p.withGap w above through start duration) := by
  rw [Painter.gap, fill_eq w.paint]
  rfl

theorem carry_gap (above : Option Nat) (through : Nat) (start duration : Int) :
    carry w p (.gap above through start duration :: rest) =
      carry w (p.withGap w above through start duration) rest := by
  simp only [carry, Painter.withGap, map_extend]
  rfl

theorem carry_append (as bs : List (Step α)) :
    carry w p (as ++ bs) =
      if (carry w p as).2 then carry w (carry w p as).1 bs else ((carry w p as).1, false) := by
  induction as generalizing p with
  | nil => rw [carry_nil]; rfl
  | cons step as ih =>
    cases step with
    | poll =>
      rw [List.cons_append, carry_poll, carry_poll, ih]
      split <;> rfl
    | node depth s => rw [List.cons_append, carry_node, carry_node, ih]
    | gap above through start duration => rw [List.cons_append, carry_gap, carry_gap, ih]

theorem forEach_eq {visit : Slot α → Painter → Option (Painter × Bool)}
    {steps : Slot α → List (Step α)} {level : List (Slot α)}
    (h : ∀ s ∈ level, ∀ p, visit s p = some (carry w p (steps s))) :
    forEach w visit level p = some (carry w p (level.flatMap fun s =>
      if Layout.touches w.times s.start s.width then steps s else [])) := by
  induction level generalizing p with
  | nil => rw [List.flatMap_nil, carry_nil]; rfl
  | cons s level ih =>
    obtain ⟨hs, hlevel⟩ := List.forall_mem_cons.mp h
    rw [List.flatMap_cons, carry_append]
    unfold forEach
    split
    · rw [hs]
      simp only [Option.bind_eq_bind, Option.bind_some]
      split
      · exact ih hlevel
      · rfl
    · rw [carry_nil]
      exact ih hlevel

variable [ToString α]

theorem place_eq {levels depth limit : Nat} {s : Slot α} (hs : s.Sound)
    (hheight : depth + s.tree.height ≤ maxIndex) (hlevels : limit ≤ depth + levels)
    (hlimit : limit ≤ maxIndex) (p : Painter) :
    place w levels depth limit s p =
      some (carry w p (Rows.planNode w.times levels depth limit s)) := by
  induction levels generalizing depth limit s p with
  | zero =>
    have hdepth : limit ≤ depth := hlevels
    rw [Rows.planNode_of_le hdepth, carry_poll, carry_node, carry_nil, place]
    simp only [if_pos hdepth]
    split <;> rfl
  | succ levels ih =>
    by_cases hdepth : limit ≤ depth
    · rw [Rows.planNode_of_le hdepth, carry_poll, carry_node, carry_nil, place]
      simp only [if_pos hdepth]
      split <;> rfl
    · have hpos := hs.tree.height_pos
      have hnext : depth + 1 ≤ maxIndex := by omega
      have hreach : 1 ≤ depth + s.tree.height := by omega
      have hused : s.start ≤ endOf s.start (Layout.childSlots s) := (Layout.tiles_childSlots hs).le
      have hfinish := Layout.endOf_childSlots_le hs
      have hunused : minus s.finish (endOf s.start (Layout.childSlots s)) =
          some (s.finish - endOf s.start (Layout.childSlots s)) :=
        minus_eq (hs.start_nonneg.trans hs.start_le_finish) hs.finish_le
          (hs.start_nonneg.trans hused) (hfinish.trans hs.finish_le)
      have hvisit : ∀ c ∈ Layout.childSlots s, ∀ p,
          place w levels (depth + 1) (min limit (depth + s.tree.height - 1)) c p =
            some (carry w p (Rows.planNode w.times levels (depth + 1)
              (min limit (depth + s.tree.height - 1)) c)) := by
        intro c hc p
        have hc' := Layout.height_lt_of_mem_childSlots hs hc
        exact ih (Layout.sound_childSlots hs c hc) (by omega) (by omega) (by omega) p
      rw [Rows.planNode_of_lt (by omega), carry_poll, carry_node, carry_gap, Rows.childSteps,
        carry_append, place]
      simp only [if_neg hdepth, plus_eq hheight, pred_eq hreach, gap_eq w, childSlots_eq hs,
        plus_eq hnext, forEach_eq hvisit, hunused, Option.bind_eq_bind, Option.bind_some]
      split
      · rfl
      · split
        · split
          · rw [carry_gap, carry_nil]
            rfl
          · rw [carry_nil]
            rfl
        · rfl

theorem deepestOf_le {depths : List Nat} (h : ∀ d ∈ depths, d ≤ maxIndex) :
    Rows.deepestOf depths ≤ maxIndex := by
  suffices hfrom : ∀ m ≤ maxIndex, depths.foldl max m ≤ maxIndex from hfrom 0 (Nat.zero_le _)
  induction depths with
  | nil => exact fun m hm => hm
  | cons d depths ih =>
    obtain ⟨hd, hdepths⟩ := List.forall_mem_cons.mp h
    exact fun m hm => ih hdepths _ (Nat.max_le.mpr ⟨hm, hd⟩)

/-- `run` carries out its plan. -/
theorem run_eq_carry (w : RowWalk α) (roots : List (CallTree α)) (elementEnd : Int) :
    let carried := carry w (.ofWalk w)
      (Rows.plan w.times (Rows.deepestOf w.depths) roots elementEnd)
    (Painter.ofWalk (w.run roots elementEnd).1, (w.run roots elementEnd).2) =
      (carried.1, if carried.2 then some (endOf 0 (Layout.slots roots 0 none)) else none) := by
  simp only [RowWalk.run, carry, Painter.ofWalk, RowWalk.rows, List.map_map,
    Rows.Paint.row_append]
  rfl

theorem run_eq {roots : List (CallTree α)} {elementEnd : Int}
    (h : ∀ t ∈ roots, t.Sound) (hheight : ∀ t ∈ roots, t.height ≤ maxIndex)
    (hdepths : ∀ d ∈ w.depths, d ≤ maxIndex) (hend : elementEnd ≤ maxTime) :
    run w roots elementEnd =
      some (.ofWalk (w.run roots elementEnd).1, (w.run roots elementEnd).2) := by
  have hdeepest := deepestOf_le hdepths
  have hvisit : ∀ s ∈ Layout.slots roots 0 none, ∀ p,
      place w (Rows.deepestOf w.depths) 0 (Rows.deepestOf w.depths) s p =
        some (carry w p (Rows.planNode w.times (Rows.deepestOf w.depths) 0
          (Rows.deepestOf w.depths) s)) := by
    intro s hs p
    have htree := hheight s.tree (Layout.mem_ordered.mp (Layout.tree_mem_of_mem_slotsFrom hs))
    exact place_eq (Layout.sound_rootSlots h s hs) (by omega) (by omega) hdeepest p
  have hcursor : 0 ≤ endOf 0 (Layout.slots roots 0 none) := by
    rw [Layout.endOf_rootSlots h]
    exact Layout.total_nonneg h
  rw [run_eq_carry, Rows.plan, carry_append]
  simp only [run, slots_eq h, forEach_eq hvisit, Option.bind_eq_bind, Option.bind_some]
  split
  · by_cases hless : endOf 0 (Layout.slots roots 0 none) < elementEnd
    · rw [if_pos hless, minus_eq (by omega) hend hcursor (by omega)]
      simp only [hless, decide_true, Bool.true_and, gap_eq w, Option.bind_some]
      split
      · rw [carry_gap, carry_nil]
        rfl
      · rw [carry_nil]
        rfl
    · simp only [hless, if_false, decide_false, Bool.false_and, Bool.false_eq_true, carry_nil]
      rfl
  · rfl

end Plans

end Checked

/-! ## Grown trees -/

/-- No plain arithmetic operation in the layout of grown trees leaves its range: the checked
versions of `run`, `locate`, `ownWeight` and `build` return the results of the unchecked ones.
Weights, times, heights and depths are bounded by their types alone. -/
theorem layout_stays_in_range {faithful : Prop} [BEq α] [ToString α] [ToString ε]
    {roots : List (CallTree α)} (hgrown : ∀ t ∈ roots, Grown faithful (.tree t))
    (hheight : ∀ t ∈ roots, t.height ≤ Checked.maxIndex) :
    (∀ (w : RowWalk α) (elementEnd : Int), (∀ d ∈ w.depths, d ≤ Checked.maxIndex) →
      elementEnd ≤ maxTime → Checked.run w roots elementEnd =
        some (.ofWalk (w.run roots elementEnd).1, (w.run roots elementEnd).2)) ∧
    (∀ (depth : Nat) (time : Int), depth ≤ Checked.maxIndex →
      Checked.locate roots depth time = some (Layout.locate roots depth time)) ∧
    (∀ t ∈ roots, ∀ n, t.HasNode n → Checked.ownWeight n = some n.ownWeight) ∧
    ∀ (p : Profile α ε) (traceName : String) (token : Token),
      (Outline.Builder.outline p traceName token).map Prod.snd =
        some (Outline.build p traceName token) := by
  have hsound : ∀ t ∈ roots, t.Sound := fun t ht => (hgrown t ht).tended.sound
  refine ⟨fun w elementEnd hdepths hend => ?_, fun depth time hdepth => ?_, fun t ht n hn => ?_, ?_⟩
  · exact Checked.run_eq hsound hheight hdepths hend
  · exact Checked.locate_eq hsound hdepth
  · exact Checked.ownWeight_eq ((hsound t ht).of_hasNode hn)
  · exact Outline.outline_eq_build

/-- Three nodes of the greatest weight, walked to the greatest depth; the second root starts at the
end of the timeline. -/
theorem layout_stays_in_range_huge :
    let node : CallTree String := (CallTree.leaf "main" maxTime).graft (.leaf "draw" maxTime)
    let roots := [node, CallTree.leaf "wait" maxTime]
    let w : RowWalk String :=
      { depths := [0, 1, Checked.maxIndex], times := [minTime, 0, maxTime], token := .live,
        paint := { span := fun s => .gap s.start s.width } }
    (∀ t ∈ roots, Grown True (.tree t)) ∧
      Checked.run w roots maxTime = some (.ofWalk (w.run roots maxTime).1, some maxTime) ∧
      Checked.locate roots 1 0 = some (Layout.locate roots 1 0) ∧
      Checked.ownWeight node = some 0 := by
  intro node roots w
  have hgrown : ∀ t ∈ roots, Grown True (.tree t) := by
    refine List.forall_mem_cons.mpr ⟨?_, List.forall_mem_singleton.mpr ?_⟩
    · exact .graft (.leaf "main" (Int.le_refl _)) (.leaf "draw" (Int.le_refl _))
    · exact .leaf "wait" (Int.le_refl _)
  have hheight : ∀ t ∈ roots, t.height ≤ Checked.maxIndex := by decide
  obtain ⟨hrun, hlocate, hown, -⟩ :=
    layout_stays_in_range (ε := String) hgrown hheight
  refine ⟨hgrown, ?_, hlocate 1 0 (by decide), hown node List.mem_cons_self node .self⟩
  have hsound : ∀ t ∈ roots, t.Sound := fun t ht => (hgrown t ht).tended.sound
  have hlast : (w.run roots maxTime).2 = some maxTime :=
    (RowWalk.run_live hsound rfl maxTime).1.trans (congrArg some (by decide))
  rw [hrun w maxTime (by decide) (Int.le_refl _), hlast]

end StackProfile
