import StackProfile.Proofs.Cells

/-!
# Walks and complete rows

The row read off a plan is `shown` of the complete row. Neither pruning nor the other depths of the
walk change it.
-/

namespace StackProfile

open Rows (endOf planNode plan cells cellsBelow gapCells Paint)
open Layout (childSlots touches total)

variable {α : Type}

namespace Rows.Paint

/-- Whether the filters accept a cell; gaps pass. -/
def keeps (paint : Paint α) (depth : Nat) : Cell α → Bool
  | .node s => paint.filters.accepts depth (paint.span s) s.tree.weight
  | .gap _ _ => true

def spanOf (paint : Paint α) : Cell α → Span
  | .node s => paint.span s
  | .gap start duration => .gap start duration

/-- The spans of touched and accepted cells. -/
def shown (paint : Paint α) (depth : Nat) (times : List Int) (cs : List (Cell α)) : List Span :=
  (cs.filter fun c => c.touched times && paint.keeps depth c).map paint.spanOf

variable {paint : Paint α} {d depth : Nat} {times : List Int}

@[simp] theorem shown_append (cs ds : List (Cell α)) :
    paint.shown d times (cs ++ ds) = paint.shown d times cs ++ paint.shown d times ds := by
  simp [shown]

theorem shown_flatMap {ι : Type} (l : List ι) (f : ι → List (Cell α)) :
    paint.shown d times (l.flatMap f) = l.flatMap fun i => paint.shown d times (f i) := by
  simp [shown, List.filter_flatMap, List.map_flatMap]

theorem shown_eq_nil {cs : List (Cell α)} (h : ∀ c ∈ cs, ¬ c.touched times) :
    paint.shown d times cs = [] := by
  unfold shown
  rw [List.map_eq_nil_iff, List.filter_eq_nil_iff]
  intro c hc hcond
  exact h c hc (Bool.and_eq_true_iff.mp hcond).1

/-! ## Reading off steps -/

@[simp] theorem row_nil : paint.row d [] = [] := rfl

@[simp] theorem row_append (as bs : List (Step α)) :
    paint.row d (as ++ bs) = paint.row d as ++ paint.row d bs := List.filterMap_append ..

@[simp] theorem row_poll (rest : List (Step α)) :
    paint.row d (.poll :: rest) = paint.row d rest := rfl

theorem row_flatMap {ι : Type} (l : List ι) (f : ι → List (Step α)) :
    paint.row d (l.flatMap f) = l.flatMap fun i => paint.row d (f i) := List.filterMap_flatMap ..

theorem row_node_of_ne (s : Slot α) (rest : List (Step α)) (h : d ≠ depth) :
    paint.row d (.node depth s :: rest) = paint.row d rest :=
  List.filterMap_cons_none (by simp [stepSpan?, h.symm])

theorem row_node_self {s : Slot α} (rest : List (Step α)) (h : touches times s.start s.width) :
    paint.row d (.node d s :: rest) = paint.shown d times [.node s] ++ paint.row d rest := by
  have ht : (Cell.node s).touched times := h
  cases hk : paint.filters.accepts d (paint.span s) s.tree.weight with
  | true =>
    rw [row, List.filterMap_cons_some (b := paint.span s) (by simp [stepSpan?, hk])]
    simp [shown, keeps, spanOf, ht, hk, row]
  | false =>
    rw [row, List.filterMap_cons_none (by simp [stepSpan?, hk])]
    simp [shown, keeps, ht, hk, row]

theorem row_gap_of_within {above : Option Nat} {through : Nat} {start duration : Int}
    (rest : List (Step α)) (h1 : ∀ a ∈ above, a < d) (h2 : d ≤ through)
    (h : touches times start duration) :
    paint.row d (.gap above through start duration :: rest) =
      paint.shown d times (gapCells start duration) ++ paint.row d rest := by
  have ht : (Cell.gap start duration : Cell α).touched times := h
  unfold gapCells
  split
  · next hd =>
    have hstep : paint.stepSpan? d (.gap above through start duration) =
        some (.gap start duration) := by
      cases above with
      | none => simp [stepSpan?, hd, h2]
      | some a => simp [stepSpan?, hd, h1 a rfl, h2]
    rw [row, List.filterMap_cons_some hstep]
    simp [shown, keeps, spanOf, ht, row]
  · next hd =>
    rw [row, List.filterMap_cons_none (by simp [stepSpan?, hd])]
    simp [row, shown]

theorem row_gap_of_not_within {above through : Nat} {start duration : Int} (rest : List (Step α))
    (h : ¬ (above < d ∧ d ≤ through)) :
    paint.row d (.gap (some above) through start duration :: rest) = paint.row d rest := by
  refine List.filterMap_cons_none ?_
  simp only [stepSpan?]
  rw [if_neg]
  simp only [Bool.and_eq_true, decide_eq_true_eq]
  omega

/-- Leaving out an untouched gap step shows nothing less. -/
theorem row_gap_of_touches {above : Option Nat} {through : Nat} {start duration : Int}
    (h1 : ∀ a ∈ above, a < d) (h2 : d ≤ through) :
    paint.row d (if 0 < duration && touches times start duration then
      [.gap above through start duration] else []) =
      paint.shown d times (gapCells start duration) := by
  by_cases ht : touches times start duration
  · by_cases hd : 0 < duration
    · simp only [hd, ht, decide_true, Bool.and_true, ↓reduceIte]
      rw [row_gap_of_within _ h1 h2 ht, row_nil, List.append_nil]
    · simp [hd, gapCells, shown]
  · have hg : paint.shown d times (gapCells start duration) = [] := by
      refine shown_eq_nil fun c hc => ?_
      unfold gapCells at hc
      split at hc
      · rw [List.mem_singleton.mp hc]; exact ht
      · cases hc
    simp [ht, hg]

end Rows.Paint

namespace Rows

/-! ## Rows of a walk -/

section Walk

variable [ToString α] {paint : Paint α} {s : Slot α} {d depth levels limit : Nat}
  {times : List Int} {roots : List (CallTree α)} {elementEnd : Int}

/-- The touched children, and the gap they leave in the node's width. -/
def childSteps (times : List Int) (levels depth limit : Nat) (s : Slot α) : List (Step α) :=
  let used := endOf s.start (childSlots s)
  ((childSlots s).flatMap fun c =>
    if touches times c.start c.width then planNode times levels (depth + 1) limit c else []) ++
  if 0 < s.finish - used && touches times used (s.finish - used) then
    [.gap (some depth) limit used (s.finish - used)]
  else []

theorem planNode_of_le (h : limit ≤ depth) :
    planNode times levels depth limit s = [.poll, .node depth s] := by
  cases levels with
  | zero => rfl
  | succ levels => simp only [planNode, h, ↓reduceIte]

theorem planNode_of_lt (h : depth < limit) :
    planNode times (levels + 1) depth limit s =
      .poll :: .node depth s :: .gap (some (depth + s.tree.height - 1)) limit s.start s.width ::
        childSteps times levels depth (min limit (depth + s.tree.height - 1)) s := by
  rw [planNode, if_neg (by omega)]
  rfl

theorem depth_lt_limit_of_child {c : Slot α} (hs : s.Sound) (hc : c ∈ childSlots s)
    (hl : depth < limit) : depth + 1 ≤ min limit (depth + s.tree.height - 1) := by
  have := Layout.height_lt_of_mem_childSlots hs hc
  have := (Layout.sound_childSlots hs c hc).tree.height_pos
  omega

theorem row_childSteps_eq_nil (hd : d ≤ depth ∨ limit < d)
    (hc : ∀ c ∈ childSlots s, paint.row d (planNode times levels (depth + 1) limit c) = []) :
    paint.row d (childSteps times levels depth limit s) = [] := by
  unfold childSteps
  rw [Paint.row_append, Paint.row_flatMap, List.append_eq_nil_iff, List.flatMap_eq_nil_iff]
  refine ⟨fun c hmem => ?_, ?_⟩
  · split
    · exact hc c hmem
    · rfl
  · split
    · exact Paint.row_gap_of_not_within _ (by omega)
    · rfl

/-- A subtree writes no rows outside `[depth, limit]`. -/
theorem row_planNode_of_outside (hs : s.Sound) (hd : d < depth ∨ limit < d) (hl : depth ≤ limit) :
    paint.row d (planNode times levels depth limit s) = [] := by
  have hpos := hs.tree.height_pos
  induction levels generalizing depth limit s with
  | zero => exact Paint.row_node_of_ne _ _ (by omega)
  | succ levels ih =>
    by_cases hlt : depth < limit
    · rw [planNode_of_lt hlt, Paint.row_poll, Paint.row_node_of_ne _ _ (by omega),
        Paint.row_gap_of_not_within _ (by omega)]
      refine row_childSteps_eq_nil (by omega) fun c hc => ?_
      have hc' := Layout.sound_childSlots hs c hc
      exact ih hc' (by omega) (depth_lt_limit_of_child hs hc hlt) hc'.tree.height_pos
    · rw [planNode_of_le (by omega)]
      exact Paint.row_node_of_ne _ _ (by omega)

theorem shown_cellsBelow_eq_nil (hs : s.Sound) (ht : ¬ touches times s.start s.width) (k : Nat) :
    paint.shown d times (cellsBelow k s) = [] := by
  refine Paint.shown_eq_nil fun c hc htouched => ht ?_
  obtain ⟨t, htimes, h1, h2⟩ := Cell.touched_iff.mp htouched
  have hin := mem_cellsBelow_within hs hc
  have hts : (Cell.node s).touched times :=
    Cell.touched_iff.mpr ⟨t, htimes, by simp only [Cell.extent, Slot.extent]; omega⟩
  exact hts

theorem row_planNode_of_le (ht : touches times s.start s.width) (h : limit ≤ depth) :
    paint.row depth (planNode times levels depth limit s) = paint.shown depth times [.node s] := by
  rw [planNode_of_le h, Paint.row_poll, Paint.row_node_self _ ht, Paint.row_nil, List.append_nil]

/-- A subtree writes its cells to each row it reaches. Induction on the fuel; `k` picks the steps
that count. -/
theorem row_planNode (hs : s.Sound) (ht : touches times s.start s.width) {k : Nat}
    (hk : depth + k ≤ limit) (hl : limit ≤ depth + levels) :
    paint.row (depth + k) (planNode times levels depth limit s) =
      paint.shown (depth + k) times (cellsBelow k s) := by
  have hpos := hs.tree.height_pos
  induction levels generalizing depth limit k s with
  | zero =>
    obtain rfl : k = 0 := by omega
    exact row_planNode_of_le ht hl
  | succ levels ih =>
    by_cases hlt : depth < limit
    · have hchildren := Layout.sound_childSlots hs
      have houtside : ∀ {d : Nat}, d ≤ depth ∨ min limit (depth + s.tree.height - 1) < d →
          paint.row d (childSteps times levels depth (min limit (depth + s.tree.height - 1)) s) =
            [] := fun hd =>
        row_childSteps_eq_nil hd fun c hc => row_planNode_of_outside (hchildren c hc) (by omega)
          (depth_lt_limit_of_child hs hc hlt)
      rw [planNode_of_lt hlt, Paint.row_poll]
      cases k with
      | zero =>
        rw [Nat.add_zero, Paint.row_node_self _ ht, Paint.row_gap_of_not_within _ (by omega),
          houtside (by omega), List.append_nil]
        rfl
      | succ k =>
        rw [Paint.row_node_of_ne _ _ (by omega), cellsBelow]
        split
        · -- the node does not reach down to the row: the gap over all of its width shows there
          rw [Paint.row_gap_of_within _ (fun a h => by cases h; omega) hk ht,
            houtside (by omega), List.append_nil]
        · rw [Paint.row_gap_of_not_within _ (by omega), childSteps, Paint.row_append,
            Paint.shown_append, Paint.row_flatMap, Paint.shown_flatMap,
            Paint.row_gap_of_touches (fun a h => by cases h; omega) (by omega)]
          congr 1
          refine List.flatMap_congr fun c hc => ?_
          have hc' := hchildren c hc
          split
          · next htc =>
            rw [show depth + (k + 1) = depth + 1 + k by omega]
            exact ih hc' htc (by omega) (by omega) hc'.tree.height_pos
          · next htc => rw [Paint.row_nil, shown_cellsBelow_eq_nil hc' htc]
    · obtain rfl : k = 0 := by omega
      exact row_planNode_of_le ht (by omega)

/-- A plan writes the complete row of each depth, and the gap to the element's end. -/
theorem row_plan (h : ∀ t ∈ roots, t.Sound) {deepest : Nat} (hd : d ≤ deepest) :
    paint.row d (plan times deepest roots elementEnd) =
      paint.shown d times (cells roots d ++ gapCells (total roots) (elementEnd - total roots)) := by
  have hslots := Layout.sound_rootSlots h
  unfold plan
  simp only [Layout.endOf_rootSlots h]
  rw [Paint.row_append, Paint.shown_append, Paint.row_flatMap, cells, Paint.shown_flatMap]
  congr 1
  · refine List.flatMap_congr fun s hs => ?_
    split
    · next ht =>
      have hrow : paint.row (0 + d) (planNode times deepest 0 deepest s) =
          paint.shown (0 + d) times (cellsBelow d s) :=
        row_planNode (hslots s hs) ht (by omega) (by omega)
      rwa [Nat.zero_add] at hrow
    · next ht => rw [Paint.row_nil, shown_cellsBelow_eq_nil (hslots s hs) ht]
  · have hnone : ∀ a ∈ (none : Option Nat), a < d := by simp
    rw [← Paint.row_gap_of_touches hnone hd]
    simp only [Int.sub_pos]

end Walk

end Rows

end StackProfile
