import StackProfile.Engine
import StackProfile.Proofs.Walk

/-!
# Painting

Spans have the extents of their cells, and only gaps look like gaps.
-/

namespace StackProfile

open Rows (cells cellsBelow gapCells Paint)

variable {α ε : Type}

namespace Cell

def Sound : Cell α → Prop
  | node s => s.Sound
  | gap _ duration => 0 < duration

end Cell

namespace Rows

theorem sound_gapCells (start duration : Int) :
    ∀ c ∈ (gapCells start duration : List (Cell α)), c.Sound := by
  unfold gapCells
  split
  · next h => exact List.forall_mem_singleton.mpr h
  · exact fun _ hc => (List.not_mem_nil hc).elim

namespace Paint

/-- Spans have the extent of their slots, and a label. -/
structure Faithful (paint : Paint α) : Prop where
  start : ∀ s, (paint.span s).start = s.start
  duration : ∀ s, (paint.span s).duration = max s.width 0
  label : ∀ s, (paint.span s).label.isSome

theorem Faithful.isGap {paint : Paint α} (h : paint.Faithful) (s : Slot α) :
    (paint.span s).isGap = false := by
  have := h.label s
  simp [Span.isGap, Option.isNone_eq_false_iff.mpr this]

theorem faithful_spanOf [ToString α] (e : Engine α ε) (p : Provider α ε) (filters : Filters) :
    Faithful ⟨e.spanOf p, filters⟩ := ⟨fun _ => rfl, fun _ => rfl, fun _ => rfl⟩

section Spans

variable {paint : Paint α} {c : Cell α} {d : Nat} {times : List Int} {cs : List (Cell α)}

theorem extent_spanOf (h : paint.Faithful) (hc : c.Sound) :
    (paint.spanOf c).extent = c.extent := by
  cases c with
  | node s =>
    have hw := hc.width_nonneg
    simp only [spanOf, Span.extent, Span.finish, h.start, h.duration, Cell.extent, Slot.extent,
      Slot.finish]
    rw [Int.max_eq_left hw]
  | gap start duration =>
    have hd : 0 < duration := hc
    simp only [spanOf, Span.extent, Span.finish, Span.gap, Cell.extent]
    rw [Int.max_eq_left hd.le]

theorem covers_spanOf (h : paint.Faithful) (hc : c.Sound) (t : Int) :
    (paint.spanOf c).covers t = c.covers t := by
  have he := extent_spanOf h hc
  unfold Cell.covers
  rw [← he]
  rfl

theorem map_extent_spanOf (h : paint.Faithful) (hc : ∀ c ∈ cs, c.Sound) :
    (cs.map paint.spanOf).map Span.extent = cs.map Cell.extent := by
  rw [List.map_map]
  exact List.map_congr_left fun c hmem => extent_spanOf h (hc c hmem)

theorem keeps_of_isEmpty (h : paint.filters.isEmpty) (d : Nat) (c : Cell α) : paint.keeps d c := by
  cases c with
  | node s =>
    have hall : ∀ x ∈ paint.filters.byDepth, x.2 = [] := by
      simpa [Filters.isEmpty] using h
    have hnone : ∀ key, ((paint.filters.byDepth.lookup key).getD []) = [] := by
      intro key
      cases hl : paint.filters.byDepth.lookup key with
      | none => rfl
      | some tests =>
        obtain ⟨l₁, l₂, hsplit, -⟩ := List.lookup_eq_some_iff.mp hl
        exact hall (key, tests) (by rw [hsplit]; simp)
    simp [keeps, Filters.accepts, Filters.testsAt, hnone]
  | gap start duration => rfl

theorem find?_shown (h : paint.Faithful) (hf : paint.filters.isEmpty) (hc : ∀ c ∈ cs, c.Sound)
    {t : Int} (ht : t ∈ times) :
    (paint.shown d times cs).find? (fun s => s.covers t) =
      (cs.find? fun c => c.covers t).map paint.spanOf := by
  unfold shown
  rw [List.find?_map, List.find?_filter]
  rw [← List.head?_filter, ← List.head?_filter]
  refine congrArg (fun l => Option.map paint.spanOf l.head?) (List.filter_congr fun c hmem => ?_)
  rw [Function.comp_apply, covers_spanOf h (hc c hmem)]
  cases hcov : c.covers t with
  | false => simp
  | true => simp [Cell.touched_of_covers ht hcov, keeps_of_isEmpty hf]

theorem filter_map_spanOf (h : paint.Faithful) (cs : List (Cell α)) :
    (cs.map paint.spanOf).filter (fun s => s.label.isSome) =
      (cs.filterMap Cell.slot?).map paint.span := by
  induction cs with
  | nil => rfl
  | cons c cs ih =>
    cases c with
    | node s =>
      have hslot : (Cell.node s).slot? = some s := rfl
      have hlabel : (paint.spanOf (.node s)).label.isSome := h.label s
      rw [List.map_cons, List.filter_cons, if_pos hlabel, List.filterMap_cons_some hslot,
        List.map_cons, ih]
      rfl
    | gap start duration => exact ih

/-- Without filters, all touched cells are shown. -/
theorem shown_eq_map (hf : paint.filters.isEmpty) (ht : ∀ c ∈ cs, c.touched times) :
    paint.shown d times cs = cs.map paint.spanOf := by
  unfold shown
  rw [List.filter_eq_self.mpr fun c hc => ?_]
  rw [ht c hc, keeps_of_isEmpty hf]
  rfl

end Spans

end Paint

/-! ## The cells of a row -/

section Cells

variable [ToString α]

theorem sound_cellsBelow (depth : Nat) {s : Slot α} (h : s.Sound) :
    ∀ c ∈ cellsBelow depth s, c.Sound := by
  induction depth generalizing s with
  | zero => exact List.forall_mem_singleton.mpr h
  | succ depth ih =>
    unfold cellsBelow
    split
    · exact sound_gapCells _ _
    · intro c hc
      rcases List.mem_append.mp hc with hc | hc
      · obtain ⟨child, hchild, hc⟩ := List.mem_flatMap.mp hc
        exact ih (Layout.sound_childSlots h child hchild) c hc
      · exact sound_gapCells _ _ c hc

theorem sound_cells {roots : List (CallTree α)} (h : ∀ t ∈ roots, t.Sound) (depth : Nat) :
    ∀ c ∈ cells roots depth, c.Sound := by
  intro c hc
  obtain ⟨s, hs, hc⟩ := List.mem_flatMap.mp hc
  exact sound_cellsBelow depth (Layout.sound_rootSlots h s hs) c hc

end Cells

end Rows

end StackProfile
