import Mathlib
import StackProfile.Proofs.Painting
import StackProfile.Proofs.Sheet

/-!
# Rows tile the timeline

With times that touch everything and no filters, rows tile `[0, end)` at every depth.
-/

namespace StackProfile

open Rows (cells gapCells Paint)
open Layout (total)

variable {α ε : Type}

/-- Spans tile `[0, finish)`, with no empty gap. -/
structure CoversTimeline (row : List Span) (finish : Int) : Prop where
  tiles : Tiles 0 (row.map Span.extent) finish
  gaps : ∀ s ∈ row, s.isGap → 0 < s.duration
  nonempty : 0 < finish → row ≠ []

section Painted

variable {paint : Paint α} {cs : List (Cell α)} {d : Nat} {times : List Int} {finish : Int}

theorem coversTimeline_map (hp : paint.Faithful) (hc : ∀ c ∈ cs, c.Sound)
    (ht : Tiles 0 (cs.map Cell.extent) finish) : CoversTimeline (cs.map paint.spanOf) finish where
  tiles := by
    rw [Paint.map_extent_spanOf hp hc]
    exact ht
  gaps := by
    intro s hs hgap
    obtain ⟨c, hmem, rfl⟩ := List.mem_map.mp hs
    cases c with
    | node s => rw [Paint.spanOf, hp.isGap] at hgap; cases hgap
    | gap start duration =>
      have hd : 0 < duration := hc _ hmem
      exact Int.lt_of_lt_of_le hd (Int.le_max_left ..)
  nonempty := by
    rintro hpos hnil
    obtain rfl := List.map_eq_nil_iff.mp hnil
    have h0 : 0 = finish := ht
    omega

theorem touched_of_tiles (ht : Tiles 0 (cs.map Cell.extent) finish)
    (hall : ∀ t, 0 ≤ t → t ≤ finish → t ∈ times) : ∀ c ∈ cs, c.touched times := by
  intro c hc
  have hin := ht.mem_within (List.mem_map_of_mem hc)
  exact Cell.touched_iff.mpr ⟨c.extent.1, hall _ hin.1 (by omega), by omega, hin.2.1⟩

theorem coversTimeline_shown (hp : paint.Faithful) (hf : paint.filters.isEmpty)
    (hc : ∀ c ∈ cs, c.Sound) (ht : Tiles 0 (cs.map Cell.extent) finish)
    (hall : ∀ t, 0 ≤ t → t ≤ finish → t ∈ times) :
    CoversTimeline (paint.shown d times cs) finish := by
  rw [Paint.shown_eq_map hf (touched_of_tiles ht hall)]
  exact coversTimeline_map hp hc ht

end Painted

namespace RowWalk

variable [ToString α] {w : RowWalk α} {roots : List (CallTree α)}

omit [ToString α] in
theorem lookup_rows {d : Nat} (hd : d ∈ w.depths) :
    w.rows.lookup d = some (w.paint.row d w.done) := by
  have hmem : d ∈ w.depths.mergeSort.eraseDups := by
    rw [List.mem_eraseDups, List.mem_mergeSort]
    exact hd
  unfold rows
  generalize w.depths.mergeSort.eraseDups = ds at hmem ⊢
  induction ds with
  | nil => cases hmem
  | cons n ns ih =>
    rw [List.map_cons, List.lookup_cons]
    by_cases hn : d = n
    · simp [hn]
    · simp only [beq_eq_false_iff_ne.mpr hn]
      exact ih ((List.mem_cons.mp hmem).resolve_left hn)

/-- A live run appends its cells and ends at `total`. -/
theorem run_live (h : ∀ t ∈ roots, t.Sound) (hlive : w.token = .live) (elementEnd : Int) :
    (w.run roots elementEnd).2 = some (total roots) ∧
      ∀ d ∈ w.depths, (w.run roots elementEnd).1.rows.lookup d =
        some (w.paint.row d w.done ++ w.paint.shown d w.times
          (cells roots d ++ gapCells (total roots) (elementEnd - total roots))) := by
  have hdone := Rows.carryOut_live w.depths.contains w.progress
    (Rows.plan w.times (Rows.deepestOf w.depths) roots elementEnd)
  rw [← hlive] at hdone
  constructor
  · simp only [run, hdone.2, if_true]
    rw [Layout.endOf_rootSlots h]
  · intro d hd
    rw [lookup_rows (w := (w.run roots elementEnd).1) hd]
    simp only [run, hdone.1]
    rw [Paint.row_append, Rows.row_plan h (Rows.le_deepestOf hd)]

end RowWalk

theorem tiles_padded [ToString α] {roots : List (CallTree α)} (h : ∀ t ∈ roots, t.Sound)
    {elementEnd : Int} (hend : elementEnd ≤ maxTime) (d : Nat) :
    Tiles 0 ((cells roots d ++ gapCells (total roots) (elementEnd - total roots)).map Cell.extent)
      (max (total roots) elementEnd) := by
  have hcells := Rows.tiles_cells h d
  rw [List.map_append]
  refine hcells.append ?_
  by_cases hle : total roots ≤ elementEnd
  · rw [Int.max_eq_right hle]
    exact Rows.tiles_gapCells_sub hcells.le hle hend
  · rw [Int.max_eq_left (by omega), gapCells, if_neg (by omega)]
    rfl

/-- Rows tile the timeline. Each requested depth of a run covers it up to `total`, or the
element's end if later; in an engine's answer the rows of an element end at `total`, for any
subset of its entries. -/
theorem rows_tile_timeline [ToString α] [ToString ε] [BEq α] [Grouping ε] [DecidableEq ε] :
    (∀ (e : Engine α ε) (p : Provider α ε) (filters : Filters) (depths : List Nat)
      (times : List Int) (roots : List (CallTree α)) (elementEnd : Int),
      (∀ t ∈ roots, t.Sound) → elementEnd ≤ maxTime → filters.isEmpty →
      (∀ t, 0 ≤ t → t ≤ max (total roots) elementEnd → t ∈ times) →
      let w : RowWalk α := { depths, times, token := .live, paint := ⟨e.spanOf p, filters⟩ }
      (w.run roots elementEnd).2 = some (total roots) ∧
        ∀ d ∈ depths, ∃ row, (w.run roots elementEnd).1.rows.lookup d = some row ∧
          CoversTimeline row (max (total roots) elementEnd)) ∧
    (∀ (e : Engine α ε) (feed : Feed α ε) (q : Query) (r : RowRequest) (element : ε),
      e.Reachable → RowRequest.read q = .ok r → r.filters.isEmpty →
      (∀ t, 0 ≤ t → t ≤ total (e.index.profile.treesOf element) → t ∈ r.times) →
      ∃ sheet, e.fetchRows feed q .live = Engine.respond (feed 1).analysis sheet ∧
        ∀ id depth, e.index.outline.shown? id = some (element, depth) →
          (∀ ids ∈ r.items, id ∈ ids) →
          ∃ row, sheet.row? id = some row ∧
            CoversTimeline row.spans (total (e.index.profile.treesOf element))) := by
  constructor
  · intro e p filters depths times roots elementEnd hroots hend hf hall w
    obtain ⟨hfinish, hrows⟩ := RowWalk.run_live (w := w) hroots rfl elementEnd
    refine ⟨hfinish, fun d hd => ⟨_, hrows d hd, ?_⟩⟩
    refine coversTimeline_shown (Paint.faithful_spanOf e p filters) hf (fun c hc => ?_)
      (tiles_padded hroots hend d) hall
    rcases List.mem_append.mp hc with hc | hc
    · exact Rows.sound_cells hroots d c hc
    · exact Rows.sound_gapCells _ _ c hc
  · intro e feed q r element he hq hf hall
    have hi := he.index_sound
    have hroots := hi.profile.treesOf element
    refine ⟨_, Engine.fetchRows_of_sheet hq (Engine.sheet_live hi (feed 0) r),
      fun id depth hs hid => ⟨_, RowSheet.row?_map (Engine.mem_requestedIds hi hid hs) _, ?_⟩⟩
    rw [Index.spans, hs]
    exact coversTimeline_shown (Paint.faithful_spanOf e (feed 0) r.filters) hf
      (Rows.sound_cells hroots depth) (Rows.tiles_cells hroots depth) hall

/-- The small session at every moment: a walk padded to 17, and the second depth in an answer. -/
theorem rows_tile_timeline_sample :
    let times := (List.range 18).map Int.ofNat
    let w : RowWalk Frame :=
      { depths := [4, 0], times, token := .live,
        paint := ⟨Sample.engine.spanOf Sample.provider, {}⟩ }
    (∀ d ∈ [4, 0], ∃ row,
        (w.run (Sample.profile.treesOf ⟨"main"⟩) 17).1.rows.lookup d = some row ∧
          CoversTimeline row 17) ∧
      ∃ sheet,
        Sample.engine.fetchRows Sample.feed ((Query.withTimes {} times).withItems [3]) .live =
          .completed sheet ∧
        ∃ row, sheet.row? 3 = some row ∧ CoversTimeline row.spans 15 := by
  intro times w
  have htimes : ∀ t, 0 ≤ t → t ≤ 17 → t ∈ times := by
    intro t h0 h1
    exact List.mem_map.mpr ⟨t.toNat, List.mem_range.mpr (by omega), Int.toNat_of_nonneg h0⟩
  obtain ⟨hwalk, hanswer⟩ := rows_tile_timeline (α := Frame) (ε := Frame)
  constructor
  · have htotal : max (total (Sample.profile.treesOf ⟨"main"⟩)) 17 = 17 := by cbv
    have hroots : ∀ t ∈ Sample.profile.treesOf ⟨"main"⟩, t.Sound :=
      Sample.sound_provider.profile.treesOf ⟨"main"⟩
    obtain ⟨-, hrows⟩ := hwalk Sample.engine Sample.provider {} [4, 0] times _ 17 hroots
      (by decide) rfl (htotal ▸ htimes)
    rwa [htotal] at hrows
  · let r : RowRequest := { times, items := some [3] }
    have hq : RowRequest.read ((Query.withTimes {} times).withItems [3]) = .ok r := rfl
    have hs : Sample.engine.index.outline.shown? 3 = some (⟨"main"⟩, 1) := by cbv
    have htotal : total (Sample.engine.index.profile.treesOf ⟨"main"⟩) = 15 := by cbv
    obtain ⟨sheet, hsheet, hrows⟩ := hanswer Sample.engine Sample.feed _ r ⟨"main"⟩
      Sample.reachable_engine hq rfl fun t h0 h1 => htimes t h0 (by omega)
    rw [htotal] at hrows
    exact ⟨sheet, hsheet, hrows 3 1 hs (by simp [r])⟩

end StackProfile
