import Mathlib
import StackProfile.Proofs.Painting
import StackProfile.Proofs.Sheet

/-!
# Contents of rows

The row of an entry is its complete row without the cells that no time touches or a pattern at its
depth refuses, independently of the rest of the request.
-/

namespace StackProfile

open Rows (cells Paint)

variable {α ε : Type}

def Span.touched (times : List Int) (s : Span) : Bool :=
  times.any fun t => s.start ≤ t && t ≤ s.finish

def Engine.cellSpan [ToString α] (e : Engine α ε) (p : Provider α ε) : Cell α → Span
  | .node s => e.spanOf p s
  | .gap start duration => .gap start duration

/-- Whether all patterns at `depth` match the label or weight of a node. Gaps pass. -/
def Filters.allow (f : Filters) (p : Provider α ε) (depth : Nat) (c : Cell α) : Bool :=
  c.slot?.all fun s => (f.testsAt depth).all fun test =>
    test (p.display s.tree) || test (toString s.tree.weight)

section Contents

variable [ToString α] {e : Engine α ε} {p : Provider α ε} {f : Filters} {c : Cell α} {depth : Nat}
  {times : List Int} {roots : List (CallTree α)}

theorem spanOf_eq_cellSpan (c : Cell α) : Paint.spanOf ⟨e.spanOf p, f⟩ c = e.cellSpan p c := by
  cases c <;> rfl

theorem touched_cellSpan (h : c.Sound) : (e.cellSpan p c).touched times = c.touched times := by
  have hextent := Paint.extent_spanOf (Paint.faithful_spanOf e p {}) h
  rw [spanOf_eq_cellSpan] at hextent
  unfold Cell.touched
  rw [← hextent]
  rfl

theorem keeps_eq_allow (c : Cell α) :
    Paint.keeps ⟨e.spanOf p, f⟩ depth c = f.allow p depth c := by
  cases c with
  | node s =>
    have hgap := (Paint.faithful_spanOf e p f).isGap s
    simp only [Paint.keeps, Filters.accepts, hgap, Bool.false_or]
    rfl
  | gap start duration => rfl

theorem shown_eq_filter {cs : List (Cell α)} (h : ∀ c ∈ cs, c.Sound) :
    Paint.shown ⟨e.spanOf p, f⟩ depth times cs =
      (cs.filter fun c => (e.cellSpan p c).touched times && f.allow p depth c).map
        (e.cellSpan p) := by
  unfold Paint.shown
  rw [List.filter_congr fun c hc => by rw [← touched_cellSpan (h c hc), keeps_eq_allow]]
  exact List.map_congr_left fun c _ => spanOf_eq_cellSpan c

theorem pairwise_cellSpan (h : ∀ t ∈ roots, t.Sound) (depth : Nat) :
    ((cells roots depth).map (e.cellSpan p)).Pairwise
      fun a b => a.start ≤ b.start ∧ a.finish ≤ b.start := by
  have hextents := Paint.map_extent_spanOf (Paint.faithful_spanOf e p {})
    (Rows.sound_cells h depth)
  have hpair := (Rows.tiles_cells h depth).pairwise
  rw [← hextents, List.pairwise_map] at hpair
  rwa [List.map_congr_left fun c _ => spanOf_eq_cellSpan c] at hpair

end Contents

namespace Engine

variable [ToString α] [ToString ε] [DecidableEq ε] {e : Engine α ε} {id : Int} {element : ε}
  {depth : Nat}

theorem spans_eq_filter (h : e.index.Sound) (p : Provider α ε) (r : RowRequest)
    (hs : e.index.outline.shown? id = some (element, depth)) :
    e.index.spans ⟨e.spanOf p, r.filters⟩ r.times id =
      ((cells (e.index.profile.treesOf element) depth).filter fun c =>
        (e.cellSpan p c).touched r.times && r.filters.allow p depth c).map (e.cellSpan p) := by
  rw [Index.spans, hs]
  exact shown_eq_filter (Rows.sound_cells (h.profile.treesOf element) depth)

theorem pairwise_spans (h : e.index.Sound) (p : Provider α ε) (r : RowRequest)
    (hs : e.index.outline.shown? id = some (element, depth)) :
    (e.index.spans ⟨e.spanOf p, r.filters⟩ r.times id).Pairwise
      fun a b => a.start ≤ b.start ∧ a.finish ≤ b.start := by
  rw [spans_eq_filter h p r hs]
  exact (pairwise_cellSpan (h.profile.treesOf element) depth).sublist (List.filter_sublist.map _)

/-- A row depends on the set of times and the patterns at its depth only. -/
theorem spans_congr (h : e.index.Sound) (p : Provider α ε) {r r' : RowRequest}
    (hs : e.index.outline.shown? id = some (element, depth))
    (htimes : ∀ t, t ∈ r'.times ↔ t ∈ r.times)
    (htests : r'.filters.testsAt depth = r.filters.testsAt depth) :
    e.index.spans ⟨e.spanOf p, r'.filters⟩ r'.times id =
      e.index.spans ⟨e.spanOf p, r.filters⟩ r.times id := by
  rw [spans_eq_filter h p r' hs, spans_eq_filter h p r hs]
  refine congrArg (List.map _) (List.filter_congr fun c _ => ?_)
  have htouched : (e.cellSpan p c).touched r'.times = (e.cellSpan p c).touched r.times := by
    rw [Bool.eq_iff_iff]
    simp only [Span.touched, List.any_eq_true, htimes]
  have hallow : r'.filters.allow p depth c = r.filters.allow p depth c := by
    rw [Filters.allow, Filters.allow, htests]
  rw [htouched, hallow]

theorem sheet_alone (h : e.index.Sound) (p : Provider α ε)
    (hs : e.index.outline.shown? id = some (element, depth)) {times : List Int}
    (ht : ∀ c ∈ cells (e.index.profile.treesOf element) depth, (e.cellSpan p c).touched times) :
    e.sheet p { times, items := some [id] } .live =
      .ok ⟨[⟨id, (cells (e.index.profile.treesOf element) depth).map (e.cellSpan p)⟩]⟩ := by
  have hids : requestedIds e.index (some [id]) = [id] := rfl
  have hall : ∀ c ∈ cells (e.index.profile.treesOf element) depth,
      ((e.cellSpan p c).touched times && Filters.allow {} p depth c) = true := by
    intro c hc
    rw [ht c hc]
    cases c <;> rfl
  rw [sheet_live h, hids, List.map_singleton, spans_eq_filter h p _ hs,
    List.filter_eq_self.mpr hall]

/-- Pruning, filtering and batching do not change rows. A sheet has a row for each requested id, in
order: the complete row, as requested alone, without the cells that no time touches or a pattern at
the depth refuses. Rows agree between requests with the same times as a set and the same patterns at
the depth, and are sorted without overlaps. -/
theorem rows_filter_complete_rows [BEq α] [Grouping ε] (he : e.Reachable) (p : Provider α ε)
    (r : RowRequest) :
    ∃ sheet, e.sheet p r .live = .ok sheet ∧
      (∀ feed q, feed 0 = p → RowRequest.read q = .ok r →
        e.fetchRows feed q .live = respond (feed 1).analysis sheet) ∧
      (sheet.rows.map Row.entryId = match r.items with
        | some ids => ids.eraseDups
        | none => e.index.outline.entries.map Entry.id) ∧
      ∀ row ∈ sheet.rows, match e.index.outline.shown? row.entryId with
        | none => row.spans = []
        | some (element, depth) =>
          let complete := cells (e.index.profile.treesOf element) depth
          (∀ times, (∀ c ∈ complete, (e.cellSpan p c).touched times) →
            e.sheet p { times, items := some [row.entryId] } .live =
              .ok ⟨[⟨row.entryId, complete.map (e.cellSpan p)⟩]⟩) ∧
          row.spans = (complete.filter fun c =>
            (e.cellSpan p c).touched r.times && r.filters.allow p depth c).map (e.cellSpan p) ∧
          row.spans.Pairwise (fun a b => a.start ≤ b.start ∧ a.finish ≤ b.start) ∧
          ∀ r' sheet', e.sheet p r' .live = .ok sheet' → (∀ t, t ∈ r'.times ↔ t ∈ r.times) →
            r'.filters.testsAt depth = r.filters.testsAt depth →
            ∀ row' ∈ sheet'.rows, row'.entryId = row.entryId → row' = row := by
  have hi := he.index_sound
  refine ⟨_, sheet_live hi p r, ?_, ?_, ?_⟩
  · rintro feed q rfl hq
    exact fetchRows_of_sheet hq (sheet_live hi _ r)
  · rw [List.map_map]
    exact List.map_id _
  · intro row hrow
    obtain ⟨id, hid, rfl⟩ := List.mem_map.mp hrow
    cases hs : e.index.outline.shown? id with
    | none =>
      simp only [Index.spans, hs]
    | some x =>
      obtain ⟨element, depth⟩ := x
      refine ⟨fun times ht => sheet_alone hi p hs ht, spans_eq_filter hi p r hs,
        pairwise_spans hi p r hs, ?_⟩
      intro r' sheet' hsheet htimes htests row' hrow' hid'
      rw [sheet_live hi p r'] at hsheet
      cases hsheet
      obtain ⟨id', -, rfl⟩ := List.mem_map.mp hrow'
      obtain rfl : id' = id := hid'
      exact congrArg (Row.mk id') (spans_congr hi p hs htimes htests)

/-- A pattern that keeps one of two calls. -/
theorem rows_filter_complete_rows_sample :
    let r : RowRequest :=
      { times := [12, 3, 3], filters := ⟨[(0, [fun text => text == "read"])]⟩,
        items := some [3, 2, 3] }
    ∃ sheet, Sample.engine.sheet Sample.provider r .live = .ok sheet ∧
      sheet.rows.map Row.entryId = [3, 2] ∧
      ∀ row ∈ sheet.rows, row.entryId = 2 → row.spans.map Span.label = [some "read"] := by
  intro r
  obtain ⟨sheet, hsheet, -, hids, hrows⟩ :=
    rows_filter_complete_rows Sample.reachable_engine Sample.provider r
  refine ⟨sheet, hsheet, hids.trans (by decide), fun row hrow hid => ?_⟩
  have hs : Sample.engine.index.outline.shown? 2 = some (⟨"main"⟩, 0) := by cbv
  have hrow' := hrows row hrow
  rw [hid, hs] at hrow'
  rw [hrow'.2.1, List.map_map]
  cbv

end Engine

end StackProfile
