import Mathlib
import StackProfile.Proofs.OutlineIndex
import StackProfile.Proofs.RowTiling
import StackProfile.Proofs.UncutSlots

/-!
# Uncut rows

A request for everything on covering trees in range shows each node of positive weight in full
width, inside its parent.
-/

namespace StackProfile

open CallTree (nodesAt)
open Layout (Fits slotsAt startAt total)
open Rows (Paint cells)

variable {α ε : Type}

/-- All entries, every moment of the trace, no filters. -/
structure RowRequest.AsksAll (r : RowRequest) (o : Outline ε) : Prop where
  unfiltered : r.filters.isEmpty
  items : ∀ ids ∈ r.items, ∀ x ∈ o.entries, x.id ∈ ids
  times : ∀ x ∈ o.entries, x.kind = .trace → ∀ t, 0 ≤ t → t ≤ x.finish → t ∈ r.times

def Row.states (r : Row) : List Span := r.spans.filter fun s => s.label.isSome

/-- The sheet shows all nodes of positive weight: a path has at most one node, a depth has one entry
and one row, and the states of a row are the nodes at its depth, each once and as wide as it weighs,
from `start`, inside its parent. -/
structure Engine.ShowsNodes [BEq α] [ToString α] [DecidableEq ε] (e : Engine α ε) (p : Provider α ε)
    (start : ε → List α → Int) (sheet : RowSheet) : Prop where
  alone : ∀ element path, (nodesAt path (e.index.profile.treesOf element)).length ≤ 1
  entry : ∀ element path, nodesAt path (e.index.profile.treesOf element) ≠ [] →
    ∃! id, e.index.outline.shown? id = some (element, path.length - 1)
  rows : (sheet.rows.map Row.entryId).Nodup
  states : ∀ id element depth, e.index.outline.shown? id = some (element, depth) →
    ∃ row, sheet.row? id = some row ∧ ∃ ns : List (List α × CallTree α), (ns.map Prod.fst).Nodup ∧
      (∀ x ∈ ns, x.1.length = depth + 1 ∧ x.2 ∈ nodesAt x.1 (e.index.profile.treesOf element)) ∧
      (∀ path n, path.length = depth + 1 → n ∈ nodesAt path (e.index.profile.treesOf element) →
        0 < n.weight → (path, n) ∈ ns) ∧
      row.states = ns.map fun x => e.spanOf p ⟨x.2, start element x.1, x.2.weight⟩
  blank : ∀ row ∈ sheet.rows, e.index.outline.shown? row.entryId = none → row.spans = []
  inside : ∀ element path f n, path ≠ [] →
    n ∈ nodesAt (path ++ [f]) (e.index.profile.treesOf element) → 0 < n.weight →
      ∃ m ∈ nodesAt path (e.index.profile.treesOf element), n ∈ m.children ∧
        start element path ≤ start element (path ++ [f]) ∧
        start element (path ++ [f]) + n.weight ≤ start element path + m.weight

/-! ## The states of a row -/

section States

variable [BEq α] [LawfulBEq α] [ToString α] {roots : List (CallTree α)}

/-- The nodes at a depth that have a slot, with their paths. -/
def placedAt (roots : List (CallTree α)) (depth : Nat) : List (List α × CallTree α) :=
  (slotsAt roots depth).map fun x => (x.1, x.2.tree)

theorem nodup_placedAt (h : Fits roots) (depth : Nat) :
    ((placedAt roots depth).map Prod.fst).Nodup := by
  rw [placedAt, List.map_map]
  exact h.nodup_slotsAt depth

theorem mem_nodesAt_of_mem_placedAt (h : Fits roots) {depth : Nat} :
    ∀ x ∈ placedAt roots depth, x.1.length = depth + 1 ∧ x.2 ∈ nodesAt x.1 roots :=
  List.forall_mem_map.mpr fun _ hx => (h.mem_slotsAt hx).2

theorem mem_placedAt (h : Fits roots) {depth : Nat} {path : List α} {n : CallTree α}
    (hlength : path.length = depth + 1) (hn : n ∈ nodesAt path roots) (hpos : 0 < n.weight) :
    (path, n) ∈ placedAt roots depth := by
  obtain ⟨s, hs, rfl⟩ := h.exists_slotAt hn hpos hlength
  exact List.mem_map.mpr ⟨_, hs, rfl⟩

theorem states_eq_map (h : Fits roots) {paint : Paint α} (hp : paint.Faithful) (id : Int)
    (depth : Nat) : Row.states ⟨id, (cells roots depth).map paint.spanOf⟩ =
      (placedAt roots depth).map fun x => paint.span ⟨x.2, startAt roots x.1, x.2.weight⟩ := by
  rw [Row.states, Paint.filter_map_spanOf hp, Rows.filterMap_slot?_cells h.sound, placedAt,
    List.map_map, List.map_map]
  refine List.map_congr_left fun x hx => ?_
  simp only [Function.comp_apply, h.startAt_eq hx, ← (h.mem_slotsAt hx).1.width_eq]

end States

namespace Engine

/-! ## Entries -/

section Entries

variable [ToString α] [ToString ε]

theorem nodup_eraseDups {β : Type} [BEq β] [LawfulBEq β] (l : List β) : l.eraseDups.Nodup := by
  -- by induction on the length, since the rest is filtered before it is gone through
  induction hn : l.length using Nat.strong_induction_on generalizing l with
  | _ n ih =>
    cases l with
    | nil => exact List.nodup_nil
    | cons b l =>
      have hrest : (l.filter fun c => !c == b).length < n := by
        have hle := List.length_filter_le (fun c => !c == b) l
        rw [List.length_cons] at hn
        omega
      rw [List.eraseDups_cons]
      refine List.nodup_cons.mpr ⟨fun hb => ?_, ih _ hrest _ rfl⟩
      simpa using (List.mem_filter.mp (List.mem_eraseDups.mp hb)).2

theorem nodup_requestedIds {i : Index α ε} {traceName : String}
    (ho : i.outline = Outline.of i.profile traceName) (items : Option (List Int)) :
    (requestedIds i items).Nodup := by
  cases items with
  | some ids => exact nodup_eraseDups ids
  | none =>
    have hids := Outline.nodup_ids i.profile traceName
    rw [requestedIds, ho, Outline.of, List.map_map]
    exact hids

variable [DecidableEq ε] {p : Profile α ε}

theorem exists_shown_of_mem_nodesAt [BEq α] (h : p.Sound) (traceName : String) {element : ε}
    {path : List α} (hn : nodesAt path (p.treesOf element) ≠ []) :
    ∃ id, (Outline.of p traceName).shown? id = some (element, path.length - 1) := by
  obtain ⟨level, hindex⟩ := Outline.indexes_of h.distinct traceName
  obtain ⟨n, hn⟩ := List.exists_mem_of_ne_nil _ hn
  have hsound := h.treesOf element
  obtain ⟨t, ht, hle⟩ := CallTree.length_le_height hsound hn
  have hknown : element ∈ p.elements := by
    by_contra hnot
    rw [Profile.treesOf_of_not_mem hnot] at ht
    cases ht
  have hmax : t.height ≤ ((p.treesOf element).map CallTree.height).max?.getD 0 :=
    List.le_max?_getD_of_mem (List.mem_map_of_mem ht)
  have hpos := (hsound t ht).height_pos
  exact hindex.exists_shown hknown (by omega)

end Entries

/-! ## Sheets -/

section Sheet

variable [BEq α] [LawfulBEq α] [ToString α] [ToString ε] [DecidableEq ε] {e : Engine α ε}
  {traceName : String} {r : RowRequest}

omit [BEq α] [LawfulBEq α] in
theorem touched_of_asksAll (h : e.index.Sound)
    (ho : e.index.outline = Outline.of e.index.profile traceName)
    (hr : r.AsksAll e.index.outline) {element : ε} (he : element ∈ e.index.profile.elements)
    (depth : Nat) : ∀ c ∈ cells (e.index.profile.treesOf element) depth, c.touched r.times := by
  have htotal := Outline.total_le_forestEnd h.profile he
  refine touched_of_tiles (Rows.tiles_cells (h.profile.treesOf element) depth) fun t h0 h1 => ?_
  have hentries := hr.times
  rw [ho] at hentries
  exact hentries _ List.mem_cons_self rfl t h0 (h1.trans htotal)

/-- If all trees fit, a request for everything shows all nodes. -/
theorem sheet_showsNodes (h : e.index.Sound)
    (ho : e.index.outline = Outline.of e.index.profile traceName)
    (hfits : ∀ element, Fits (e.index.profile.treesOf element)) (hr : r.AsksAll e.index.outline)
    (p : Provider α ε) : ∃ sheet, e.sheet p r .live = .ok sheet ∧
      e.ShowsNodes p (fun element => startAt (e.index.profile.treesOf element)) sheet := by
  obtain ⟨level, hindex⟩ := Outline.indexes_of h.profile.distinct traceName
  rw [← ho] at hindex
  refine ⟨_, sheet_live h p r, ?_, ?_, ?_, ?_, ?_, ?_⟩
  · exact fun element path => CallTree.length_nodesAt_le path (hfits element).distinct
  · intro element path hn
    obtain ⟨id, hid⟩ := exists_shown_of_mem_nodesAt h.profile traceName hn
    rw [← ho] at hid
    exact ⟨id, hid, fun id' hid' => h.shown?_injective hid' hid⟩
  · rw [List.map_map]
    exact (nodup_requestedIds ho r.items).map fun _ _ heq => heq
  · intro id element depth hid
    obtain ⟨hknown, x, hx, rfl, -⟩ := (hindex.shown_iff id element depth).mp hid
    have hasked : x.id ∈ requestedIds e.index r.items :=
      mem_requestedIds h (fun ids hids => hr.items ids hids x hx) hid
    have hspans : e.index.spans ⟨e.spanOf p, r.filters⟩ r.times x.id =
        (cells (e.index.profile.treesOf element) depth).map
          (Paint.spanOf ⟨e.spanOf p, r.filters⟩) := by
      rw [Index.spans, hid]
      exact Paint.shown_eq_map hr.unfiltered (touched_of_asksAll h ho hr hknown depth)
    refine ⟨_, RowSheet.row?_map hasked _, placedAt (e.index.profile.treesOf element) depth,
      nodup_placedAt (hfits element) depth, mem_nodesAt_of_mem_placedAt (hfits element),
      fun path n => mem_placedAt (hfits element), ?_⟩
    rw [hspans]
    exact states_eq_map (hfits element) (Paint.faithful_spanOf e p r.filters) x.id depth
  · intro row hrow hid
    obtain ⟨id, -, rfl⟩ := List.mem_map.mp hrow
    simp only at hid
    simp only [Index.spans, hid]
  · exact fun element path f n hp hn hpos => (hfits element).startAt_inside hp hn hpos

end Sheet

end Engine

end StackProfile
