import Mathlib
import StackProfile.Proofs.Painting
import StackProfile.Proofs.Sheet

/-!
# Rows and point lookup

The span of a row at a time is that of the node found by `locate`, although rows come from a pruned
walk and lookup from a descent.
-/

namespace StackProfile

open Rows (cells Paint)
open Layout (total)

variable {α ε : Type}

namespace Engine

variable [ToString α] [ToString ε] [DecidableEq ε] {e : Engine α ε} {r : RowRequest}
  {id time : Int} {element : ε} {depth : Nat}

/-- The span at a requested time is that of the cell there. -/
theorem spanAt?_sheet (h : e.index.Sound) (p : Provider α ε) (hf : r.filters.isEmpty)
    (ht : time ∈ r.times) (hid : ∀ ids ∈ r.items, id ∈ ids)
    (hs : e.index.outline.shown? id = some (element, depth)) :
    ∃ sheet, e.sheet p r .live = .ok sheet ∧ sheet.spanAt? id time =
      ((cells (e.index.profile.treesOf element) depth).find? fun c => c.covers time).map
        (Paint.spanOf ⟨e.spanOf p, r.filters⟩) := by
  refine ⟨_, sheet_live h p r, ?_⟩
  have hrow := RowSheet.row?_map (mem_requestedIds h hid hs)
    fun id => e.index.spans ⟨e.spanOf p, r.filters⟩ r.times id
  rw [RowSheet.spanAt?, hrow, Option.bind_some, Index.spans, hs]
  exact Paint.find?_shown (Paint.faithful_spanOf e p r.filters) hf
    (Rows.sound_cells (h.profile.treesOf element) depth) ht

/-- Rows agree with lookup. At each requested time of an unfiltered request, the row has the
labelled span of the located slot, else a gap inside the timeline and nothing outside. -/
theorem rows_agree_with_lookup [BEq α] [Grouping ε] (he : e.Reachable) {feed : Feed α ε}
    (hd : (feed 0).display = CallTree.name) {q : Query} (hq : RowRequest.read q = .ok r)
    (hf : r.filters.isEmpty) (ht : time ∈ r.times) (hid : ∀ ids ∈ r.items, id ∈ ids)
    (hs : e.index.outline.shown? id = some (element, depth)) :
    ∃ sheet, e.fetchRows feed q .live = respond (feed 1).analysis sheet ∧
      match e.nodeAt? id time with
      | some n => ∃ slot s, Layout.locate (e.index.profile.treesOf element) depth time = some slot ∧
          slot.tree = n ∧ sheet.spanAt? id time = some s ∧
          s.label = some n.name ∧ s.start = slot.start ∧ s.duration = slot.width
      | none =>
        if 0 ≤ time ∧ time < total (e.index.profile.treesOf element) then
          ∃ s, sheet.spanAt? id time = some s ∧ s.isGap
        else sheet.spanAt? id time = none := by
  have hi := he.index_sound
  have hroots := hi.profile.treesOf element
  obtain ⟨sheet, hsheet, hspan⟩ := spanAt?_sheet hi (feed 0) hf ht hid hs
  refine ⟨sheet, fetchRows_of_sheet hq hsheet, ?_⟩
  have hnode : e.nodeAt? id time =
      (Layout.locate (e.index.profile.treesOf element) depth time).map Slot.tree := by
    rw [nodeAt?, hs]
    rfl
  rw [hnode, hspan]
  rcases Rows.find?_cells_cases hroots depth time with
    ⟨s, hlocate, hcell⟩ | ⟨hlocate, hin, start, duration, hcell⟩ | ⟨hlocate, hout, hcell⟩
  · have hsound := Rows.sound_cells hroots depth _ (List.mem_of_find?_eq_some hcell)
    have hwidth : max s.width 0 = s.width := Int.max_eq_left hsound.width_nonneg
    have hlabel : (feed 0).display s.tree = s.tree.name := by rw [hd]
    rw [hlocate, hcell]
    exact ⟨s, _, rfl, rfl, rfl, congrArg some hlabel, rfl, hwidth⟩
  · rw [hlocate, hcell]
    simp only [Option.map_none, if_pos hin]
    exact ⟨_, rfl, rfl⟩
  · rw [hlocate, hcell]
    simp only [Option.map_none, if_neg hout]

/-- The second call of the small session, beside the first. -/
theorem rows_agree_with_lookup_sample :
    ∃ sheet, Sample.engine.fetchRows Sample.feed ((Query.withTimes {} [3, 12]).withItems [3, 2])
        .live = .completed sheet ∧
      ∃ s, sheet.spanAt? 2 12 = some s ∧ s.label = some "read" ∧ s.start = 10 ∧ s.duration = 5 := by
  have hs : Sample.engine.index.outline.shown? 2 = some (⟨"main"⟩, 0) := by cbv
  have hnode : Sample.engine.nodeAt? 2 12 = some (.leaf ⟨"read"⟩ 5) := by cbv
  have hlocate : Layout.locate (Sample.engine.index.profile.treesOf ⟨"main"⟩) 0 12 =
      some ⟨.leaf ⟨"read"⟩ 5, 10, 5⟩ := by cbv
  let r : RowRequest := { times := [3, 12], items := some [3, 2] }
  have hdisplay : (Sample.feed 0).display = CallTree.name := rfl
  have hq : RowRequest.read ((Query.withTimes {} [3, 12]).withItems [3, 2]) = .ok r := rfl
  have ht : (12 : Int) ∈ r.times := by decide
  obtain ⟨sheet, hrows, h⟩ := rows_agree_with_lookup Sample.reachable_engine hdisplay hq rfl ht
    (by simp [r]) hs
  rw [hnode] at h
  obtain ⟨slot, s, hslot, -, hspan, hlabel, hstart, hduration⟩ := h
  rw [hlocate] at hslot
  cases hslot
  exact ⟨sheet, hrows, s, hspan, hlabel, hstart, hduration⟩

end Engine

end StackProfile
