import Mathlib.Algebra.Order.BigOperators.Group.List
import Mathlib.Algebra.Order.Group.Int
import Mathlib.Algebra.Ring.Int.Defs
import StackProfile.Rows
import StackProfile.Proofs.SoundTree
import StackProfile.Proofs.Tiling

/-!
# Slots

`slotsFrom` tiles the stretch from the cursor. Without a limit it ends at the saturated sum of
weights, with one at the limit or before; children lie in the slot of their parent.
-/

namespace StackProfile

open Rows (endOf)

variable {α : Type}

/-- A sound tree in a slot in range. -/
structure Slot.Sound (s : Slot α) : Prop where
  tree : s.tree.Sound
  start_nonneg : 0 ≤ s.start
  start_le : s.start ≤ maxTime
  width_nonneg : 0 ≤ s.width

namespace Slot.Sound

variable {s : Slot α}

theorem start_le_finish (h : s.Sound) : s.start ≤ s.finish := le_satAdd h.start_le h.width_nonneg

theorem finish_le (_ : s.Sound) : s.finish ≤ maxTime := satAdd_le _ _

end Slot.Sound

namespace Rows

@[simp] theorem endOf_cons (start : Int) (s : Slot α) (rest : List (Slot α)) :
    endOf start (s :: rest) = endOf s.finish rest := by
  cases rest <;> simp [endOf, List.getLast?_cons]

end Rows

namespace Layout

/-! ## Slots from a cursor -/

section Slots

variable {limit : Option Int} {cursor width : Int} {t : CallTree α} {ts : List (CallTree α)}

/-- A width is at most the weight, and ends within the limit. -/
theorem widthAt_eq_some {w : Int} (hw : 0 ≤ w) (h : widthAt limit cursor w = some width) :
    0 ≤ width ∧ width ≤ w ∧ ∀ l ∈ limit, cursor + width ≤ l := by
  unfold widthAt at h
  split at h
  · cases h; exact ⟨hw, Int.le_refl _, by simp⟩
  · next l =>
    split at h
    · cases h
    · cases h
      refine ⟨by omega, by omega, fun m hm => ?_⟩
      cases hm; omega

theorem tree_mem_of_mem_slotsFrom {s : Slot α} (h : s ∈ slotsFrom limit cursor ts) :
    s.tree ∈ ts := by
  induction ts generalizing cursor with
  | nil => cases h
  | cons t ts ih =>
    simp only [slotsFrom] at h
    split at h
    · cases h
    · rcases List.mem_cons.mp h with rfl | h
      · exact List.mem_cons_self
      · exact List.mem_cons_of_mem _ (ih h)

theorem slotsFrom_eq_nil {l : Int} (h : l ≤ cursor) (ts : List (CallTree α)) :
    slotsFrom (some l) cursor ts = [] := by
  cases ts with
  | nil => rfl
  | cons t ts => simp only [slotsFrom, widthAt, h, ↓reduceIte]

/-- After a slot that was cut off there is none, so the cursor may advance by the width. -/
theorem slotsFrom_satAdd_weight (ht : t.Sound) (h0 : 0 ≤ cursor)
    (hl : ∀ l ∈ limit, l ≤ maxTime) (hw : widthAt limit cursor t.weight = some width) :
    slotsFrom limit (satAdd cursor t.weight) ts = slotsFrom limit (satAdd cursor width) ts := by
  have ht0 := ht.weight_nonneg
  unfold widthAt at hw
  split at hw
  · cases hw; rfl
  · next l =>
    have hl' := hl l rfl
    split at hw
    · cases hw
    · cases hw
      by_cases hcut : t.weight ≤ l - cursor
      · rw [Int.min_eq_left hcut]
      · rw [slotsFrom_eq_nil, slotsFrom_eq_nil]
        · rw [satAdd_eq_min h0 (by omega)]; omega
        · rw [satAdd_eq_min h0 ht0]; omega

theorem sound_slotsFrom (hts : ∀ t ∈ ts, t.Sound) (h0 : 0 ≤ cursor) (h1 : cursor ≤ maxTime) :
    ∀ s ∈ slotsFrom limit cursor ts, s.Sound := by
  induction ts generalizing cursor with
  | nil => simp [slotsFrom]
  | cons t ts ih =>
    have ht := hts t List.mem_cons_self
    simp only [slotsFrom]
    split
    · simp
    · next width hw =>
      exact List.forall_mem_cons.mpr ⟨⟨ht, h0, h1, (widthAt_eq_some ht.weight_nonneg hw).1⟩,
        ih (fun u hu => hts u (List.mem_cons_of_mem _ hu)) (satAdd_nonneg h0 ht.weight_nonneg)
          (satAdd_le _ _)⟩

/-- Slots tile the stretch up to the last one. -/
theorem tiles_slotsFrom (hts : ∀ t ∈ ts, t.Sound) (h0 : 0 ≤ cursor) (h1 : cursor ≤ maxTime)
    (hl : ∀ l ∈ limit, l ≤ maxTime) :
    Tiles cursor ((slotsFrom limit cursor ts).map Slot.extent)
      (endOf cursor (slotsFrom limit cursor ts)) := by
  induction ts generalizing cursor with
  | nil => rfl
  | cons t ts ih =>
    have ht := hts t List.mem_cons_self
    simp only [slotsFrom]
    split
    · rfl
    · next width hw =>
      have hw0 := (widthAt_eq_some ht.weight_nonneg hw).1
      rw [slotsFrom_satAdd_weight ht h0 hl hw, Rows.endOf_cons]
      exact ⟨rfl, le_satAdd h1 hw0, ih (fun u hu => hts u (List.mem_cons_of_mem _ hu))
        (satAdd_nonneg h0 hw0) (satAdd_le _ _)⟩

theorem endOf_slotsFrom_le {l : Int} (hts : ∀ t ∈ ts, t.Sound) (h0 : 0 ≤ cursor)
    (hc : cursor ≤ l) (hl : l ≤ maxTime) : endOf cursor (slotsFrom (some l) cursor ts) ≤ l := by
  induction ts generalizing cursor with
  | nil => exact hc
  | cons t ts ih =>
    have ht := hts t List.mem_cons_self
    simp only [slotsFrom]
    split
    · exact hc
    · next width hw =>
      obtain ⟨hw0, -, hwl⟩ := widthAt_eq_some ht.weight_nonneg hw
      have hfin : satAdd cursor width ≤ l := by
        rw [satAdd_eq_min h0 hw0]
        have := hwl l rfl
        omega
      rw [slotsFrom_satAdd_weight ht h0 (fun _ h => by cases h; exact hl) hw, Rows.endOf_cons]
      exact ih (fun u hu => hts u (List.mem_cons_of_mem _ hu)) (satAdd_nonneg h0 hw0) hfin

theorem endOf_slotsFrom_none (hts : ∀ t ∈ ts, t.Sound) (h0 : 0 ≤ cursor) (h1 : cursor ≤ maxTime) :
    endOf cursor (slotsFrom none cursor ts) =
      min maxTime (cursor + (ts.map CallTree.weight).sum) := by
  induction ts generalizing cursor with
  | nil => simp [slotsFrom, Rows.endOf]; omega
  | cons t ts ih =>
    have ht := (hts t List.mem_cons_self).weight_nonneg
    have hrest : ∀ u ∈ ts, u.Sound := fun u hu => hts u (List.mem_cons_of_mem _ hu)
    have hsum : 0 ≤ (ts.map CallTree.weight).sum := List.sum_nonneg (CallTree.weights_nonneg hrest)
    simp only [slotsFrom, widthAt, Rows.endOf_cons, Slot.finish]
    rw [ih hrest (satAdd_nonneg h0 ht) (satAdd_le _ _), satAdd_eq_min h0 ht]
    simp only [List.map_cons, List.sum_cons]
    omega

end Slots

/-! ## Roots and children -/

/-- The end of the timeline: the saturated sum of weights. -/
def total (roots : List (CallTree α)) : Int := min maxTime (roots.map CallTree.weight).sum

section Placement

variable [ToString α] {roots : List (CallTree α)} {s c : Slot α}

theorem ordered_perm (ts : List (CallTree α)) : (ordered ts).Perm ts := List.mergeSort_perm ..

theorem mem_ordered {t : CallTree α} {ts : List (CallTree α)} : t ∈ ordered ts ↔ t ∈ ts :=
  (ordered_perm ts).mem_iff

theorem sound_ordered {ts : List (CallTree α)} (h : ∀ t ∈ ts, t.Sound) :
    ∀ t ∈ ordered ts, t.Sound := fun t ht => h t (mem_ordered.mp ht)

theorem sound_rootSlots (h : ∀ t ∈ roots, t.Sound) : ∀ s ∈ slots roots 0 none, s.Sound :=
  sound_slotsFrom (sound_ordered h) (Int.le_refl 0) maxTime_pos.le

theorem endOf_rootSlots (h : ∀ t ∈ roots, t.Sound) :
    endOf 0 (slots roots 0 none) = total roots := by
  unfold slots total
  rw [endOf_slotsFrom_none (sound_ordered h) (Int.le_refl 0) maxTime_pos.le, Int.zero_add,
    ((ordered_perm roots).map CallTree.weight).sum_eq]

theorem tiles_rootSlots (h : ∀ t ∈ roots, t.Sound) :
    Tiles 0 ((slots roots 0 none).map Slot.extent) (total roots) := by
  rw [← endOf_rootSlots h]
  exact tiles_slotsFrom (sound_ordered h) (Int.le_refl 0) maxTime_pos.le (by simp)

theorem total_nonneg (h : ∀ t ∈ roots, t.Sound) : 0 ≤ total roots := (tiles_rootSlots h).le

theorem sound_childSlots (h : s.Sound) : ∀ c ∈ childSlots s, c.Sound :=
  sound_slotsFrom (sound_ordered h.tree.children) h.start_nonneg h.start_le

theorem tiles_childSlots (h : s.Sound) :
    Tiles s.start ((childSlots s).map Slot.extent) (endOf s.start (childSlots s)) :=
  tiles_slotsFrom (sound_ordered h.tree.children) h.start_nonneg h.start_le fun _ hl => by
    cases hl; exact h.finish_le

theorem endOf_childSlots_le (h : s.Sound) : endOf s.start (childSlots s) ≤ s.finish :=
  endOf_slotsFrom_le (sound_ordered h.tree.children) h.start_nonneg h.start_le_finish h.finish_le

theorem mem_children_of_mem_childSlots (hc : c ∈ childSlots s) : c.tree ∈ s.tree.children :=
  mem_ordered.mp (tree_mem_of_mem_slotsFrom hc)

theorem height_lt_of_mem_childSlots (h : s.Sound) (hc : c ∈ childSlots s) :
    c.tree.height < s.tree.height := h.tree.height_lt (mem_children_of_mem_childSlots hc)

end Placement

/-! ## Lookup by time -/

section Lookup

variable [ToString α] {time : Int} {level : List (Slot α)}

theorem locateIn_eq_none {depth : Nat} (hs : ∀ s ∈ level, s.Sound)
    (hh : ∀ s ∈ level, s.tree.height ≤ depth) : locateIn time depth level = none := by
  induction depth generalizing level with
  | zero =>
    refine List.find?_eq_none.mpr fun s hmem => ?_
    have := (hs s hmem).tree.height_pos
    have := hh s hmem
    omega
  | succ depth ih =>
    simp only [locateIn]
    cases hf : level.find? fun s => s.covers time with
    | none => rfl
    | some s =>
      have hmem := List.mem_of_find?_eq_some hf
      refine ih (sound_childSlots (hs s hmem)) fun c hc => ?_
      have := height_lt_of_mem_childSlots (hs s hmem) hc
      have := hh s hmem
      omega

end Lookup

end Layout

end StackProfile
