import StackProfile.Proofs.Slots

/-!
# Complete rows

`cells roots d` is the row of depth `d` without times and filters, by recursion on the depth. It
tiles `[0, total roots)`, and the cell at a time is that of `locate`.
-/

namespace StackProfile

open Rows (endOf)
open Layout (childSlots locateIn total)

variable {α : Type}

/-- A piece of a row: a positioned node, or a gap with start and duration. -/
inductive Cell (α : Type) where
  | node (s : Slot α)
  | gap (start duration : Int)

namespace Cell

def extent : Cell α → Int × Int
  | node s => s.extent
  | gap start duration => (start, satAdd start duration)

def slot? : Cell α → Option (Slot α)
  | node s => some s
  | gap _ _ => none

/-- Whether `time` lies in the half-open extent. -/
def covers (c : Cell α) (time : Int) : Bool := c.extent.1 ≤ time && time < c.extent.2

/-- Whether one of `times` lies in the closed extent. -/
def touched (times : List Int) (c : Cell α) : Bool :=
  times.any fun t => c.extent.1 ≤ t && t ≤ c.extent.2

theorem covers_iff {c : Cell α} {time : Int} :
    c.covers time ↔ c.extent.1 ≤ time ∧ time < c.extent.2 := by simp [covers]

theorem touched_iff {times : List Int} {c : Cell α} :
    c.touched times ↔ ∃ t ∈ times, c.extent.1 ≤ t ∧ t ≤ c.extent.2 := by simp [touched]

theorem touched_of_covers {times : List Int} {c : Cell α} {time : Int} (ht : time ∈ times)
    (h : c.covers time) : c.touched times := by
  have := covers_iff.mp h
  exact touched_iff.mpr ⟨time, ht, by omega, by omega⟩

end Cell

namespace Rows

def gapCells (start duration : Int) : List (Cell α) :=
  if 0 < duration then [.gap start duration] else []

/-- The cells under a slot, `depth` levels below it; one gap where the tree ends above. -/
def cellsBelow [ToString α] : Nat → Slot α → List (Cell α)
  | 0, s => [.node s]
  | depth + 1, s =>
    if s.tree.height ≤ depth + 1 then gapCells s.start s.width
    else
      let used := endOf s.start (childSlots s)
      (childSlots s).flatMap (cellsBelow depth) ++ gapCells used (s.finish - used)

def cells [ToString α] (roots : List (CallTree α)) (depth : Nat) : List (Cell α) :=
  (Layout.slots roots 0 none).flatMap (cellsBelow depth)

/-! ## Tiling -/

theorem tiles_gapCells {start duration : Int} (h0 : 0 ≤ start) (h1 : start ≤ maxTime)
    (hd : 0 ≤ duration) :
    Tiles start ((gapCells start duration : List (Cell α)).map Cell.extent)
      (satAdd start duration) := by
  unfold gapCells
  split
  · exact ⟨rfl, le_satAdd h1 hd, rfl⟩
  · obtain rfl : duration = 0 := by omega
    exact (satAdd_zero h0 h1).symm

theorem tiles_gapCells_sub {a b : Int} (h0 : 0 ≤ a) (hab : a ≤ b) (hb : b ≤ maxTime) :
    Tiles a ((gapCells a (b - a) : List (Cell α)).map Cell.extent) b := by
  have h : Tiles a ((gapCells a (b - a) : List (Cell α)).map Cell.extent) (satAdd a (b - a)) :=
    tiles_gapCells h0 (by omega) (by omega)
  rwa [satAdd_of_le (by omega) (by omega), show a + (b - a) = b by omega] at h

theorem slot?_find?_gapCells (start duration : Int) (p : Cell α → Bool) :
    ((gapCells start duration).find? p).bind Cell.slot? = none := by
  unfold gapCells
  split
  · rw [List.find?_singleton]; split <;> rfl
  · rfl

section Rows

variable [ToString α] {s : Slot α} {level : List (Slot α)} {roots : List (CallTree α)}
  {time : Int}

theorem tiles_cellsBelow (depth : Nat) (h : s.Sound) :
    Tiles s.start ((cellsBelow depth s).map Cell.extent) s.finish := by
  induction depth generalizing s with
  | zero => exact ⟨rfl, h.start_le_finish, rfl⟩
  | succ depth ih =>
    simp only [cellsBelow]
    split
    · exact tiles_gapCells h.start_nonneg h.start_le h.width_nonneg
    · have hchildren := Layout.tiles_childSlots h
      have h0 := h.start_nonneg
      have hstart := hchildren.le
      rw [List.map_append, List.map_flatMap]
      refine (hchildren.flatMap fun c hc => ih (Layout.sound_childSlots h c hc)).append ?_
      exact tiles_gapCells_sub (by omega) (Layout.endOf_childSlots_le h) h.finish_le

theorem mem_cellsBelow_within {depth : Nat} {c : Cell α} (h : s.Sound)
    (hc : c ∈ cellsBelow depth s) :
    s.start ≤ c.extent.1 ∧ c.extent.1 ≤ c.extent.2 ∧ c.extent.2 ≤ s.finish :=
  (tiles_cellsBelow depth h).mem_within (List.mem_map_of_mem hc)

theorem tiles_cells (h : ∀ t ∈ roots, t.Sound) (depth : Nat) :
    Tiles 0 ((cells roots depth).map Cell.extent) (total roots) := by
  unfold cells
  rw [List.map_flatMap]
  exact (Layout.tiles_rootSlots h).flatMap fun s hs =>
    tiles_cellsBelow depth (Layout.sound_rootSlots h s hs)

/-! ## Lookup -/

theorem exists_find?_cellsBelow (depth : Nat) (h : s.Sound) (hs : s.covers time) :
    ∃ c, (cellsBelow depth s).find? (fun c => c.covers time) = some c := by
  rw [Slot.covers_iff] at hs
  obtain ⟨x, hx, ht⟩ := (tiles_cellsBelow depth h).exists_mem hs.1 hs.2
  obtain ⟨c, hc, rfl⟩ := List.mem_map.mp hx
  exact Option.isSome_iff_exists.mp (List.find?_isSome.mpr ⟨c, hc, Cell.covers_iff.mpr ht⟩)

theorem find?_cellsBelow_eq_none {depth : Nat} (h : s.Sound) (hs : ¬ s.covers time) :
    (cellsBelow depth s).find? (fun c => c.covers time) = none := by
  refine List.find?_eq_none.mpr fun c hc hcov => hs ?_
  have hin := mem_cellsBelow_within h hc
  have ht := Cell.covers_iff.mp hcov
  rw [Slot.covers_iff]
  omega

theorem find?_flatMap_cellsBelow {depth : Nat} (h : ∀ s ∈ level, s.Sound) :
    (level.flatMap (cellsBelow depth)).find? (fun c => c.covers time) =
      (level.find? fun s => s.covers time).bind fun s =>
        (cellsBelow depth s).find? fun c => c.covers time := by
  induction level with
  | nil => rfl
  | cons s rest ih =>
    have hs := h s List.mem_cons_self
    rw [List.flatMap_cons, List.find?_append, ih fun r hr => h r (List.mem_cons_of_mem _ hr)]
    rw [List.find?_cons]
    cases hcov : s.covers time with
    | true =>
      obtain ⟨c, hc⟩ := exists_find?_cellsBelow depth hs hcov
      rw [Option.bind_some, hc]
      rfl
    | false =>
      rw [find?_cellsBelow_eq_none hs (by simp [hcov])]
      rfl

/-- `find?` on the cells below `level` is `locateIn`, gaps aside. -/
theorem slot?_find?_flatMap (depth : Nat) (h : ∀ s ∈ level, s.Sound) :
    ((level.flatMap (cellsBelow depth)).find? fun c => c.covers time).bind Cell.slot? =
      locateIn time depth level := by
  induction depth generalizing level with
  | zero =>
    rw [find?_flatMap_cellsBelow h]
    cases hf : level.find? fun s => s.covers time with
    | none => exact hf.symm
    | some s =>
      have hs := List.find?_some hf
      have hc : (Cell.node s).covers time := hs
      simp only [Option.bind_some, cellsBelow, List.find?_singleton, hc, if_true]
      exact hf.symm
  | succ depth ih =>
    rw [find?_flatMap_cellsBelow h]
    simp only [locateIn]
    cases hf : level.find? fun s => s.covers time with
    | none => rfl
    | some s =>
      have hs := h s (List.mem_of_find?_eq_some hf)
      have hchildren := Layout.sound_childSlots hs
      simp only [Option.bind_some, cellsBelow]
      split
      · next hflat =>
        rw [slot?_find?_gapCells, Layout.locateIn_eq_none hchildren fun c hc => ?_]
        have := Layout.height_lt_of_mem_childSlots hs hc
        omega
      · rw [← ih hchildren, List.find?_append]
        cases (childSlots s).flatMap (cellsBelow depth) |>.find? fun c => c.covers time with
        | none => exact slot?_find?_gapCells _ _ _
        | some c => rfl

/-- `find?` on the cells of a row is `locate`, gaps aside. -/
theorem slot?_find?_cells (h : ∀ t ∈ roots, t.Sound) (depth : Nat) (time : Int) :
    ((cells roots depth).find? fun c => c.covers time).bind Cell.slot? =
      Layout.locate roots depth time :=
  slot?_find?_flatMap depth (Layout.sound_rootSlots h)

/-- The cells of a row cover `[0, total roots)`. -/
theorem isSome_find?_cells (h : ∀ t ∈ roots, t.Sound) (depth : Nat) (time : Int) :
    ((cells roots depth).find? fun c => c.covers time).isSome ↔ 0 ≤ time ∧ time < total roots := by
  have ht := tiles_cells h depth
  constructor
  · intro hf
    obtain ⟨c, hc, hcov⟩ := List.find?_isSome.mp hf
    have hin := ht.mem_within (List.mem_map_of_mem hc)
    have := Cell.covers_iff.mp hcov
    omega
  · rintro ⟨h0, h1⟩
    obtain ⟨x, hx, hcov⟩ := ht.exists_mem h0 h1
    obtain ⟨c, hc, rfl⟩ := List.mem_map.mp hx
    exact List.find?_isSome.mpr ⟨c, hc, Cell.covers_iff.mpr hcov⟩

/-- At each time: a node, found by `locate` too, or a gap inside the timeline,
or nothing outside. -/
theorem find?_cells_cases (h : ∀ t ∈ roots, t.Sound) (depth : Nat) (time : Int) :
    (∃ s, Layout.locate roots depth time = some s ∧
      (cells roots depth).find? (fun c => c.covers time) = some (.node s)) ∨
    (Layout.locate roots depth time = none ∧ (0 ≤ time ∧ time < total roots) ∧
      ∃ start duration,
        (cells roots depth).find? (fun c => c.covers time) = some (.gap start duration)) ∨
    (Layout.locate roots depth time = none ∧ ¬ (0 ≤ time ∧ time < total roots) ∧
      (cells roots depth).find? (fun c => c.covers time) = none) := by
  have hlocate := slot?_find?_cells h depth time
  have hrange := isSome_find?_cells h depth time
  cases hc : (cells roots depth).find? fun c => c.covers time with
  | none =>
    rw [hc] at hlocate hrange
    exact .inr (.inr ⟨hlocate.symm, by simpa using hrange, rfl⟩)
  | some c =>
    rw [hc] at hlocate hrange
    cases c with
    | node s => exact .inl ⟨s, hlocate.symm, rfl⟩
    | gap start duration => exact .inr (.inl ⟨hlocate.symm, hrange.mp rfl, start, duration, rfl⟩)

end Rows

end Rows

end StackProfile
