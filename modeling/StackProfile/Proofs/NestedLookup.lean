import Mathlib.Data.List.Permutation
import StackProfile.Proofs.Slots

/-!
# Nested lookup

Slots of a depth do not overlap and lie in the slots above, so `locate` finds the only one that
covers a time.
-/

namespace StackProfile

open Rows (endOf)
open Layout (slots childSlots locateIn locate)

variable {α : Type}

theorem filter_covers_of_tiles {a b time : Int} {level : List (Slot α)}
    (h : Tiles a (level.map Slot.extent) b) :
    (level.filter fun s => s.covers time) = (level.find? fun s => s.covers time).toList := by
  induction level generalizing a with
  | nil => rfl
  | cons s rest ih =>
    obtain ⟨-, -, hrest⟩ := h
    rw [List.filter_cons, List.find?_cons]
    cases hs : s.covers time with
    | true =>
      have hnone : (rest.filter fun r => r.covers time) = [] := by
        rw [List.filter_eq_nil_iff]
        intro r hr hcovers
        have hin : s.finish ≤ r.start := (hrest.mem_within (List.mem_map_of_mem hr)).1
        rw [Slot.covers_iff] at hs hcovers
        omega
      rw [hnone]
      rfl
    | false => exact ih hrest

namespace Layout

variable [ToString α] {roots : List (CallTree α)} {level : List (Slot α)} {s c : Slot α}
  {time : Int} {depth : Nat}

/-- All slots at a depth. -/
def levelAt (roots : List (CallTree α)) : Nat → List (Slot α)
  | 0 => slots roots 0 none
  | depth + 1 => (levelAt roots depth).flatMap childSlots

theorem sound_levelAt (h : ∀ t ∈ roots, t.Sound) (depth : Nat) :
    ∀ s ∈ levelAt roots depth, s.Sound := by
  induction depth with
  | zero => exact sound_rootSlots h
  | succ depth ih =>
    intro c hc
    obtain ⟨s, hs, hc⟩ := List.mem_flatMap.mp hc
    exact sound_childSlots (ih s hs) c hc

theorem within_of_mem_childSlots (hs : s.Sound) (hc : c ∈ childSlots s) :
    s.start ≤ c.start ∧ c.finish ≤ s.finish := by
  have hin : s.start ≤ c.start ∧ c.start ≤ c.finish ∧ c.finish ≤ endOf s.start (childSlots s) :=
    (tiles_childSlots hs).mem_within (List.mem_map_of_mem hc)
  have hend := endOf_childSlots_le hs
  omega

/-! ## Going down -/

theorem locateIn_succ (time : Int) (depth : Nat) (level : List (Slot α)) :
    locateIn time (depth + 1) level =
      (locateIn time depth level).bind fun s => (childSlots s).find? fun c => c.covers time := by
  induction depth generalizing level with
  | zero => rfl
  | succ depth ih =>
    rw [locateIn]
    cases hf : level.find? fun s => s.covers time with
    | none => simp only [locateIn, hf, Option.bind_none]
    | some s =>
      rw [Option.bind_some, ih]
      simp only [locateIn, hf, Option.bind_some]

theorem locate_succ (roots : List (CallTree α)) (depth : Nat) (time : Int) :
    locate roots (depth + 1) time =
      (locate roots depth time).bind fun s => (childSlots s).find? fun c => c.covers time :=
  locateIn_succ time depth _

/-- Only children of covering slots cover a time. -/
theorem filter_flatMap_childSlots (h : ∀ s ∈ level, s.Sound) (time : Int) :
    ((level.flatMap childSlots).filter fun c => c.covers time) =
      (level.filter fun s => s.covers time).flatMap fun s =>
        ((childSlots s).find? fun c => c.covers time).toList := by
  induction level with
  | nil => rfl
  | cons s rest ih =>
    obtain ⟨hs, hrest⟩ := List.forall_mem_cons.mp h
    rw [List.flatMap_cons, List.filter_append, filter_covers_of_tiles (tiles_childSlots hs),
      ih hrest, List.filter_cons]
    cases hcovers : s.covers time with
    | true => rfl
    | false =>
      have hnone : ((childSlots s).find? fun c => c.covers time) = none := by
        rw [List.find?_eq_none]
        intro c hc hcc
        have hin := within_of_mem_childSlots hs hc
        rw [Slot.covers_iff] at hcc
        have hout : ¬ s.covers time := by simp [hcovers]
        rw [Slot.covers_iff] at hout
        omega
      rw [hnone]
      rfl

/-- `locate` gives all slots at a depth that cover `time`. -/
theorem filter_covers_levelAt (h : ∀ t ∈ roots, t.Sound) (depth : Nat) (time : Int) :
    ((levelAt roots depth).filter fun s => s.covers time) = (locate roots depth time).toList := by
  induction depth with
  | zero => exact filter_covers_of_tiles (tiles_rootSlots h)
  | succ depth ih =>
    rw [levelAt, filter_flatMap_childSlots (sound_levelAt h depth), ih, locate_succ]
    cases locate roots depth time with
    | none => rfl
    | some s => rw [Option.toList_some, List.flatMap_singleton, Option.bind_some]

theorem mem_levelAt_of_locate (h : ∀ t ∈ roots, t.Sound) (hs : locate roots depth time = some s) :
    s ∈ levelAt roots depth := by
  have hmem : s ∈ (levelAt roots depth).filter fun s => s.covers time := by
    rw [filter_covers_levelAt h, hs]
    exact List.mem_singleton_self s
  exact List.mem_of_mem_filter hmem

theorem locate_eq_none (h : ∀ t ∈ roots, t.Sound) {r : Slot α} (hr : locate roots 0 time = some r)
    (hd : r.tree.height ≤ depth) : locate roots depth time = none := by
  have hsound := sound_rootSlots h r (List.mem_of_find?_eq_some hr)
  cases depth with
  | zero =>
    have hpos := hsound.tree.height_pos
    omega
  | succ depth =>
    have hr : ((slots roots 0 none).find? fun s => s.covers time) = some r := hr
    rw [locate, locateIn, hr, Option.bind_some]
    apply locateIn_eq_none (sound_childSlots hsound)
    intro c hc
    have hlt := height_lt_of_mem_childSlots hsound hc
    omega

end Layout

/-- Lookup is nested and unambiguous: `locate` gives the only covering slot of a depth, the next one
is a child inside it, and there is none below the height of the root. -/
theorem lookup_is_nested [ToString α] {roots : List (CallTree α)} (h : ∀ t ∈ roots, t.Sound)
    (depth : Nat) (time : Int) :
    ((Layout.levelAt roots depth).filter fun s => s.covers time) =
        (locate roots depth time).toList ∧
      (∀ c, locate roots (depth + 1) time = some c →
        ∃ p, locate roots depth time = some p ∧ c ∈ childSlots p ∧ c.tree ∈ p.tree.children ∧
          p.start ≤ c.start ∧ c.finish ≤ p.finish) ∧
      ∀ r, locate roots 0 time = some r → r.tree.height ≤ depth →
        locate roots depth time = none := by
  refine ⟨Layout.filter_covers_levelAt h depth time, ?_, ?_⟩
  · intro c hc
    rw [Layout.locate_succ] at hc
    obtain ⟨p, hp, hfound⟩ := Option.bind_eq_some_iff.mp hc
    have hmem : c ∈ childSlots p := List.mem_of_find?_eq_some hfound
    have hsound : p.Sound :=
      Layout.sound_levelAt h depth p (Layout.mem_levelAt_of_locate h hp)
    exact ⟨p, hp, hmem, Layout.mem_children_of_mem_childSlots hmem,
      Layout.within_of_mem_childSlots hsound hmem⟩
  · intro r hr hd
    exact Layout.locate_eq_none h hr hd

/-- Children of weights 4, 3 and 1 in a parent of 5. -/
theorem lookup_is_nested_crowded :
    let main : CallTree String :=
      (((CallTree.leaf "main" 5).graft (.leaf "x" 4)).graft (.leaf "z" 1)).graft (.leaf "y" 3)
    let roots := [.leaf "idle" 2, main]
    (∀ t ∈ roots, t.Sound) ∧
      ((Layout.levelAt roots 1).map fun s => (s.tree.name, s.start, s.width)) =
        [("x", 0, 4), ("y", 4, 1)] ∧
      ((Layout.levelAt roots 1).filter fun s => s.covers 4) = [⟨.leaf "y" 3, 4, 1⟩] ∧
      (∃ p, locate roots 0 4 = some p ∧ p.tree.name = "main" ∧ p.start ≤ 4 ∧ 5 ≤ p.finish) ∧
      locate roots 2 4 = none := by
  intro main roots
  have hleaf (name : String) {weight : Int} (h : weight ≤ maxTime) :
      (CallTree.leaf name weight).Sound := CallTree.sound_leaf name h
  have hmain : main.Sound := (((hleaf "main" (by decide)).graft (hleaf "x" (by decide))).graft
    (hleaf "z" (by decide))).graft (hleaf "y" (by decide))
  have hroots : ∀ t ∈ roots, t.Sound :=
    List.forall_mem_cons.mpr ⟨hleaf "idle" (by decide), List.forall_mem_singleton.mpr hmain⟩
  have hroot : locate roots 0 4 = some ⟨main, 0, 5⟩ := by cbv
  have hchild : locate roots 1 4 = some ⟨.leaf "y" 3, 4, 1⟩ := by cbv
  refine ⟨hroots, by cbv, ?_, ?_, ?_⟩
  · rw [(lookup_is_nested hroots 1 4).1, hchild]
    rfl
  · obtain ⟨p, hp, -, -, hstart, hfinish⟩ := (lookup_is_nested hroots 0 4).2.1 _ hchild
    rw [hroot] at hp
    obtain rfl := Option.some.inj hp
    exact ⟨_, hroot, rfl, hstart, hfinish⟩
  · exact (lookup_is_nested hroots 2 4).2.2 _ hroot (by decide)

end StackProfile
