import Mathlib
import StackProfile.Proofs.CoarserProfile
import StackProfile.Proofs.LineOrder
import StackProfile.Proofs.OwnWeight

/-!
# Samples at a level

`samplesOf (placementAt byFirst level) e` are the samples of element `e` at `level`. Profiles of
stacks are flat, so only level 0 moves them, and the trees of `e` weigh those samples.
-/

namespace StackProfile

open CallTree (nodesAt tallyAt)

/-! ## Profiles without elements below others -/

section Flat

variable {α ε : Type} [DecidableEq ε] {e : ε}

theorem Branch.children_modifyIn_addTree [BEq α] (t : CallTree α) {bs : List (Branch α ε)}
    (h : ∀ b ∈ bs, b.children = []) : ∀ b ∈ modifyIn e (addTree t) bs, b.children = [] := by
  induction bs with
  | nil => exact nofun
  | cons b bs ih =>
    obtain ⟨hb, hbs⟩ := List.forall_mem_cons.mp h
    refine List.forall_mem_cons.mpr ⟨?_, ih hbs⟩
    obtain ⟨d, ts, cs⟩ := b
    obtain rfl : cs = [] := hb
    unfold modify
    split <;> rfl

namespace Profile

variable {p : Profile α ε}

def Flat (p : Profile α ε) : Prop := ∀ b ∈ p.roots, b.children = []

theorem Flat.addRoot (h : p.Flat) (e : ε) : (p.addRoot e).Flat := by
  by_cases he : e ∈ p.elements
  · rwa [addRoot_of_mem he]
  · rw [Flat, roots_addRoot he]
    exact List.forall_mem_append.mpr ⟨h, List.forall_mem_singleton.mpr rfl⟩

theorem Flat.addTree [BEq α] (h : p.Flat) (e : ε) (t : CallTree α) : (p.addTree e t).Flat :=
  Branch.children_modifyIn_addTree t (h.addRoot e)

theorem Flat.level_succ (h : p.Flat) (hnodup : p.elements.Nodup) (n : Nat) :
    p.level (n + 1) = [] := by
  have hnone : p.roots.flatMap Branch.children = [] := List.flatMap_eq_nil_iff.mpr h
  rw [level_eq hnodup, Branch.levelIn, hnone, Branch.levelIn_nil, List.map_nil]

end Profile

end Flat

namespace Folded

variable {byFirst : Bool} {ss : List Stack} {p : Profile Frame Frame}

/-- Induction over the additions of `addStack`. -/
theorem foldl_addStack_induction {P : Profile Frame Frame → Prop} (hempty : P {})
    (hroot : ∀ p e, P p → P (p.addRoot e)) (htree : ∀ p e t, P p → P (p.addTree e t))
    (byFirst : Bool) (ss : List Stack) : P (ss.foldl (addStack byFirst) {}) := by
  refine List.foldlRecOn ss _ hempty fun p hp s _ => ?_
  rcases addStack_cases byFirst p s with ⟨-, heq⟩ | ⟨e, -, heq⟩ | ⟨e, fs, t, -, -, heq⟩
  · rwa [heq]
  · exact heq ▸ hroot p e hp
  · exact heq ▸ htree p e t hp

/-- The profile of stacks is flat, so only `coarsen 0` changes it. -/
theorem coarsen_succ_foldl (byFirst : Bool) (hs : ∀ s ∈ ss, s.count ≤ maxTime) (n : Nat) :
    (ss.foldl (addStack byFirst) {}).coarsen (n + 1) = ss.foldl (addStack byFirst) {} := by
  have hsound := (counts_foldl byFirst hs).sound
  have hflat : (ss.foldl (addStack byFirst) {}).Flat :=
    foldl_addStack_induction (List.forall_mem_nil _) (fun _ e h => h.addRoot e)
      (fun _ e t h => h.addTree e t) byFirst ss
  have hbuilt : (ss.foldl (addStack byFirst) {}).Built fun _ => True :=
    foldl_addStack_induction (.empty []) (fun _ e h => h.addRoot e)
      (fun _ e _ h => h.addTree e trivial) byFirst ss
  exact hbuilt.coarsen_eq_self hsound (hflat.level_succ hsound.distinct n)

/-! ## The samples of an element -/

/-- Element and path of a stack at `level`. -/
def placementAt (byFirst : Bool) (level : Option Nat) (s : Stack) : Option (Frame × List Frame) :=
  if level = some 0 then (placement byFirst s).map fun x => (Grouping.everything, x.2)
  else placement byFirst s

/-- The samples of element `e`, at the paths given by `place`. -/
def samplesOf (place : Stack → Option (Frame × List Frame)) (e : Frame) (ss : List Stack) :
    Samples Frame :=
  ss.filterMap fun s => (place s).bind fun x => if x.1 = e then some (x.2, s.count) else none

section Samples

variable {place : Stack → Option (Frame × List Frame)} {e : Frame}

theorem map_snd_filter_samplesOf (place : Stack → Option (Frame × List Frame)) (e : Frame)
    (keep : List Frame → Bool) (ss : List Stack) :
    ((samplesOf place e ss).filter fun x => keep x.1).map Prod.snd =
      (ss.filter fun s => (place s).any fun x => x.1 = e && keep x.2).map Stack.count := by
  induction ss with
  | nil => rfl
  | cons s ss ih =>
    cases hs : place s with
    | none => simpa [samplesOf, hs] using ih
    | some x =>
      by_cases he : x.1 = e
      · by_cases hk : keep x.2
        · simpa [samplesOf, hs, he, hk] using ih
        · simpa [samplesOf, hs, he, hk] using ih
      · simpa [samplesOf, hs, he] using ih

theorem total_samplesOf_le (place : Stack → Option (Frame × List Frame)) (e : Frame)
    (ss : List Stack) : (samplesOf place e ss).total ≤ weightSum (ss.map Stack.count) := by
  have hall := map_snd_filter_samplesOf place e (fun _ => true) ss
  rw [List.filter_eq_self.mpr fun _ _ => rfl] at hall
  rw [Samples.total, hall, weightSum, weightSum]
  refine ((List.filter_sublist.map _).map _).sum_le_sum fun w hw => ?_
  obtain ⟨n, -, rfl⟩ := List.mem_map.mp hw
  exact Int.le_max_right n 0

/-- Samples ending at a path are those placed there. -/
theorem total_ending_samplesOf (path : List Frame) :
    ((samplesOf place e ss).ending path).total =
      weightSum ((ss.filter fun s => place s = some (e, path)).map Stack.count) := by
  rw [Samples.total, Samples.ending, map_snd_filter_samplesOf place e fun p => p == path]
  refine congrArg (fun ss => weightSum (List.map Stack.count ss)) (List.filter_congr fun s _ => ?_)
  rw [Bool.eq_iff_iff]
  cases place s with
  | none => simp
  | some x => simp [Prod.ext_iff]

theorem map_snd_through_samplesOf (path : List Frame) {keep : Stack → Bool}
    (h : ∀ s ∈ ss, keep s ↔ ∃ fs, place s = some (e, fs) ∧ path.isPrefixOf fs) :
    ((samplesOf place e ss).through path).map Prod.snd = (ss.filter keep).map Stack.count := by
  rw [Samples.through, map_snd_filter_samplesOf place e fun p => path.isPrefixOf p]
  refine congrArg (List.map Stack.count) (List.filter_congr fun s hs => ?_)
  rw [Bool.eq_iff_iff, h s hs]
  cases place s with
  | none => simp
  | some x => simp [Prod.ext_iff]

end Samples

/-! ## Tallies of elements -/

variable {e : Frame}

theorem Counts.weighs (h : Counts byFirst ss p) (hsum : weightSum (ss.map Stack.count) ≤ maxTime)
    (e : Frame) : Weighs (samplesOf (placement byFirst) e ss) (p.treesOf e) where
  sound := h.sound.treesOf e
  distinct := h.distinct e
  tallies f path := by
    rw [h.tallies e _ (List.cons_ne_nil f path)]
    exact congrArg tally (map_snd_through_samplesOf _ fun s _ => goesThrough_iff).symm
  total_le := (total_samplesOf_le _ e ss).trans hsum

theorem Counts.weighs_coarsen_zero (h : Counts byFirst ss p)
    (hsum : weightSum (ss.map Stack.count) ≤ maxTime) (e : Frame) :
    Weighs (samplesOf (placementAt byFirst (some 0)) e ss) ((p.coarsen 0).treesOf e) := by
  have htotal := (total_samplesOf_le (placementAt byFirst (some 0)) e ss).trans hsum
  have hplace : ∀ s, placementAt byFirst (some 0) s =
      (placement byFirst s).map fun x => (Grouping.everything, x.2) := fun s => if_pos rfl
  by_cases he : e = Grouping.everything
  · subst he
    obtain ⟨htidy, htally⟩ := h.merged
    rw [Profile.treesOf_coarsen_zero]
    refine ⟨htidy, fun f path => ?_, htotal⟩
    rw [htally]
    refine congrArg tally (map_snd_through_samplesOf _ fun s _ => ?_).symm
    rw [passes_iff (List.cons_ne_nil f path), hplace]
    cases placement byFirst s with
    | none => simp
    | some x => simp [Prod.ext_iff]
  · have hnone : samplesOf (placementAt byFirst (some 0)) e ss = [] := by
      refine List.filterMap_eq_nil_iff.mpr fun s _ => ?_
      rw [hplace]
      cases placement byFirst s <;> simp [Ne.symm he]
    have htrees : (p.coarsen 0).treesOf e = [] :=
      Profile.treesOf_of_not_mem fun hmem => he (List.mem_singleton.mp hmem)
    rw [hnone] at htotal ⊢
    rw [htrees]
    exact ⟨⟨nofun, .nil⟩, fun f path => CallTree.tallyAt_nil _, htotal⟩

/-- At each level, an element weighs the samples placed under it. -/
theorem weighs_foldl (byFirst : Bool) (hs : ∀ s ∈ ss, s.count ≤ maxTime)
    (hsum : weightSum (ss.map Stack.count) ≤ maxTime) (level : Option Nat) (e : Frame) :
    let p := ss.foldl (addStack byFirst) {}
    Weighs (samplesOf (placementAt byFirst level) e ss)
      (((level.map p.coarsen).getD p).treesOf e) := by
  intro p
  have hcounts : Counts byFirst ss p := counts_foldl byFirst hs
  match level with
  | none => exact hcounts.weighs hsum e
  | some 0 => exact hcounts.weighs_coarsen_zero hsum e
  | some (n + 1) =>
    rw [Option.map_some, Option.getD_some, coarsen_succ_foldl byFirst hs n]
    exact hcounts.weighs hsum e

end Folded

end StackProfile
