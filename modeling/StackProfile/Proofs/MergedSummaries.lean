import Mathlib.Algebra.Order.Group.Int
import Mathlib.Algebra.Ring.Int.Defs
import Mathlib.Data.List.Induction
import StackProfile.Proofs.TimeRange
import StackProfile.Summary

/-!
# Merged summaries

`merge` against `collect` on appended values. Counts and extremes agree; totals are saturated sums
and agree for values of one sign, or if no partial sum saturates.
-/

namespace StackProfile

/-! ## Saturated sums -/

def OneSign (vs : List Int) : Prop := (∀ v ∈ vs, 0 ≤ v) ∨ ∀ v ∈ vs, v ≤ 0

theorem OneSign.subset {vs ws : List Int} (h : OneSign vs) (hsub : ws ⊆ vs) : OneSign ws :=
  h.imp (fun h w hw => h w (hsub hw)) fun h w hw => h w (hsub hw)

/-- All partial sums from `start` are in the 64-bit range. -/
def StaysInRange (start : Int) : List Int → Prop
  | [] => True
  | v :: vs => (minTime ≤ start + v ∧ start + v ≤ maxTime) ∧ StaysInRange (start + v) vs

instance decidableStaysInRange : (start : Int) → (vs : List Int) → Decidable (StaysInRange start vs)
  | _, [] => .isTrue trivial
  | start, v :: vs =>
    have := decidableStaysInRange (start + v) vs
    inferInstanceAs (Decidable (_ ∧ _))

theorem satAdd_of_inRange {a b : Int} (h : minTime ≤ a + b ∧ a + b ≤ maxTime) :
    satAdd a b = a + b := by
  unfold satAdd clampTime; omega

theorem satAdd_zero_of_inRange {a : Int} (h : minTime ≤ a ∧ a ≤ maxTime) : satAdd a 0 = a := by
  rw [satAdd_of_inRange (by rwa [Int.add_zero]), Int.add_zero]

theorem inRange_satAdd (a b : Int) : minTime ≤ satAdd a b ∧ satAdd a b ≤ maxTime := by
  unfold satAdd clampTime minTime maxTime; omega

theorem satAdd_assoc_of_oneSign {a b c : Int} (h : OneSign [a, b, c]) :
    satAdd (satAdd a b) c = satAdd a (satAdd b c) := by
  simp only [OneSign, List.forall_mem_cons, List.not_mem_nil, false_imp_iff, implies_true,
    and_true] at h
  unfold satAdd clampTime minTime maxTime
  omega

theorem satAdd_assoc_of_inRange {a b c : Int} (hab : minTime ≤ a + b ∧ a + b ≤ maxTime)
    (hbc : minTime ≤ b + c ∧ b + c ≤ maxTime) :
    satAdd (satAdd a b) c = satAdd a (satAdd b c) := by
  rw [satAdd_of_inRange hab, satAdd_of_inRange hbc, satAdd, satAdd, Int.add_assoc]

theorem satSum_append_singleton (vs : List Int) (v : Int) :
    satSum (vs ++ [v]) = satAdd (satSum vs) v := by
  rw [satSum, List.foldl_append]
  rfl

theorem inRange_satSum (vs : List Int) : minTime ≤ satSum vs ∧ satSum vs ≤ maxTime := by
  induction vs using List.reverseRecOn with
  | nil => decide
  | append_singleton vs v _ =>
    rw [satSum_append_singleton]
    exact inRange_satAdd _ v

theorem OneSign.satSum {vs ws : List Int} (h : OneSign (vs ++ ws)) :
    OneSign (satSum vs :: ws) := by
  have hside : ∀ {P : Int → Prop}, P 0 → (∀ a b, P a → P b → P (satAdd a b)) →
      (∀ v ∈ vs ++ ws, P v) → ∀ v ∈ StackProfile.satSum vs :: ws, P v := by
    intro P hzero hadd hall
    obtain ⟨hvs, hws⟩ := List.forall_mem_append.mp hall
    refine List.forall_mem_cons.mpr ⟨?_, hws⟩
    clear h hall
    induction vs using List.reverseRecOn with
    | nil => exact hzero
    | append_singleton vs v ih =>
      obtain ⟨hvs, hv⟩ := List.forall_mem_append.mp hvs
      rw [satSum_append_singleton]
      exact hadd _ _ (ih hvs) (hv v List.mem_cons_self)
  have hrange : minTime ≤ 0 ∧ 0 ≤ maxTime := by decide
  refine h.imp (hside (Int.le_refl 0) fun a b ha hb => ?_)
    (hside (Int.le_refl 0) fun a b ha hb => ?_)
  all_goals
    unfold satAdd clampTime
    omega

/-- Saturated sums split if the second part has the sign of the first total. -/
theorem satSum_append_of_oneSign {xs ys : List Int} (h : OneSign (satSum xs :: ys)) :
    satSum (xs ++ ys) = satAdd (satSum xs) (satSum ys) := by
  induction ys using List.reverseRecOn with
  | nil =>
    rw [List.append_nil]
    exact (satAdd_zero_of_inRange (inRange_satSum xs)).symm
  | append_singleton ys v ih =>
    have hparts : OneSign (ys ++ [satSum xs, v]) := h.subset (by simp)
    have hsums : OneSign [satSum xs, satSum ys, v] := hparts.satSum.subset (by simp)
    rw [← List.append_assoc, satSum_append_singleton, ih (h.subset (by simp)),
      satSum_append_singleton, satAdd_assoc_of_oneSign hsums]

theorem foldl_satAdd_of_staysInRange {a : Int} {vs : List Int} (h : StaysInRange a vs) :
    vs.foldl satAdd a = a + vs.sum := by
  induction vs generalizing a with
  | nil => simp
  | cons v vs ih =>
    rw [List.foldl_cons, satAdd_of_inRange h.1, ih h.2, List.sum_cons, Int.add_assoc]

theorem inRange_of_staysInRange {a : Int} {vs : List Int} (ha : minTime ≤ a ∧ a ≤ maxTime)
    (h : StaysInRange a vs) : minTime ≤ a + vs.sum ∧ a + vs.sum ≤ maxTime := by
  induction vs generalizing a with
  | nil => simpa using ha
  | cons v vs ih =>
    rw [List.sum_cons, ← Int.add_assoc]
    exact ih h.1 h.2

/-- Saturated sums split if the second part stays in range on its own and after the first. -/
theorem satSum_append_of_staysInRange {xs ys : List Int} (hys : StaysInRange 0 ys)
    (hboth : StaysInRange (satSum xs) ys) :
    satSum (xs ++ ys) = satAdd (satSum xs) (satSum ys) := by
  have hpart : satSum ys = ys.sum := by
    rw [satSum, foldl_satAdd_of_staysInRange hys, Int.zero_add]
  have hwhole : satSum (xs ++ ys) = satSum xs + ys.sum := by
    rw [satSum, List.foldl_append, ← satSum, foldl_satAdd_of_staysInRange hboth]
  rw [hwhole, hpart, satAdd_of_inRange (inRange_of_staysInRange (inRange_satSum xs) hboth)]

namespace Summary

variable {s t u : Summary}

/-! ## Summaries of values -/

/-- The invariant of `collect`: `{}` if empty, total in range. -/
structure Tidy (s : Summary) : Prop where
  empty : s.count = 0 → s = {}
  inRange : minTime ≤ s.total ∧ s.total ≤ maxTime

theorem collect_append_singleton (vs : List Int) (v : Int) :
    collect (vs ++ [v]) = (collect vs).add v := by
  rw [collect, List.foldl_append]
  rfl

theorem count_add (s : Summary) (v : Int) : (s.add v).count = s.count + 1 := by
  unfold add
  split
  · next h => rw [h]
  · rfl

theorem total_add (s : Summary) (v : Int) : (s.add v).total = satAdd s.total v := by
  unfold add
  split <;> rfl

theorem total_collect (vs : List Int) : (collect vs).total = satSum vs := by
  induction vs using List.reverseRecOn with
  | nil => rfl
  | append_singleton vs v ih =>
    rw [collect_append_singleton, total_add, ih, satSum_append_singleton]

theorem tidy_collect (vs : List Int) : (collect vs).Tidy where
  empty h := by
    cases vs using List.reverseRecOn with
    | nil => rfl
    | append_singleton vs v =>
      rw [collect_append_singleton, count_add] at h
      cases h
  inRange := by
    rw [total_collect]
    exact inRange_satSum vs

/-! ## Merging -/

def extremes (s : Summary) : Nat × Int × Int := (s.count, s.least, s.greatest)

theorem ext_of_extremes (h : s.extremes = t.extremes) (htotal : s.total = t.total) : s = t := by
  obtain ⟨count, least, greatest, total⟩ := s
  obtain ⟨count', least', greatest', total'⟩ := t
  simp_all [extremes]

theorem extremes_merge_add (s t : Summary) (v : Int) :
    (s.merge (t.add v)).extremes = ((s.merge t).add v).extremes := by
  unfold merge add
  split_ifs <;> simp_all [extremes, Nat.add_assoc, Int.min_assoc, Int.max_assoc]

theorem extremes_add (h : s.extremes = t.extremes) (v : Int) :
    (s.add v).extremes = (t.add v).extremes := by
  obtain ⟨hcount, hleast, hgreatest⟩ : s.count = t.count ∧ s.least = t.least ∧
      s.greatest = t.greatest := by simpa [extremes] using h
  unfold add
  rw [hcount, hleast, hgreatest]
  split <;> rfl

/-- `merge` is exact on counts and extremes. -/
theorem extremes_merge_collect (xs ys : List Int) :
    ((collect xs).merge (collect ys)).extremes = (collect (xs ++ ys)).extremes := by
  induction ys using List.reverseRecOn with
  | nil =>
    rw [List.append_nil]
    rfl
  | append_singleton ys v ih =>
    rw [collect_append_singleton, extremes_merge_add, extremes_add ih, ← collect_append_singleton,
      List.append_assoc]

theorem extremes_merge_assoc (s t u : Summary) :
    ((s.merge t).merge u).extremes = (s.merge (t.merge u)).extremes := by
  unfold merge
  split_ifs <;> simp_all [extremes, Nat.add_assoc, Int.min_assoc, Int.max_assoc]

namespace Tidy

theorem total_merge (hs : s.Tidy) (ht : t.Tidy) :
    (s.merge t).total = satAdd s.total t.total := by
  unfold merge
  split
  · next hempty =>
    obtain rfl := ht.empty hempty
    exact (satAdd_zero_of_inRange hs.inRange).symm
  · split
    · next hempty =>
      obtain rfl := hs.empty hempty
      rw [satAdd_comm]
      exact (satAdd_zero_of_inRange ht.inRange).symm
    · rfl

theorem merge (hs : s.Tidy) (ht : t.Tidy) : (s.merge t).Tidy where
  empty h := by
    unfold Summary.merge at h ⊢
    split at h
    · next hempty => rw [if_pos hempty, hs.empty h]
    · next hsome =>
      rw [if_neg hsome]
      split at h
      · exact absurd h hsome
      · next hsome' => exact absurd (Nat.eq_zero_of_add_eq_zero_right h) hsome'
  inRange := by
    rw [hs.total_merge ht]
    exact inRange_satAdd _ _

theorem empty_merge (hs : s.Tidy) : ({} : Summary).merge s = s := by
  unfold Summary.merge
  split
  · next hempty => rw [hs.empty hempty]
  · rfl

end Tidy

end Summary

open Summary (collect)

/-- `merge` is exact on count and extremes, associative there, and has neutral `{}`. Totals add up
saturated. The total of a merge is that of all values if the second part has one sign, that of the
first total, or stays in range on its own and after the first; grouping totals needs the like. -/
theorem merged_summaries (xs ys zs : List Int) :
    ((collect xs).merge (collect ys)).extremes = (collect (xs ++ ys)).extremes ∧
    ((collect xs).merge (collect ys)).total = satAdd (collect xs).total (collect ys).total ∧
    (OneSign ((collect xs).total :: ys) ∨
        StaysInRange 0 ys ∧ StaysInRange (collect xs).total ys →
      (collect xs).merge (collect ys) = collect (xs ++ ys)) ∧
    (((collect xs).merge (collect ys)).merge (collect zs)).extremes =
      ((collect xs).merge ((collect ys).merge (collect zs))).extremes ∧
    (OneSign [(collect xs).total, (collect ys).total, (collect zs).total] ∨
        (minTime ≤ (collect xs).total + (collect ys).total ∧
          (collect xs).total + (collect ys).total ≤ maxTime) ∧
          minTime ≤ (collect ys).total + (collect zs).total ∧
            (collect ys).total + (collect zs).total ≤ maxTime →
      ((collect xs).merge (collect ys)).merge (collect zs) =
        (collect xs).merge ((collect ys).merge (collect zs))) ∧
    (collect xs).merge {} = collect xs ∧ ({} : Summary).merge (collect xs) = collect xs := by
  have hs : (collect xs).Tidy := Summary.tidy_collect xs
  have ht : (collect ys).Tidy := Summary.tidy_collect ys
  have hu : (collect zs).Tidy := Summary.tidy_collect zs
  have hsum : (collect xs).total = satSum xs := Summary.total_collect xs
  have hsum' : (collect ys).total = satSum ys := Summary.total_collect ys
  have hassoc := Summary.extremes_merge_assoc (collect xs) (collect ys) (collect zs)
  refine ⟨Summary.extremes_merge_collect xs ys, hs.total_merge ht, fun h => ?_, hassoc,
    fun h => ?_, rfl, hs.empty_merge⟩
  · refine Summary.ext_of_extremes (Summary.extremes_merge_collect xs ys) ?_
    rw [hsum] at h
    rw [hs.total_merge ht, Summary.total_collect (xs ++ ys), hsum, hsum']
    rcases h with hsign | ⟨hys, hboth⟩
    · exact (satSum_append_of_oneSign hsign).symm
    · exact (satSum_append_of_staysInRange hys hboth).symm
  · refine Summary.ext_of_extremes hassoc ?_
    rw [(hs.merge ht).total_merge hu, hs.total_merge ht, hs.total_merge (ht.merge hu),
      ht.total_merge hu]
    rcases h with hsign | ⟨hst, htu⟩
    · exact satAdd_assoc_of_oneSign hsign
    · exact satAdd_assoc_of_inRange hst htu

/-- Values of both signs in range, and values of one sign beyond it. -/
theorem merged_summaries_ends :
    (collect [maxTime]).merge (collect [-3, 2]) = collect ([maxTime] ++ [-3, 2]) ∧
      (collect [maxTime]).merge (collect [1, 2]) = collect ([maxTime] ++ [1, 2]) ∧
      ((collect [-1]).merge (collect [minTime])).merge (collect [-2]) =
        (collect [-1]).merge ((collect [minTime]).merge (collect [-2])) :=
  ⟨(merged_summaries [maxTime] [-3, 2] []).2.2.1 (.inr ⟨by decide, by decide⟩),
    (merged_summaries [maxTime] [1, 2] []).2.2.1 (.inl (.inl (by decide))),
    (merged_summaries [-1] [minTime] [-2]).2.2.2.2.1 (.inl (.inr (by decide)))⟩

/-- Counterexample: after the greatest value, 1 saturates and -1 is subtracted; on their own they
sum to 0. Splits and groupings differ in the total. -/
theorem split_changes_total :
    (collect [maxTime]).merge (collect [1, -1]) ≠ collect ([maxTime] ++ [1, -1]) ∧
      ((collect [maxTime]).merge (collect [1])).merge (collect [-1]) ≠
        (collect [maxTime]).merge ((collect [1]).merge (collect [-1])) := by
  decide

end StackProfile
