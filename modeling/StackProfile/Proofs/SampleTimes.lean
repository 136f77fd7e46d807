import Mathlib.Data.Int.Basic
import Mathlib.Data.List.Basic
import Mathlib.Algebra.Order.Ring.Int
import StackProfile.Command.Run

/-!
# Sample times

`sampleTimes` is a `grid` of `stepFor` steps and the end. The step is rounded down, so the remainder
may take further steps beyond the budget.
-/

namespace StackProfile

namespace Command

/-- Multiples of `step` up to `finish`. -/
def grid (finish step : Int) : List Int :=
  (List.range (finish / step + 1).toNat).map fun (i : Nat) => step * i

section Grid

variable {finish step t : Int}

theorem head?_grid (hf : 0 ≤ finish) (hs : 0 < step) : (grid finish step).head? = some 0 := by
  have hquotient : 0 ≤ finish / step := Int.ediv_nonneg hf hs.le
  obtain ⟨n, hn⟩ : ∃ n, (finish / step + 1).toNat = n + 1 := ⟨(finish / step).toNat, by omega⟩
  rw [grid, hn, List.range_succ_eq_map, List.map_cons, List.head?_cons, Int.natCast_zero,
    Int.mul_zero]

theorem pairwise_grid (hs : 0 < step) : (grid finish step).Pairwise (· < ·) := by
  refine List.pairwise_map.mpr (List.pairwise_lt_range.imp fun hab => ?_)
  exact Int.mul_lt_mul_of_pos_left (Int.ofNat_lt.mpr hab) hs

theorem mem_grid (hs : 0 < step) : t ∈ grid finish step ↔ 0 ≤ t ∧ t ≤ finish ∧ step ∣ t := by
  simp only [grid, List.mem_map, List.mem_range]
  constructor
  · rintro ⟨i, hi, rfl⟩
    have hle : (i : Int) ≤ finish / step := by omega
    refine ⟨Int.mul_nonneg hs.le (Int.natCast_nonneg i), ?_, Int.dvd_mul_right step i⟩
    rw [Int.mul_comm]
    exact (Int.le_ediv_iff_mul_le hs).mp hle
  · rintro ⟨h0, hle, i, rfl⟩
    have hi : 0 ≤ i := by
      by_contra hneg
      have := Int.mul_neg_of_pos_of_neg hs (show i < 0 by omega)
      omega
    have hquotient : i ≤ finish / step := by
      rw [Int.le_ediv_iff_mul_le hs, Int.mul_comm]
      exact hle
    exact ⟨i.toNat, by omega, by rw [Int.toNat_of_nonneg hi]⟩

theorem length_grid (hf : 0 ≤ finish) (hs : 0 < step) :
    ((grid finish step).length : Int) = finish / step + 1 := by
  have hquotient : 0 ≤ finish / step := Int.ediv_nonneg hf hs.le
  rw [grid, List.length_map, List.length_range]
  omega

theorem getLast?_grid (hf : 0 ≤ finish) (hs : 0 < step) :
    (grid finish step).getLast? = some (step * (finish / step)) := by
  have hquotient : 0 ≤ finish / step := Int.ediv_nonneg hf hs.le
  obtain ⟨n, hn⟩ : ∃ n, (finish / step + 1).toNat = n + 1 := ⟨(finish / step).toNat, by omega⟩
  rw [grid, hn, List.range_succ, List.map_append, List.map_singleton, List.getLast?_concat]
  congr 2
  omega

end Grid

/-! ## The step -/

/-- `finish` over one part less than `samples`, at least 1; `samples` is clamped to
the greatest time. -/
def stepFor (finish : Int) (samples : Nat) : Int :=
  max (finish / (min (max (samples : Int) 2) maxTime - 1)) 1

variable {finish : Int} {samples : Nat}

theorem stepFor_pos (finish : Int) (samples : Nat) : 0 < stepFor finish samples := by
  unfold stepFor
  omega

theorem sampleTimes_eq (hf : 0 ≤ finish) : sampleTimes finish samples =
    if stepFor finish samples ∣ finish then grid finish (stepFor finish samples)
    else grid finish (stepFor finish samples) ++ [finish] := by
  have hreach : (grid finish (stepFor finish samples)).getLast? = some finish ↔
      stepFor finish samples ∣ finish := by
    rw [getLast?_grid hf (stepFor_pos finish samples), Option.some_inj]
    exact ⟨fun h => ⟨_, h.symm⟩, Int.mul_ediv_cancel'⟩
  have hunfold : sampleTimes finish samples =
      if (grid finish (stepFor finish samples)).getLast? = some finish then
        grid finish (stepFor finish samples)
      else grid finish (stepFor finish samples) ++ [finish] := rfl
  rw [hunfold, if_congr hreach rfl rfl]

theorem mem_sampleTimes (hf : 0 ≤ finish) {t : Int} : t ∈ sampleTimes finish samples ↔
    0 ≤ t ∧ t ≤ finish ∧ (stepFor finish samples ∣ t ∨ t = finish) := by
  have hgrid : t ∈ grid finish (stepFor finish samples) ↔
      0 ≤ t ∧ t ≤ finish ∧ stepFor finish samples ∣ t := mem_grid (stepFor_pos finish samples)
  rw [sampleTimes_eq hf]
  split
  · next hdvd =>
    rw [hgrid]
    constructor
    · rintro ⟨h0, hle, ht⟩
      exact ⟨h0, hle, .inl ht⟩
    · rintro ⟨h0, hle, ht | rfl⟩
      · exact ⟨h0, hle, ht⟩
      · exact ⟨h0, hle, hdvd⟩
  · rw [List.mem_append, List.mem_singleton, hgrid]
    constructor
    · rintro (⟨h0, hle, ht⟩ | rfl)
      · exact ⟨h0, hle, .inl ht⟩
      · exact ⟨hf, Int.le_refl _, .inr rfl⟩
    · rintro ⟨h0, hle, ht | rfl⟩
      · exact .inl ⟨h0, hle, ht⟩
      · exact .inr rfl

theorem pairwise_sampleTimes (hf : 0 ≤ finish) :
    (sampleTimes finish samples).Pairwise (· < ·) := by
  have hstep := stepFor_pos finish samples
  rw [sampleTimes_eq hf]
  split
  · exact pairwise_grid hstep
  · next hdvd =>
    refine List.pairwise_append.mpr ⟨pairwise_grid hstep, List.pairwise_singleton .., ?_⟩
    intro t ht u hu
    obtain ⟨-, hle, ht⟩ := (mem_grid hstep).mp ht
    rw [List.mem_singleton.mp hu]
    exact Int.lt_iff_le_and_ne.mpr ⟨hle, fun heq => hdvd (heq ▸ ht)⟩

theorem head?_sampleTimes (hf : 0 ≤ finish) : (sampleTimes finish samples).head? = some 0 := by
  have hfirst := head?_grid hf (stepFor_pos finish samples)
  rw [sampleTimes_eq hf]
  split
  · exact hfirst
  · rw [List.head?_append, hfirst, Option.some_or]

theorem getLast?_sampleTimes (hf : 0 ≤ finish) :
    (sampleTimes finish samples).getLast? = some finish := by
  rw [sampleTimes_eq hf]
  split
  · next hdvd => rw [getLast?_grid hf (stepFor_pos finish samples), Int.mul_ediv_cancel' hdvd]
  · exact List.getLast?_concat ..

/-! ## The number of times -/

theorem length_sampleTimes (hf : 0 ≤ finish) : ((sampleTimes finish samples).length : Int) =
    finish / stepFor finish samples + if stepFor finish samples ∣ finish then 1 else 2 := by
  have hgrid := length_grid hf (stepFor_pos finish samples)
  rw [sampleTimes_eq hf]
  split
  · exact hgrid
  · rw [List.length_append, List.length_singleton, Int.natCast_add, hgrid]
    omega

/-- Short timelines are taken whole. -/
theorem length_sampleTimes_of_lt (hf : 0 ≤ finish) (hmax : finish ≤ maxTime)
    (hlt : finish < max (samples : Int) 2) :
    ((sampleTimes finish samples).length : Int) = finish + 1 := by
  have hmaxTime : maxTime = 9223372036854775807 := rfl
  have hquotient : finish / (min (max (samples : Int) 2) maxTime - 1) < 2 := by
    rw [Int.ediv_lt_iff_lt_mul (by omega)]
    omega
  have hstep : stepFor finish samples = 1 := by
    unfold stepFor
    omega
  rw [length_sampleTimes hf, hstep, Int.ediv_one, if_pos (Int.one_dvd finish)]

/-- Longer ones are parted, with further steps over the remainder. -/
theorem length_sampleTimes_of_le (hmax : finish ≤ maxTime) (hle : max (samples : Int) 2 ≤ finish) :
    ∃ step : Int, 0 < step ∧ ((sampleTimes finish samples).length : Int) =
      max (samples : Int) 2 - 1 + (finish % (max (samples : Int) 2 - 1) / step +
        if step ∣ finish % (max (samples : Int) 2 - 1) then 1 else 2) := by
  generalize hgaps : max (samples : Int) 2 - 1 = gaps
  have hclamped : min (max (samples : Int) 2) maxTime - 1 = gaps := by omega
  have hpart : 1 ≤ finish / gaps := by
    rw [Int.le_ediv_iff_mul_le (by omega)]
    omega
  have hstep : stepFor finish samples = finish / gaps := by
    rw [stepFor, hclamped, Int.max_eq_left hpart]
  have hsplit : finish % gaps + finish / gaps * gaps = finish := Int.emod_add_ediv_mul finish gaps
  refine ⟨finish / gaps, by omega, ?_⟩
  rw [length_sampleTimes (by omega), hstep]
  generalize finish / gaps = step at hpart hsplit ⊢
  generalize finish % gaps = rest at hsplit ⊢
  have hquotient : finish / step = rest / step + gaps := by
    rw [← hsplit, Int.add_mul_ediv_left rest gaps (by omega)]
  have hdvd : step ∣ finish ↔ step ∣ rest := by
    rw [← hsplit]
    exact Int.dvd_add_left (Int.dvd_mul_right step gaps)
  rw [hquotient, if_congr hdvd rfl rfl]
  omega

/-- The steps over the remainder. -/
theorem times_left_over {rest step : Int} (hrest : 0 ≤ rest) (hstep : 0 < step) :
    ((rest / step + if step ∣ rest then 1 else 2) ≤ 1 ↔ rest = 0) ∧
      (rest / step + if step ∣ rest then 1 else 2) ≤ rest + 1 := by
  have hquotient : 0 ≤ rest / step := Int.ediv_nonneg hrest hstep.le
  have hle : rest / step ≤ step * (rest / step) := le_mul_of_one_le_left hquotient hstep
  have hsplit : rest % step + step * (rest / step) = rest := Int.emod_add_mul_ediv rest step
  have hmod : 0 ≤ rest % step := Int.emod_nonneg rest hstep.ne'
  split
  · next hdvd =>
    have hzero : rest % step = 0 := Int.emod_eq_zero_of_dvd hdvd
    refine ⟨⟨fun h => ?_, fun h => ?_⟩, by omega⟩
    · have hnone : rest / step = 0 := by omega
      rw [hnone] at hsplit
      omega
    · omega
  · next hdvd =>
    have hpos : rest % step ≠ 0 := fun h => hdvd (Int.dvd_of_emod_eq_zero h)
    omega

end Command

open Command (sampleTimes)

/-- `sampleTimes` is strictly increasing from 0 to `finish`. It keeps to the budget iff the timeline
is short or parts evenly, and is at most twice the number of parts otherwise. -/
theorem samples_span_timeline {finish : Int} (hf : 0 ≤ finish) (hmax : finish ≤ maxTime)
    (samples : Nat) :
    (sampleTimes finish samples).Pairwise (· < ·) ∧
      (sampleTimes finish samples).head? = some 0 ∧
      (sampleTimes finish samples).getLast? = some finish ∧
      (∀ t ∈ sampleTimes finish samples, 0 ≤ t ∧ t ≤ finish) ∧
      ((sampleTimes finish samples).length ≤ max samples 2 ↔
        finish < max (samples : Int) 2 ∨ max (samples : Int) 2 - 1 ∣ finish) ∧
      (sampleTimes finish samples).length ≤ 2 * (max samples 2 - 1) := by
  refine ⟨Command.pairwise_sampleTimes hf, Command.head?_sampleTimes hf,
    Command.getLast?_sampleTimes hf, fun t ht => ?_, ?_⟩
  · obtain ⟨h0, hle, -⟩ := (Command.mem_sampleTimes hf).mp ht
    exact ⟨h0, hle⟩
  · by_cases hlt : finish < max (samples : Int) 2
    · have hlength := Command.length_sampleTimes_of_lt hf hmax hlt
      exact ⟨iff_of_true (by omega) (.inl hlt), by omega⟩
    · obtain ⟨step, hstep, hlength⟩ := Command.length_sampleTimes_of_le hmax (not_lt.mp hlt)
      have hrest : 0 ≤ finish % (max (samples : Int) 2 - 1) := Int.emod_nonneg finish (by omega)
      have hshort : finish % (max (samples : Int) 2 - 1) < max (samples : Int) 2 - 1 :=
        Int.emod_lt_of_pos finish (by omega)
      obtain ⟨hone, hmany⟩ := Command.times_left_over hrest hstep
      rw [or_iff_right hlt, Int.dvd_iff_emod_eq_zero, ← hone]
      omega

/-- The default budget, with the least timelines that part evenly and that do not. -/
theorem samples_span_timeline_default :
    (sampleTimes 1022 512).length ≤ 512 ∧ ¬ (sampleTimes 1023 512).length ≤ 512 ∧
      (sampleTimes 1023 512).length ≤ 2 * 511 := by
  obtain ⟨-, -, -, -, heven, -⟩ :=
    samples_span_timeline (show (0 : Int) ≤ 1022 by decide) (by decide) 512
  obtain ⟨-, -, -, -, hodd, hmany⟩ :=
    samples_span_timeline (show (0 : Int) ≤ 1023 by decide) (by decide) 512
  exact ⟨heven.mpr (by decide), fun h => absurd (hodd.mp h) (by decide), hmany⟩

/-- Counterexample: four times for a budget of 3. -/
theorem samples_exceed_budget :
    sampleTimes 3 3 = [0, 1, 2, 3] ∧ ¬ (sampleTimes 3 3).length ≤ max 3 2 := by
  decide

end StackProfile
