import StackProfile.Saturate

/-!
# Saturated sums

Weights and starts are non-negative, so `satAdd` is `min maxTime` of the exact sum.
-/

namespace StackProfile

theorem maxTime_pos : 0 < maxTime := by decide

theorem satAdd_eq_min {a b : Int} (ha : 0 ≤ a) (hb : 0 ≤ b) : satAdd a b = min maxTime (a + b) := by
  unfold satAdd clampTime minTime maxTime; omega

theorem satAdd_of_le {a b : Int} (h0 : 0 ≤ a + b) (h1 : a + b ≤ maxTime) : satAdd a b = a + b := by
  unfold maxTime at h1
  unfold satAdd clampTime minTime maxTime; omega

theorem satAdd_le (a b : Int) : satAdd a b ≤ maxTime := by
  unfold satAdd clampTime minTime maxTime; omega

theorem le_satAdd {a b : Int} (ha : a ≤ maxTime) (hb : 0 ≤ b) : a ≤ satAdd a b := by
  unfold maxTime at ha
  unfold satAdd clampTime minTime maxTime; omega

theorem satAdd_nonneg {a b : Int} (ha : 0 ≤ a) (hb : 0 ≤ b) : 0 ≤ satAdd a b := by
  unfold satAdd clampTime minTime maxTime; omega

theorem satAdd_zero {a : Int} (h0 : 0 ≤ a) (h1 : a ≤ maxTime) : satAdd a 0 = a := by
  rw [satAdd_of_le] <;> omega

theorem satAdd_comm (a b : Int) : satAdd a b = satAdd b a := by
  rw [satAdd, satAdd, Int.add_comm]

theorem satAdd_assoc {a b c : Int} (ha : 0 ≤ a) (hb : 0 ≤ b) (hc : 0 ≤ c) :
    satAdd (satAdd a b) c = satAdd a (satAdd b c) := by
  rw [satAdd_eq_min (satAdd_nonneg ha hb) hc, satAdd_eq_min ha (satAdd_nonneg hb hc),
    satAdd_eq_min ha hb, satAdd_eq_min hb hc]
  omega

end StackProfile
