import Mathlib
import StackProfile.Binary64

/-!
# Normal numbers

`Parts` of a binary64 number: sign, 53-bit mantissa and exponent. Whole numbers below `2 ^ 53` are
exact and compare as such, and their quotient is rounded once.
-/

namespace StackProfile.Binary64

open Float.Model (Format UnpackedFloat totalExponent)
open Float.Model.UnpackedFloat

/-! ## Rounding to whole numbers -/

theorem roundEven_nearest (num : Nat) {den : Nat} (hd : 0 < den) :
    2 * (roundEven num den * den) ≤ 2 * num + den ∧
      2 * num ≤ 2 * (roundEven num den * den) + den := by
  have hsplit : num / den * den + num % den = num := Nat.div_add_mod' num den
  have hmod : num % den < den := Nat.mod_lt num hd
  have hround : roundEven num den = num / den ∧ 2 * (num % den) ≤ den ∨
      roundEven num den = num / den + 1 ∧ den ≤ 2 * (num % den) := by
    unfold roundEven
    dsimp only
    split
    · omega
    · split
      · omega
      · rcases Nat.mod_two_eq_zero_or_one (num / den) with h | h <;> omega
  rcases hround with ⟨h, hle⟩ | ⟨h, hle⟩
  · rw [h]
    omega
  · rw [h, Nat.add_mul, Nat.one_mul]
    omega

theorem le_roundEven (num den : Nat) : num / den ≤ roundEven num den := by
  unfold roundEven
  dsimp only
  split
  · omega
  · split <;> omega

theorem roundEven_mul_left {c : Nat} (hc : 0 < c) (num den : Nat) :
    roundEven (c * num) (c * den) = roundEven num den := by
  have htwice : 2 * (c * (num % den)) = c * (2 * (num % den)) := by ring
  simp only [roundEven, Nat.mul_div_mul_left _ _ hc, Nat.mul_mod_mul_left, htwice,
    Nat.mul_lt_mul_left hc]

theorem roundEven_one (n : Nat) : roundEven n 1 = n := by
  simp [roundEven, Nat.mod_one]

theorem roundEven_mul_right (n : Nat) {den : Nat} (hd : 0 < den) : roundEven (n * den) den = n := by
  have h := roundEven_mul_left hd n 1
  rwa [Nat.mul_one, Nat.mul_comm, roundEven_one] at h

/-! ## Extra bits of a mantissa -/

/-- The fraction that a mantissa with round and sticky bit stands for. -/
structure Represents (em : ExtendedMantissa) (num den : Nat) : Prop where
  mantissa : em.mantissa = num / den
  roundBit : em.roundBit = true ↔ den ≤ 2 * (num % den)
  stickyBit : em.stickyBit = true ↔ num % den ≠ 0 ∧ 2 * (num % den) ≠ den

section Represents

variable {em : ExtendedMantissa} {num den : Nat}

theorem represents_ofMantissaAndAccuracy (num : Nat) (hd : 0 < den) :
    Represents (.ofMantissaAndAccuracy (num / den) (accuracyOfFraction (num % den) den))
      num den := by
  unfold accuracyOfFraction
  split
  · next hzero => constructor <;> simp [ExtendedMantissa.ofMantissaAndAccuracy, hzero, hd.ne']
  · next hpos =>
    cases h : compare (2 * (num % den)) den with
    | lt =>
      have hlt := Nat.compare_eq_lt.mp h
      constructor <;> simp [ExtendedMantissa.ofMantissaAndAccuracy] <;> omega
    | eq =>
      have heq := Nat.compare_eq_eq.mp h
      constructor <;> simp [ExtendedMantissa.ofMantissaAndAccuracy] <;> omega
    | gt =>
      have hgt := Nat.compare_eq_gt.mp h
      constructor <;> simp [ExtendedMantissa.ofMantissaAndAccuracy] <;> omega

theorem Represents.roundedMantissa (h : Represents em num den) :
    em.roundedMantissa = roundEven num den := by
  obtain ⟨mantissa, roundBit, stickyBit⟩ := em
  obtain ⟨hmantissa, hround, hsticky⟩ := h
  dsimp only at hmantissa hround hsticky
  subst hmantissa
  cases roundBit <;> cases stickyBit <;>
    simp [ExtendedMantissa.roundedMantissa, ExtendedMantissa.accuracy, Accuracy.roundToNearestEven,
      roundEven] at hround hsticky ⊢ <;> grind

/-- A shift halves the fraction. -/
theorem Represents.shiftRightOne (h : Represents em num den) (hd : 0 < den) :
    Represents em.shiftRightOne num (2 * den) := by
  have hquotient : num / (2 * den) = num / den / 2 := by
    rw [Nat.mul_comm, Nat.div_div_eq_div_mul]
  have hrest : num % (2 * den) = num % den + num / den % 2 * den := by
    rw [Nat.mul_comm 2, Nat.mod_mul, Nat.mul_comm den]
  have hmod : num % den < den := Nat.mod_lt num hd
  have hround : em.shiftRightOne.roundBit = true ↔ num / den % 2 = 1 := by
    simp [ExtendedMantissa.shiftRightOne, h.mantissa]
  have hsticky : em.shiftRightOne.stickyBit = true ↔ num % den ≠ 0 := by
    simp only [ExtendedMantissa.shiftRightOne, Bool.or_eq_true, h.roundBit, h.stickyBit]
    omega
  refine ⟨by rw [ExtendedMantissa.shiftRightOne, hquotient, h.mantissa], ?_, ?_⟩
  · rw [hround, hrest]
    rcases Nat.mod_two_eq_zero_or_one (num / den) with hparity | hparity <;> rw [hparity] <;> omega
  · rw [hsticky, hrest]
    rcases Nat.mod_two_eq_zero_or_one (num / den) with hparity | hparity <;> rw [hparity] <;> omega

end Represents

/-! ## Normal numbers -/

structure IsMantissa (m : Nat) : Prop where
  low : 2 ^ 52 ≤ m
  high : m < 2 ^ 53

theorem IsMantissa.pos {m : Nat} (h : IsMantissa m) : 0 < m := Nat.lt_of_lt_of_le (by decide) h.low

theorem IsMantissa.log2_eq {m : Nat} (h : IsMantissa m) : m.log2 = 52 :=
  (Nat.log2_eq_iff h.pos.ne').mpr ⟨h.low, h.high⟩

def sign (negative : Bool) : Sign := if negative then .negative else .positive

/-- Sign, 53-bit mantissa and exponent of a finite number. -/
structure Parts (x : Float) (negative : Bool) (m : Nat) (e : Int) : Prop where
  mantissa : IsMantissa m
  unpack : ∀ hm, x.toModel.unpack = .finite (sign negative) m e hm

theorem toNat_append_mantissa (stored : BitVec 52) :
    (1#1 ++ stored).toNat = stored.toNat + 2 ^ 52 := by
  rw [BitVec.toNat_append, ← Nat.shiftLeft_add_eq_or_of_lt stored.isLt, Nat.add_comm]
  rfl

theorem parts_pack {negative : Bool} {m : Nat} {e : Int} (h : IsMantissa m) (hmin : -1074 ≤ e)
    (hmax : e ≤ 971) (hm : 0 < m) :
    Parts (.ofModel (.pack (.finite (sign negative) m e hm))) negative m e := by
  refine ⟨h, fun _ => ?_⟩
  have hlow := h.low
  have hhigh := h.high
  obtain ⟨biased, hbiased⟩ : ∃ b : Nat, (b : Int) = e + 1075 := ⟨(e + 1075).toNat, by omega⟩
  have hexponent : (BitVec.ofNat 11 biased).toNat = biased := by
    rw [BitVec.toNat_ofNat]
    omega
  have hmantissa : (1#1 ++ BitVec.ofNat 52 m).toNat = m := by
    rw [toNat_append_mantissa, BitVec.toNat_ofNat]
    omega
  have hpacked : UnpackedFloat.pack Format.binary64 (.finite (sign negative) m e hm) =
      packComponents Format.binary64 (sign negative) (.ofNat 11 biased) (.ofNat 52 m) := by
    have htoNat : (e + Format.binary64.exponentBias +
        Format.binary64.mantissaBitsWithoutImplicit).toNat = biased := by
      simp [Format.exponentBias]
      omega
    rw [UnpackedFloat.pack, htoNat, if_neg (by simp; omega), if_pos]
    rw [h.log2_eq]
    rfl
  have hbits : (Float.Model.pack (.finite (sign negative) m e hm)).unpack =
      UnpackedFloat.unpack Format.binary64
        (UnpackedFloat.pack Format.binary64 (.finite (sign negative) m e hm)) := rfl
  rw [hbits, hpacked]
  have hnotOnes : BitVec.ofNat 11 biased ≠ -1#11 := by
    rw [ne_eq, ← BitVec.toNat_inj, hexponent]
    simp
    omega
  have hnotZero : BitVec.ofNat 11 biased ≠ 0#11 := by
    rw [ne_eq, ← BitVec.toNat_inj, hexponent]
    simp
    omega
  simp only [UnpackedFloat.unpack, unpackMantissa_packComponents, unpackExponent_packComponents,
    unpackSign_packComponents, Sign.ofBitVec_toBitVec, hnotOnes, hnotZero, ↓reduceIte, hexponent,
    hmantissa]
  congr 1
  simp [Format.exponentBias]
  omega

/-! ## Rounding to a mantissa -/

theorem targetExponent_mantissa {m : Nat} {e : Int} (h : IsMantissa m) (hmin : -1074 ≤ e) :
    Format.binary64.targetExponent (totalExponent m e) = e := by
  simp only [Format.targetExponent, totalExponent, h.log2_eq, Format.mantissaBits,
    Format.minExponent]
  omega

theorem shiftToTargetExponent_mantissa {m : Nat} {e : Int} (a : Accuracy) (h : IsMantissa m)
    (hmin : -1074 ≤ e) :
    shiftToTargetExponent Format.binary64 m e a = (.ofMantissaAndAccuracy m a, e) := by
  rw [shiftToTargetExponent, targetExponent_mantissa h hmin, shiftToExponent, Int.sub_self]
  exact Prod.ext rfl (Int.add_zero e)

theorem shiftToTargetExponent_long {m : Nat} {e : Int} (a : Accuracy) (hlow : 2 ^ 53 ≤ m)
    (hhigh : m < 2 ^ 54) (hmin : -1074 ≤ e) : shiftToTargetExponent Format.binary64 m e a =
      ((ExtendedMantissa.ofMantissaAndAccuracy m a).shiftRightOne, e + 1) := by
  have hlog : m.log2 = 53 := (Nat.log2_eq_iff (by omega)).mpr ⟨hlow, hhigh⟩
  have htarget : Format.binary64.targetExponent (totalExponent m e) = e + 1 := by
    simp only [Format.targetExponent, totalExponent, hlog, Format.mantissaBits, Format.minExponent]
    omega
  rw [shiftToTargetExponent, htarget, shiftToExponent, add_sub_cancel_left]
  rfl

/-- A fraction is rounded once, to even. -/
theorem roundWithAccuracy_of_shift (s : Sign) {m num den : Nat} {e target : Int} {a : Accuracy}
    {em : ExtendedMantissa} (hshift : shiftToTargetExponent Format.binary64 m e a = (em, target))
    (hem : Represents em num den) (h : IsMantissa (roundEven num den)) (hmin : -1074 ≤ target) :
    roundWithAccuracy Format.binary64 s m e a = .finite s (roundEven num den) target h.pos := by
  rw [roundWithAccuracy, hshift]
  simp only [hem.roundedMantissa, shiftToTargetExponent_mantissa .exact h hmin,
    ExtendedMantissa.ofMantissaAndAccuracy, h.pos.ne', ↓reduceDIte]

/-! ## Whole numbers -/

/-- Whole numbers below `2 ^ 53` normalize by a left shift. -/
theorem exists_mantissa {n : Nat} (hpos : 0 < n) (hn : n < 2 ^ 53) :
    ∃ k ≤ 52, n.log2 + k = 52 ∧ IsMantissa (n * 2 ^ k) := by
  have hlog : n.log2 < 53 := (Nat.log2_lt hpos.ne').mpr hn
  obtain ⟨hlow, hhigh⟩ := (Nat.log2_eq_iff hpos.ne').mp (rfl : n.log2 = n.log2)
  refine ⟨52 - n.log2, by omega, by omega, ?_, ?_⟩
  · calc 2 ^ 52 = 2 ^ n.log2 * 2 ^ (52 - n.log2) := (pow_mul_pow_sub 2 (by omega)).symm
      _ ≤ n * 2 ^ (52 - n.log2) := Nat.mul_le_mul_right _ hlow
  · have hpow : 2 ^ (n.log2 + 1) * 2 ^ (52 - n.log2) = 2 ^ 53 := by
      rw [← Nat.pow_add]
      congr 1
      omega
    calc n * 2 ^ (52 - n.log2) < 2 ^ (n.log2 + 1) * 2 ^ (52 - n.log2) :=
          Nat.mul_lt_mul_of_pos_right hhigh (Nat.two_pow_pos _)
      _ = 2 ^ 53 := hpow

theorem parts_ofNat {n : Nat} (hpos : 0 < n) (hn : n < 2 ^ 53) :
    ∃ k : Nat, k ≤ 52 ∧ Parts n.toUInt64.toFloat false (n * 2 ^ k) (-k) := by
  obtain ⟨k, hk, hlog, hmantissa⟩ := exists_mantissa hpos hn
  have htarget : Format.binary64.targetExponent (totalExponent n 0) = -k := by
    simp only [Format.targetExponent, totalExponent, Format.mantissaBits, Format.minExponent]
    omega
  have hexact : roundEven (n * 2 ^ k) 1 = n * 2 ^ k := roundEven_one _
  have hrepresents : Represents (.ofMantissaAndAccuracy (n * 2 ^ k) .exact) (n * 2 ^ k) 1 := by
    simpa [Nat.mod_one, accuracyOfFraction] using
      represents_ofMantissaAndAccuracy (n * 2 ^ k) Nat.one_pos
  have hround : UnpackedFloat.round Format.binary64 .positive n 0 =
      .finite (sign false) (n * 2 ^ k) (-k) hmantissa.pos := by
    have hshift : decreaseExponent n 0 (-k) = (n * 2 ^ k, (-k : Int)) := by
      simp [decreaseExponent, Nat.shiftLeft_eq]
    have hrounded := roundWithAccuracy_of_shift .positive
      (shiftToTargetExponent_mantissa _ hmantissa (by omega)) hrepresents (hexact.symm ▸ hmantissa)
      (show (-1074 : Int) ≤ -k by omega)
    simp only [hexact] at hrounded
    rw [UnpackedFloat.round, htarget, hshift]
    exact hrounded
  have hnormal : UnpackedFloat.normalize Format.binary64 n 0 .positive =
      .finite (sign false) (n * 2 ^ k) (-k) hmantissa.pos := by
    rw [UnpackedFloat.normalize, Int.compare_eq_gt.mpr (by omega)]
    exact hround
  have hfloat : n.toUInt64.toFloat =
      .ofModel (.pack (UnpackedFloat.normalize Format.binary64 n.toUInt64.toNat 0 .positive)) := rfl
  have htoNat : n.toUInt64.toNat = n := by
    simp
    omega
  rw [hfloat, htoNat, hnormal]
  exact ⟨k, hk, parts_pack hmantissa (by omega) (by omega) _⟩

theorem Parts.abs {x : Float} {negative : Bool} {m : Nat} {e : Int} (h : Parts x negative m e)
    (hmin : -1074 ≤ e) (hmax : e ≤ 971) : Parts x.abs false m e := by
  have habs : x.abs = .ofModel (.pack (.finite (sign false) m e h.mantissa.pos)) := by
    rw [Float.abs, Float.Model.abs, h.unpack h.mantissa.pos]
    rfl
  rw [habs]
  exact parts_pack h.mantissa hmin hmax _

theorem Parts.neg {x : Float} {m : Nat} {e : Int} (h : Parts x false m e) (hmin : -1074 ≤ e)
    (hmax : e ≤ 971) : Parts (-x) true m e := by
  have hneg : -x = .ofModel (.pack (.finite (sign true) m e h.mantissa.pos)) := by
    show Float.ofModel (.pack x.toModel.unpack.neg) = _
    rw [h.unpack h.mantissa.pos]
    rfl
  rw [hneg]
  exact parts_pack h.mantissa hmin hmax _

/-- Whole numbers below `2 ^ 53` are exact. -/
theorem parts_ofInt {v : Int} (h0 : v ≠ 0) (hv : v.natAbs < 2 ^ 53) :
    ∃ k : Nat, k ≤ 52 ∧ Parts (ofInt v) (decide (v < 0)) (v.natAbs * 2 ^ k) (-k) := by
  obtain ⟨k, hk, hparts⟩ := parts_ofNat (by omega) hv
  refine ⟨k, hk, ?_⟩
  unfold ofInt
  split
  · next hneg =>
    rw [decide_eq_true hneg]
    exact hparts.neg (by omega) (by omega)
  · next hneg =>
    rw [decide_eq_false hneg]
    exact hparts

/-! ## Comparison and division -/

theorem le_iff_unpack (x y : Float) :
    x ≤ y ↔ (x.toModel.unpack.le y.toModel.unpack) = true := by
  change (decide ((x.toModel.unpack.le y.toModel.unpack) = true) = true) ↔ _
  rw [decide_eq_true_eq]

theorem Parts.le_iff {x y : Float} {m n : Nat} {e f : Int} (hx : Parts x false m e)
    (hy : Parts y false n f) : x ≤ y ↔ e < f ∨ e = f ∧ m ≤ n := by
  have hcompare : (UnpackedFloat.finite (sign false) m e hx.mantissa.pos).le
      (.finite (sign false) n f hy.mantissa.pos) = ((compare e f).then (compare m n)).isLE := rfl
  rw [le_iff_unpack, hx.unpack hx.mantissa.pos, hy.unpack hy.mantissa.pos, hcompare]
  rcases lt_trichotomy e f with h | h | h
  · simp [Int.compare_eq_lt.mpr h, h]
  · simp [h, Nat.isLE_compare]
  · rw [Int.compare_eq_gt.mpr h]
    simp
    omega

theorem Parts.div_eq {x y : Float} {s t : Bool} {m n : Nat} {e f : Int} (hx : Parts x s m e)
    (hy : Parts y t n f) (hmin : -1021 ≤ e - f) :
    x / y = .ofModel (.pack (roundWithAccuracy Format.binary64 (sign (s ^^ t)) (m * 2 ^ 53 / n)
      (e - f - 53) (accuracyOfFraction (m * 2 ^ 53 % n) n))) := by
  have hcore : divCore Format.binary64 m e n f =
      (m * 2 ^ 53 / n, e - f - 53, accuracyOfFraction (m * 2 ^ 53 % n) n) := by
    have htarget : Format.binary64.targetExponent (totalExponent m e - totalExponent n f) =
        e - f - 53 := by
      simp only [Format.targetExponent, totalExponent, hx.mantissa.log2_eq, hy.mantissa.log2_eq,
        Format.mantissaBits, Format.minExponent]
      omega
    have hleast : min (e - f) (e - f - 53) = e - f - 53 := by omega
    have hshift : (e - f - (e - f - 53)).toNat = 53 := by omega
    rw [divCore, htarget, hleast, hshift, Nat.shiftLeft_eq]
  have hsign : sign s / sign t = sign (s ^^ t) := by cases s <;> cases t <;> rfl
  have hdiv : x / y = .ofModel (.pack (UnpackedFloat.div Format.binary64 x.toModel.unpack
    y.toModel.unpack)) := rfl
  rw [hdiv, hx.unpack hx.mantissa.pos, hy.unpack hy.mantissa.pos, UnpackedFloat.div, hcore, hsign]

theorem isMantissa_roundEven {num den : Nat} (hd : 0 < den) (hlow : 2 ^ 52 * den ≤ num)
    (hhigh : 2 * num + den < 2 ^ 54 * den) : IsMantissa (roundEven num den) := by
  have hwhole : 2 ^ 52 ≤ num / den := (Nat.le_div_iff_mul_le hd).mpr hlow
  refine ⟨hwhole.trans (le_roundEven num den), Nat.lt_of_mul_lt_mul_right (a := den) ?_⟩
  have := (roundEven_nearest num hd).1
  omega

/-- Division rounds once to 53 binary digits, one place lower if the dividend has the smaller
mantissa. -/
theorem Parts.div {x y : Float} {s t : Bool} {m n : Nat} {e f : Int} (hx : Parts x s m e)
    (hy : Parts y t n f) (hmin : -1021 ≤ e - f) (hmax : e - f ≤ 971) :
    ∃ j : Nat, 52 ≤ j ∧ j ≤ 53 ∧ 2 ^ 52 * n ≤ m * 2 ^ j ∧ m * 2 ^ j < 2 ^ 53 * n ∧
      Parts (x / y) (s ^^ t) (roundEven (m * 2 ^ j) n) (e - f - j) := by
  obtain ⟨hmlow, hmhigh⟩ := hx.mantissa
  obtain ⟨hnlow, hnhigh⟩ := hy.mantissa
  have hn : 0 < n := hy.mantissa.pos
  have hrepresents := represents_ofMantissaAndAccuracy (m * 2 ^ 53) hn
  rw [hx.div_eq hy hmin]
  rcases Nat.lt_or_ge m n with hlt | hge
  · have hwhole : IsMantissa (m * 2 ^ 53 / n) :=
      ⟨(Nat.le_div_iff_mul_le hn).mpr (by omega), (Nat.div_lt_iff_lt_mul hn).mpr (by omega)⟩
    have hrounded : IsMantissa (roundEven (m * 2 ^ 53) n) :=
      isMantissa_roundEven hn (by omega) (by omega)
    rw [roundWithAccuracy_of_shift _ (shiftToTargetExponent_mantissa _ hwhole (by omega))
      hrepresents hrounded (by omega)]
    exact ⟨53, by decide, by decide, by omega, by omega,
      parts_pack hrounded (by omega) (by omega) _⟩
  · have hlong : 2 ^ 53 ≤ m * 2 ^ 53 / n := (Nat.le_div_iff_mul_le hn).mpr (by omega)
    have hshort : m * 2 ^ 53 / n < 2 ^ 54 := (Nat.div_lt_iff_lt_mul hn).mpr (by omega)
    have hscale : roundEven (m * 2 ^ 53) (2 * n) = roundEven (m * 2 ^ 52) n := by
      rw [← roundEven_mul_left (c := 2) (by decide) (m * 2 ^ 52)]
      congr 1
      omega
    have hrounded : IsMantissa (roundEven (m * 2 ^ 52) n) :=
      isMantissa_roundEven hn (by omega) (by omega)
    rw [roundWithAccuracy_of_shift _ (shiftToTargetExponent_long _ hlong hshort (by omega))
      (hrepresents.shiftRightOne hn) (hscale.symm ▸ hrounded) (by omega)]
    refine ⟨52, by decide, by decide, by omega, by omega, ?_⟩
    have hexponent : e - f - ((52 : Nat) : Int) = e - f - 53 + 1 := by
      rw [Nat.cast_ofNat]
      omega
    simp only [hscale]
    rw [hexponent]
    exact parts_pack hrounded (by omega) (by omega) _

/-! ## Reading the bits -/

theorem unpackMantissa_toNat (x : Float) :
    (@unpackMantissa Format.binary64 x.toModel.toBits.toBitVec).toNat =
      x.toBits.toNat % 2 ^ 52 := by
  simp [unpackMantissa, Float.toBits]

theorem unpackExponent_toNat (x : Float) :
    (@unpackExponent Format.binary64 x.toModel.toBits.toBitVec).toNat =
      x.toBits.toNat / 2 ^ 52 % 2 ^ 11 := by
  simp [unpackExponent, Float.toBits, Nat.shiftRight_eq_div_pow]

theorem ofBitVec_unpackSign (x : Float) :
    Sign.ofBitVec (@unpackSign Format.binary64 x.toModel.toBits.toBitVec) =
      sign (decide (x.toBits.toNat / 2 ^ 63 = 1)) := by
  have hbits : x.toBits.toNat < 2 ^ 64 := x.toBits.toNat_lt
  have htoNat : (@unpackSign Format.binary64 x.toModel.toBits.toBitVec).toNat =
      x.toBits.toNat / 2 ^ 63 := by
    simp only [unpackSign, BitVec.toNat_cast, BitVec.extractLsb_toNat, Nat.shiftRight_eq_div_pow]
    change x.toBits.toNat / 2 ^ 63 % 2 ^ 1 = _
    omega
  have hzero : @unpackSign Format.binary64 x.toModel.toBits.toBitVec = 0#1 ↔
      ¬ x.toBits.toNat / 2 ^ 63 = 1 := by
    rw [← BitVec.toNat_inj, htoNat, BitVec.toNat_ofNat]
    omega
  rw [Sign.ofBitVec, if_congr hzero rfl rfl, sign]
  by_cases h : x.toBits.toNat / 2 ^ 63 = 1
  · rw [if_neg (not_not.mpr h), decide_eq_true h, if_pos rfl]
  · rw [if_pos h, decide_eq_false h, if_neg Bool.false_ne_true]

theorem sign_injective {a b : Bool} (h : sign a = sign b) : a = b := by
  cases a <;> cases b <;> first | rfl | cases h

theorem Parts.bits {x : Float} {negative : Bool} {m : Nat} {e : Int} (h : Parts x negative m e) :
    x.toBits.toNat / 2 ^ 52 % 2 ^ 11 ≠ 2047 ∧ x.toBits.toNat / 2 ^ 52 % 2 ^ 11 ≠ 0 ∧
      x.toBits.toNat % 2 ^ 52 + 2 ^ 52 = m ∧
      ((x.toBits.toNat / 2 ^ 52 % 2 ^ 11 : Nat) : Int) - 1075 = e ∧
      decide (x.toBits.toNat / 2 ^ 63 = 1) = negative := by
  have hlow := h.mantissa.low
  have hunpack := h.unpack h.mantissa.pos
  have hmantissa := unpackMantissa_toNat x
  have hexponent := unpackExponent_toNat x
  rw [Float.Model.unpack, UnpackedFloat.unpack] at hunpack
  dsimp only at hunpack
  split at hunpack
  · split at hunpack <;> cases hunpack
  · next hones =>
    split at hunpack
    · split at hunpack
      · cases hunpack
      · -- a number without the first digit is too small
        injection hunpack with _ heq _
        omega
    · next hzero =>
      injection hunpack with hs heq hexp
      rw [← BitVec.toNat_inj, hexponent] at hones hzero
      refine ⟨hones, hzero, ?_, ?_, ?_⟩
      · rw [← heq, ← hmantissa]
        exact (toNat_append_mantissa _).symm
      · rw [← hexp, hexponent]
        rfl
      · exact sign_injective ((ofBitVec_unpackSign x).symm.trans hs)

theorem Parts.ratio? {x : Float} {negative : Bool} {m : Nat} {e : Int} (h : Parts x negative m e)
    (he : e ≤ 0) : ratio? x = some ⟨negative, m, 2 ^ (-e).toNat⟩ := by
  obtain ⟨hones, hzero, rfl, rfl, rfl⟩ := h.bits
  unfold Binary64.ratio?
  dsimp only
  rw [if_neg (show ¬ x.toBits.toNat / Nat.pow 2 52 % Nat.pow 2 11 = 2047 from hones),
    if_neg (show ¬ x.toBits.toNat / Nat.pow 2 52 % Nat.pow 2 11 = 0 from hzero)]
  change (if x.toBits.toNat / 2 ^ 52 % 2 ^ 11 < 1075 then _ else _) = _
  generalize x.toBits.toNat / 2 ^ 52 % 2 ^ 11 = exponent at he ⊢
  split
  · have hden : (-((exponent : Int) - 1075)).toNat = 1075 - exponent := by omega
    rw [hden]
    rfl
  · obtain rfl : exponent = 1075 := by omega
    exact congrArg (fun num => some (Ratio.mk _ num 1)) (Nat.mul_one _)

/-! ## Quotients of whole numbers -/

theorem ratio?_ofInt {v : Int} (hv : v.natAbs < 2 ^ 53) :
    ∃ den, 0 < den ∧ Binary64.ratio? (ofInt v) = some ⟨decide (v < 0), v.natAbs * den, den⟩ := by
  by_cases h0 : v = 0
  · subst h0
    obtain ⟨den, hden, hpos⟩ : ∃ den, Nat.pow 2 1074 = den ∧ 0 < den := by
      generalize 1074 = n
      exact ⟨_, rfl, Nat.two_pow_pos n⟩
    refine ⟨den, hpos, ?_⟩
    rw [Int.natAbs_zero, Nat.zero_mul, ← hden]
    rfl
  · obtain ⟨k, hk, hparts⟩ := parts_ofInt h0 hv
    refine ⟨2 ^ k, Nat.two_pow_pos k, ?_⟩
    rw [hparts.ratio? (by omega), Int.neg_neg, Int.toNat_natCast]

theorem shifted_lt {a b k l : Nat} (ha : IsMantissa (a * 2 ^ k)) (hb : IsMantissa (b * 2 ^ l))
    (h : l < k) : a < b := by
  obtain ⟨d, rfl⟩ := Nat.exists_eq_add_of_lt h
  refine Nat.lt_of_mul_lt_mul_right (a := 2 ^ (l + 1)) ?_
  have hpow : 2 ^ (l + d + 1) = 2 ^ (l + 1) * 2 ^ d := by
    rw [← Nat.pow_add]
    congr 1
    omega
  calc a * 2 ^ (l + 1) ≤ a * 2 ^ (l + 1) * 2 ^ d := Nat.le_mul_of_pos_right _ (Nat.two_pow_pos d)
    _ = a * 2 ^ (l + d + 1) := by rw [hpow, Nat.mul_assoc]
    _ < 2 ^ 53 := ha.high
    _ ≤ b * 2 ^ l * 2 := Nat.mul_le_mul_right 2 hb.low
    _ = b * 2 ^ (l + 1) := by rw [Nat.mul_assoc, ← Nat.pow_succ]

theorem shifted_le_iff {a b k l : Nat} (hk : IsMantissa (a * 2 ^ k)) (hl : IsMantissa (b * 2 ^ l)) :
    (-(k : Int) < -l ∨ -(k : Int) = -l ∧ a * 2 ^ k ≤ b * 2 ^ l) ↔ a ≤ b := by
  rcases lt_trichotomy k l with h | rfl | h
  · have := shifted_lt hl hk h
    omega
  · simp only [lt_irrefl, false_or, true_and, Nat.mul_le_mul_right_iff (Nat.two_pow_pos k)]
  · have := shifted_lt hk hl h
    omega

theorem ofInt_le_abs_ofInt {u : Nat} (hpos : 0 < u) (hu : u < 2 ^ 53) {v : Int}
    (hv : v.natAbs < 2 ^ 53) : ofInt u ≤ (ofInt v).abs ↔ u ≤ v.natAbs := by
  obtain ⟨k, hk, hunit⟩ := parts_ofInt (v := u) (by omega) (by simpa using hu)
  rw [decide_eq_false (by omega), Int.natAbs_natCast] at hunit
  by_cases h0 : v = 0
  · subst h0
    refine iff_of_false ?_ (by omega)
    have hzero : (ofInt 0).abs.toModel.unpack = .zero .positive := rfl
    rw [le_iff_unpack, hunit.unpack hunit.mantissa.pos, hzero]
    exact Bool.false_ne_true
  · obtain ⟨l, hl, hparts⟩ := parts_ofInt h0 hv
    have habs := hparts.abs (by omega) (by omega)
    rw [hunit.le_iff habs]
    exact shifted_le_iff hunit.mantissa habs.mantissa

/-- Division of whole numbers below `2 ^ 53`, as a rounded fraction. -/
theorem ratio?_ofInt_div {v : Int} (h0 : v ≠ 0) (hv : v.natAbs < 2 ^ 53) {u : Nat} (hu : 0 < u)
    (hu' : u < 2 ^ 53) :
    ∃ j, 2 ^ 52 * u ≤ v.natAbs * 2 ^ j ∧ v.natAbs * 2 ^ j < 2 ^ 53 * u ∧
      Binary64.ratio? (ofInt v / ofInt u) =
        some ⟨decide (v < 0), roundEven (v.natAbs * 2 ^ j) u, 2 ^ j⟩ := by
  obtain ⟨k, hk, hparts⟩ := parts_ofInt h0 hv
  obtain ⟨l, hl, hunit⟩ := parts_ofInt (v := u) (by omega) (by simpa using hu')
  obtain ⟨i, hi52, hi53, hlow, hhigh, hquotient⟩ := hparts.div hunit (by omega) (by omega)
  rw [Int.natAbs_natCast] at hlow hhigh hquotient
  have hsplit : v.natAbs * 2 ^ k * 2 ^ i = 2 ^ l * (v.natAbs * 2 ^ (k + i - l)) := by
    have hpow : 2 ^ k * 2 ^ i = 2 ^ l * 2 ^ (k + i - l) := by
      rw [← pow_add, pow_mul_pow_sub 2 (by omega)]
    rw [Nat.mul_assoc, hpow]
    ring
  have hscale : ∀ c, c * (u * 2 ^ l) = 2 ^ l * (c * u) := fun c => by ring
  rw [hsplit, hscale] at hlow hhigh
  refine ⟨k + i - l, Nat.le_of_mul_le_mul_left hlow (Nat.two_pow_pos l),
    Nat.lt_of_mul_lt_mul_left hhigh, ?_⟩
  have hnegative : (decide (v < 0) ^^ decide ((u : Int) < 0)) = decide (v < 0) := by
    have : ¬ (u : Int) < 0 := by omega
    simp [this]
  have hnum : roundEven (v.natAbs * 2 ^ k * 2 ^ i) (u * 2 ^ l) =
      roundEven (v.natAbs * 2 ^ (k + i - l)) u := by
    rw [hsplit, Nat.mul_comm u, roundEven_mul_left (Nat.two_pow_pos l)]
  have hden : (-(-(k : Int) - -(l : Int) - i)).toNat = k + i - l := by omega
  rw [hquotient.ratio? (by omega), hnegative, hnum, hden]

end StackProfile.Binary64
