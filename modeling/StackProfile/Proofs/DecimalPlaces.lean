import StackProfile.Proofs.DepthLiterals
import StackProfile.Proofs.NormalFloats

/-!
# Decimal places

`IsDecimal` is the grammar of numerals with decimal places, `Nearest` correct rounding. Quotients
are rounded twice, to 53 binary digits and to decimal places; `nearest_roundEven` says when that is
rounding once.
-/

namespace StackProfile

namespace Text

/-- Decimal numerals with `places` digits after the point, and no point for `places = 0`. -/
inductive IsDecimal : List Char → Nat → ℚ → Prop where
  | whole {ds : List Char} (nonempty : ds ≠ []) (digits : ∀ d ∈ ds, d.isDigit) :
      IsDecimal ds 0 (decimal ds)
  | point {ds fs : List Char} (nonempty : ds ≠ []) (places : fs ≠ [])
      (digits : ∀ d ∈ ds ++ fs, d.isDigit) :
      IsDecimal (ds ++ '.' :: fs) fs.length (decimal (ds ++ fs) / 10 ^ fs.length)

theorem IsDecimal.unique {cs : List Char} {places : Nat} {x y : ℚ} (hx : IsDecimal cs places x)
    (hy : IsDecimal cs places y) : x = y := by
  cases hx with
  | whole =>
    generalize hzero : 0 = count at hy
    cases hy with
    | whole => rfl
    | point _ hplaces _ => exact absurd (List.length_eq_zero_iff.mp hzero.symm) hplaces
  | @point ds fs _ hplaces _ =>
    generalize hcs : ds ++ '.' :: fs = cs, hcount : fs.length = count at hy
    cases hy with
    | whole => exact absurd (List.length_eq_zero_iff.mp hcount) hplaces
    | @point ds' fs' _ _ _ =>
      obtain ⟨rfl, htail⟩ := List.append_inj' hcs (congrArg (· + 1) hcount)
      rw [(List.cons.inj htail).2]

theorem isDigit_of_mem_toDigits {n : Nat} {c : Char} (h : c ∈ Nat.toDigits 10 n) : c.isDigit :=
  Nat.isDigit_of_mem_toDigits (by decide) (by decide) h

theorem decimal_padded (zeros n : Nat) :
    decimal (List.replicate zeros '0' ++ Nat.toDigits 10 n) = n := by
  have hread : decimal (List.replicate zeros '0' ++ Nat.toDigits 10 n) =
      Nat.ofDigitChars 10 (List.replicate zeros '0' ++ Nat.toDigits 10 n) 0 :=
    (foldl_eq_decimal _).symm
  rw [hread, Nat.ofDigitChars_append, Nat.ofDigitChars_replicate_zero, Nat.mul_zero,
    Nat.ofDigitChars_ten_toDigits]

end Text

namespace Binary64

/-! ## Texts with places -/

theorem isDecimal_withPoint (n places : Nat) :
    Text.IsDecimal (withPoint n places).toList places (n / 10 ^ places) := by
  let zeros := places + 1 - (Nat.toDigits 10 n).length
  let padded := List.replicate zeros '0' ++ Nat.toDigits 10 n
  have hlength : places < padded.length := by
    have := Nat.length_toDigits_pos (b := 10) (n := n)
    simp only [padded, zeros, List.length_append, List.length_replicate]
    omega
  have hdigits : ∀ d ∈ padded, d.isDigit := by
    intro d hd
    rcases List.mem_append.mp hd with hd | hd
    · rw [List.eq_of_mem_replicate hd]
      rfl
    · exact Text.isDigit_of_mem_toDigits hd
  have hvalue : Text.decimal padded = n := Text.decimal_padded zeros n
  let whole := padded.take (padded.length - places)
  let fraction := padded.drop (padded.length - places)
  have hsplit : whole ++ fraction = padded := List.take_append_drop ..
  have hnonempty : whole ≠ [] := by
    refine List.ne_nil_of_length_pos ?_
    rw [List.length_take]
    omega
  by_cases hplaces : places = 0
  · subst hplaces
    have hwhole : whole = padded := List.take_of_length_le (Nat.le_refl _)
    have htext : (withPoint n 0).toList = whole := String.toList_ofList
    have hdecimal := Text.IsDecimal.whole (hwhole ▸ hnonempty) hdigits
    rw [hvalue] at hdecimal
    rw [htext, hwhole, pow_zero, div_one]
    exact hdecimal
  · have htext : (withPoint n places).toList = whole ++ '.' :: fraction := by
      have hunfold : withPoint n places = String.ofList (whole ++ '.' :: fraction) := if_neg hplaces
      rw [hunfold, String.toList_ofList]
    have hcount : fraction.length = places := by
      rw [List.length_drop]
      omega
    have hdecimal := Text.IsDecimal.point hnonempty
      (List.ne_nil_of_length_pos (by omega)) (hsplit ▸ hdigits)
    rw [hcount, hsplit, hvalue] at hdecimal
    rw [htext]
    exact hdecimal

/-! ## Rounding twice -/

theorem abs_roundEven_sub_le (num : Nat) {den : Nat} (hd : 0 < den) :
    |2 * ((roundEven num den : ℤ) * den - num)| ≤ den := by
  obtain ⟨hle, hge⟩ := roundEven_nearest num hd
  zify at hle hge
  rw [abs_le]
  constructor <;> linarith

/-- `n` parts of a whole are `a / u`, up to half a part. -/
def Nearest (a u parts n : Nat) : Prop := |2 * ((n : ℤ) * u - a * parts)| ≤ u

section Nearest

variable {a u parts n f : Nat}

theorem Nearest.bounds (h : Nearest a u parts n) :
    2 * (n * u) ≤ 2 * (a * parts) + u ∧ 2 * (a * parts) ≤ 2 * (n * u) + u := by
  obtain ⟨hlower, hupper⟩ := abs_le.mp h
  zify
  constructor <;> linarith

theorem Nearest.abs_sub_le (h : Nearest a u parts n) (hu : 0 < u) (hparts : 0 < parts) :
    |(n : ℚ) / parts - a / u| ≤ 1 / (2 * parts) := by
  have hu' : (0 : ℚ) < u := by exact_mod_cast hu
  have hparts' : (0 : ℚ) < parts := by exact_mod_cast hparts
  have hcast : |2 * ((n : ℚ) * u - a * parts)| ≤ u := by
    have hle : ((|2 * ((n : ℤ) * u - a * parts)| : ℤ) : ℚ) ≤ (u : ℤ) := Int.cast_le.mpr h
    push_cast at hle
    exact hle
  have hsplit : (n : ℚ) / parts - a / u = 2 * ((n : ℚ) * u - a * parts) / (2 * parts * u) := by
    field_simp
  rw [hsplit, abs_div, abs_of_pos (show (0 : ℚ) < 2 * parts * u by positivity),
    div_le_div_iff₀ (by positivity) (by positivity), one_mul]
  calc |2 * ((n : ℚ) * u - a * parts)| * (2 * parts) ≤ u * (2 * parts) :=
        mul_le_mul_of_nonneg_right hcast (by positivity)
    _ = 2 * parts * u := by ring

theorem Nearest.le (h : Nearest a u parts n) (hlt : a < f * u) : n ≤ f * parts := by
  have hwhole : a * parts ≤ f * u * parts := Nat.mul_le_mul_right _ hlt.le
  by_contra hgt
  have hnext : (f * parts + 1) * u ≤ n * u := Nat.mul_le_mul_right _ (not_le.mp hgt)
  have hunit : (f * parts + 1) * u = f * u * parts + u := by ring
  have hpos : 0 < u := Nat.pos_of_ne_zero (by rintro rfl; simp at hlt)
  have := h.bounds.1
  omega

theorem Nearest.lt_iff (h : Nearest a u parts n) (hlt : a < f * u)
    (hhalf : 2 * (a * parts) + u = 2 * (f * u * parts) → n = f * parts) :
    n < f * parts ↔ 2 * (a * parts) + u < 2 * (f * u * parts) := by
  have hpos : 0 < u := Nat.pos_of_ne_zero (by rintro rfl; simp at hlt)
  obtain ⟨hupper, hlower⟩ := h.bounds
  have hscale : f * parts * u = f * u * parts := by ring
  constructor
  · intro hn
    have hnext : (n + 1) * u ≤ f * parts * u := Nat.mul_le_mul_right _ hn
    have hunit : (n + 1) * u = n * u + u := by ring
    have hne := mt hhalf hn.ne
    omega
  · intro hfar
    refine Nat.lt_of_mul_lt_mul_right (a := u) ?_
    omega

end Nearest

theorem abs_sub_le_of_rounded {a u parts m n d : ℤ} (hu : 0 ≤ u) (hparts : 0 ≤ parts) (hd : 0 ≤ d)
    (h : |2 * (n * d - m * parts)| ≤ d) :
    |2 * (n * u - a * parts)| * d ≤ u * d + parts * |2 * (m * u - a * d)| := by
  have hsplit : 2 * (n * u - a * parts) * d =
      u * (2 * (n * d - m * parts)) + parts * (2 * (m * u - a * d)) := by ring
  calc |2 * (n * u - a * parts)| * d = |2 * (n * u - a * parts) * d| := by
        rw [abs_mul _ d, abs_of_nonneg hd]
    _ ≤ |u * (2 * (n * d - m * parts))| + |parts * (2 * (m * u - a * d))| := by
        rw [hsplit]
        exact abs_add_le ..
    _ = u * |2 * (n * d - m * parts)| + parts * |2 * (m * u - a * d)| := by
        rw [abs_mul u, abs_mul parts, abs_of_nonneg hu, abs_of_nonneg hparts]
    _ ≤ u * d + parts * |2 * (m * u - a * d)| := by gcongr

/-- If half a part is a whole number of units, an error less than one unit above it is within it. -/
theorem nearest_of_abs_lt {a c parts n : Nat} (hparts : 0 < parts)
    (h : |2 * ((n : ℤ) * (2 * parts * c) - a * parts)| < 2 * parts * c + 2 * parts) :
    Nearest a (2 * parts * c) parts n := by
  have hnonneg : (0 : ℤ) ≤ 2 * parts := by positivity
  have hfactor : |2 * ((n : ℤ) * (2 * parts * c) - a * parts)| =
      2 * parts * |2 * n * c - (a : ℤ)| := by
    have hsplit : 2 * ((n : ℤ) * (2 * parts * c) - a * parts) = 2 * parts * (2 * n * c - a) := by
      ring
    rw [hsplit, abs_mul, abs_of_nonneg hnonneg]
  have hcount : |2 * n * c - (a : ℤ)| < c + 1 := by
    refine lt_of_mul_lt_mul_left ?_ hnonneg
    rw [← hfactor]
    linarith
  unfold Nearest
  push_cast
  rw [hfactor]
  exact mul_le_mul_of_nonneg_left (Int.lt_add_one_iff.mp hcount) hnonneg

/-- Double rounding, to 53 binary digits and then to decimal places, is single rounding if half a
place is a whole number or the first rounding is exact. -/
theorem nearest_roundEven {a u parts j : Nat} (hu : 0 < u) (hparts : 0 < parts)
    (hlow : 2 ^ 52 * u ≤ a * 2 ^ j) (ha : a < 2 ^ 53) (hunit : 2 * parts ∣ u ∨ u ∣ a * 2 ^ j) :
    Nearest a u parts (roundEven (roundEven (a * 2 ^ j) u * parts) (2 ^ j)) := by
  have hd : (0 : ℤ) < 2 ^ j := by positivity
  have hfirst := abs_roundEven_sub_le (a * 2 ^ j) hu
  have hsecond := abs_roundEven_sub_le (roundEven (a * 2 ^ j) u * parts) (Nat.two_pow_pos j)
  push_cast at hfirst hsecond
  have htotal := abs_sub_le_of_rounded (a := a) (Int.natCast_nonneg u) (Int.natCast_nonneg parts)
    hd.le hsecond
  rcases hunit with ⟨c, rfl⟩ | ⟨m, hm⟩
  · -- the first rounding is off by less than one of the base units
    have hulp : 2 * parts * c < 2 * 2 ^ j := by
      have : a * 2 ^ j < 2 ^ 53 * 2 ^ j := Nat.mul_lt_mul_of_pos_right ha (Nat.two_pow_pos j)
      omega
    refine nearest_of_abs_lt hparts (lt_of_mul_lt_mul_right ?_ hd.le)
    push_cast at hfirst htotal
    zify at hulp
    have hrest := mul_lt_mul_of_pos_left (hfirst.trans_lt hulp) (Int.natCast_pos.mpr hparts)
    linarith
  · have hexact : roundEven (a * 2 ^ j) u = m := by
      rw [hm, Nat.mul_comm u, roundEven_mul_right m hu]
    have hzero : (m : ℤ) * u - a * 2 ^ j = 0 := by
      zify at hm
      linarith
    rw [hexact] at htotal ⊢
    rw [hzero, mul_zero, abs_zero, mul_zero, add_zero] at htotal
    exact le_of_mul_le_mul_right htotal hd

/-- 999.95 rounds up to 1000 at one place: its nearest binary number lies above it. -/
theorem roundEven_below_thousand {c j : Nat} (hlow : 2 ^ 52 * (20 * c) ≤ 19999 * c * 2 ^ j)
    (hhigh : 19999 * c * 2 ^ j < 2 ^ 53 * (20 * c)) :
    roundEven (roundEven (19999 * c * 2 ^ j) (20 * c) * 10) (2 ^ j) = 1000 * 10 := by
  have hc : 0 < c := Nat.pos_of_ne_zero (by rintro rfl; simp at hhigh)
  have hplace : j = 43 := by
    have hle : 2 ^ 52 * 20 ≤ 19999 * 2 ^ j := Nat.le_of_mul_le_mul_right (by linarith) hc
    have hlt : 19999 * 2 ^ j < 2 ^ 53 * 20 := Nat.lt_of_mul_lt_mul_right (a := c) (by linarith)
    have hmin : 42 < j := (Nat.pow_lt_pow_iff_right (a := 2) (by decide)).mp (by omega)
    have hmax : j < 44 := (Nat.pow_lt_pow_iff_right (a := 2) (by decide)).mp (by omega)
    omega
  have hscale : roundEven (19999 * c * 2 ^ j) (20 * c) = roundEven (19999 * 2 ^ j) 20 := by
    have hnum : 19999 * c * 2 ^ j = c * (19999 * 2 ^ j) := by ring
    rw [hnum, Nat.mul_comm 20, roundEven_mul_left hc]
  rw [hscale, hplace]
  decide

end Binary64

end StackProfile
