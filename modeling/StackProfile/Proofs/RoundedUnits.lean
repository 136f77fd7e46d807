import StackProfile.Metric
import StackProfile.Proofs.DecimalPlaces

/-!
# Units of formatted values

Formatting selects the largest unit that a value reaches and rounds afterwards, so a value short of
the next unit by half a place or less is shown as the factor to it.
-/

namespace StackProfile

open Binary64 (ofInt ratio? toFixed withPoint roundEven)

/-- A unit: factor to the base unit, name, and decimal places. -/
structure MeasureUnit where
  factor : Nat
  name : String
  places : Nat
  deriving DecidableEq, Repr

namespace MeasureUnit

def scale (u : MeasureUnit) : Quantity.Scale := ⟨ofInt u.factor, u.name, u.places⟩

/-- Rounding once is exact enough: half a place is a whole number, or the factor
is a power of two. -/
def Precise (u : MeasureUnit) : Prop := 2 * 10 ^ u.places ∣ u.factor ∨ ∃ i, u.factor = 2 ^ i

/-- The factor of `u` divides that of `w`; if half a place of `u` is a whole number, `u` has one
place and `w` is a thousand of it. -/
def Follows (u w : MeasureUnit) : Prop :=
  u.factor ∣ w.factor ∧
    (2 * 10 ^ u.places ∣ u.factor → u.places = 1 ∧ w.factor = 1000 * u.factor)

instance (u w : MeasureUnit) : Decidable (Follows u w) := inferInstanceAs (Decidable (_ ∧ _))

/-- `count` places are nearest to `magnitude`; 999.95 is shown as 1000. -/
structure Shows (u : MeasureUnit) (magnitude count : Nat) : Prop where
  nearest : Binary64.Nearest magnitude u.factor (10 ^ u.places) count
  thousand : u.places = 1 → ∀ c, u.factor = 20 * c → magnitude = 19999 * c → count = 1000 * 10

end MeasureUnit

namespace Quantity

def bytesUnits : List MeasureUnit :=
  [⟨1, " B", 0⟩, ⟨2 ^ 10, " KiB", 1⟩, ⟨2 ^ 20, " MiB", 1⟩, ⟨2 ^ 30, " GiB", 1⟩, ⟨2 ^ 40, " TiB", 1⟩]

def units : Quantity → List MeasureUnit
  | number =>
    [⟨1, "", 0⟩, ⟨10 ^ 3, " k", 1⟩, ⟨10 ^ 6, " M", 1⟩, ⟨10 ^ 9, " G", 1⟩, ⟨10 ^ 12, " T", 1⟩]
  | nanoseconds => [⟨1, "ns", 0⟩, ⟨10 ^ 3, "µs", 1⟩, ⟨10 ^ 6, "ms", 1⟩, ⟨10 ^ 9, "s", 2⟩]
  | bytes => bytesUnits
  | bytesPerSecond => bytesUnits.map fun u => { u with name := u.name ++ "/s" }
  | other => []

end Quantity

namespace Binary64

variable {v : Int}

def minus (v : Int) : String := if v < 0 then "-" else ""

theorem toFixed_ofInt (hv : v.natAbs < 2 ^ 53) :
    toFixed 0 (ofInt v) = minus v ++ withPoint v.natAbs 0 := by
  obtain ⟨den, hden, hratio⟩ := ratio?_ofInt hv
  have hround : roundEven (v.natAbs * den * Nat.pow 10 0) den = v.natAbs := by
    rw [Nat.pow_eq, Nat.pow_zero, Nat.mul_one, roundEven_mul_right _ hden]
  rw [toFixed, hratio]
  simp only [hround, decide_eq_true_eq, minus]

theorem isIntegral_ofInt (hv : v.natAbs < 2 ^ 53) : isIntegral (ofInt v) = true := by
  obtain ⟨den, hden, hratio⟩ := ratio?_ofInt hv
  rw [isIntegral, hratio]
  simp only [Nat.mul_mod_left, BEq.rfl]

theorem toFixed_quotient (h0 : v ≠ 0) (hv : v.natAbs < 2 ^ 53) {u : MeasureUnit}
    (hpos : 0 < u.factor) (hu : u.factor < 2 ^ 53) (hprecise : u.Precise) :
    ∃ n, toFixed u.places (ofInt v / ofInt u.factor) = minus v ++ withPoint n u.places ∧
      u.Shows v.natAbs n := by
  obtain ⟨j, hlow, hhigh, hratio⟩ := ratio?_ofInt_div h0 hv hpos hu
  have hunit : 2 * 10 ^ u.places ∣ u.factor ∨ u.factor ∣ v.natAbs * 2 ^ j := by
    refine hprecise.imp_right ?_
    rintro ⟨i, hi⟩
    rw [hi] at hlow ⊢
    -- a value of 53 digits at most takes more than `i` places to have 53 above the factor
    have hlt : 2 ^ 52 * 2 ^ i < 2 ^ 53 * 2 ^ j :=
      hlow.trans_lt (Nat.mul_lt_mul_of_pos_right hv (Nat.two_pow_pos j))
    rw [← Nat.pow_add, ← Nat.pow_add, Nat.pow_lt_pow_iff_right (by decide)] at hlt
    exact (Nat.pow_dvd_pow 2 (by omega)).mul_left _
  refine ⟨_, ?_, nearest_roundEven hpos (Nat.pow_pos (by decide)) hlow hv hunit, ?_⟩
  · rw [toFixed, hratio]
    simp only [decide_eq_true_eq, minus, Nat.pow_eq]
  · intro hplaces c hc hv
    rw [hc, hv] at hlow hhigh ⊢
    rw [hplaces]
    exact roundEven_below_thousand hlow hhigh

end Binary64

namespace Quantity

open Binary64 (minus)
open MeasureUnit (Follows)

variable {v : Int} {q : Quantity}

/-! ## The units of a quantity -/

theorem precise_of_mem_units {u : MeasureUnit} (h : u ∈ q.units) :
    0 < u.factor ∧ u.factor < 2 ^ 53 ∧ u.Precise := by
  have hunits : ∀ w ∈ q.units, 0 < w.factor ∧ w.factor < 2 ^ 53 ∧
      (2 * 10 ^ w.places ∣ w.factor ∨ ∃ k ≤ 4, w.factor = 2 ^ (10 * k)) := by
    cases q <;> decide
  obtain ⟨hpos, hlt, hprecise⟩ := hunits u h
  exact ⟨hpos, hlt, hprecise.imp_right fun ⟨k, _, hk⟩ => ⟨10 * k, hk⟩⟩

theorem decimalScales_eq : decimalScales = number.units.tail.reverse.map MeasureUnit.scale := by
  rfl

theorem durationScales_eq :
    durationScales = nanoseconds.units.tail.reverse.map MeasureUnit.scale := by
  rfl

theorem byteScales_eq : byteScales = bytes.units.tail.reverse.map MeasureUnit.scale := by
  rfl

theorem isChain_units (q : Quantity) : q.units.IsChain Follows := by
  cases q <;> decide

/-! ## The unit that a value is written in -/

/-- `text` shows `v` in the largest unit reached, or in the first. -/
def ShownIn (us : List MeasureUnit) (v : Int) (text : String) : Prop :=
  ∃ (lower : List MeasureUnit) (u : MeasureUnit) (higher : List MeasureUnit) (n : Nat),
    us = lower ++ u :: higher ∧ (lower = [] ∨ u.factor ≤ v.natAbs) ∧
      (∀ w ∈ higher, v.natAbs < w.factor) ∧
      text = minus v ++ withPoint n u.places ++ u.name ∧ u.Shows v.natAbs n

/-- `scaled` tries the largest unit first. -/
theorem scaled_cases (base : Float → String) (hv : v.natAbs < 2 ^ 53) {us : List MeasureUnit}
    (hus : ∀ u ∈ us, 0 < u.factor ∧ u.factor < 2 ^ 53) :
    (scaled base (ofInt v) (us.map MeasureUnit.scale) = base (ofInt v) ∧
        ∀ u ∈ us, v.natAbs < u.factor) ∨
      ∃ (higher : List MeasureUnit) (u : MeasureUnit) (lower : List MeasureUnit),
        us = higher ++ u :: lower ∧ u.factor ≤ v.natAbs ∧
        (∀ w ∈ higher, v.natAbs < w.factor) ∧
        scaled base (ofInt v) (us.map MeasureUnit.scale) =
          toFixed u.places (ofInt v / ofInt u.factor) ++ u.name := by
  induction us with
  | nil => exact .inl ⟨rfl, List.forall_mem_nil _⟩
  | cons u us ih =>
    obtain ⟨hpos, hu⟩ := hus u List.mem_cons_self
    have hreached : (u.scale.factor ≤ (ofInt v).abs) ↔ u.factor ≤ v.natAbs :=
      Binary64.ofInt_le_abs_ofInt hpos hu hv
    rw [List.map_cons, scaled, if_congr hreached rfl rfl]
    split
    · next h => exact .inr ⟨[], u, us, rfl, h, List.forall_mem_nil _, rfl⟩
    · next h =>
      rcases ih fun w hw => hus w (List.mem_cons_of_mem _ hw) with
        ⟨htext, hall⟩ | ⟨higher, w, lower, rfl, hw, hall, htext⟩
      · exact .inl ⟨htext, List.forall_mem_cons.mpr ⟨not_le.mp h, hall⟩⟩
      · exact .inr ⟨u :: higher, w, lower, rfl, hw,
          List.forall_mem_cons.mpr ⟨not_le.mp h, hall⟩, htext⟩

theorem shownIn_scaled {base : Float → String} {first : MeasureUnit} {larger : List MeasureUnit}
    (hv : v.natAbs < 2 ^ 53) (hfirst : first.factor = 1 ∧ first.places = 0)
    (hbase : base (ofInt v) = toFixed 0 (ofInt v) ++ first.name)
    (hlarger : ∀ u ∈ larger, 0 < u.factor ∧ u.factor < 2 ^ 53 ∧ u.Precise) :
    ShownIn (first :: larger) v (scaled base (ofInt v) (larger.reverse.map MeasureUnit.scale)) := by
  have hreverse : ∀ u ∈ larger.reverse, 0 < u.factor ∧ u.factor < 2 ^ 53 := fun u hu =>
    ⟨(hlarger u (List.mem_reverse.mp hu)).1, (hlarger u (List.mem_reverse.mp hu)).2.1⟩
  rcases scaled_cases base hv hreverse with
    ⟨htext, hall⟩ | ⟨higher, u, lower, hsplit, hu, hall, htext⟩
  · refine ⟨[], first, larger, v.natAbs, rfl, .inl rfl,
      fun w hw => hall w (List.mem_reverse.mpr hw), ?_, ?_, ?_⟩
    · rw [htext, hbase, Binary64.toFixed_ofInt hv, hfirst.2]
    · rw [hfirst.1, hfirst.2, Binary64.Nearest]
      simp
    · omega
  · have hlist : larger = lower.reverse ++ u :: higher.reverse := by
      rw [← List.reverse_reverse larger, hsplit]
      simp
    obtain ⟨hpos, hlt, hprecise⟩ := hlarger u (by simp [hlist])
    obtain ⟨n, hdigits, hshows⟩ :=
      Binary64.toFixed_quotient (v := v) (by omega) hv hpos hlt hprecise
    refine ⟨first :: lower.reverse, u, higher.reverse, n, by rw [hlist]; rfl, .inr hu,
      fun w hw => hall w (List.mem_reverse.mp hw), ?_, hshows⟩
    rw [htext, hdigits]

theorem shownIn_format (hq : q ≠ other) (hv : v.natAbs < 2 ^ 53) :
    ShownIn q.units v (q.format (ofInt v)) := by
  have hlarger : ∀ {q : Quantity}, ∀ u ∈ q.units.tail,
      0 < u.factor ∧ u.factor < 2 ^ 53 ∧ u.Precise :=
    fun u hu => precise_of_mem_units (List.mem_of_mem_tail hu)
  have hbytes : ShownIn bytes.units v (formatBytes (ofInt v)) := by
    rw [formatBytes, byteScales_eq]
    exact shownIn_scaled hv ⟨rfl, rfl⟩ rfl (@hlarger bytes)
  cases q with
  | number =>
    have hplain : plain (ofInt v) = toFixed 0 (ofInt v) ++ "" := by
      rw [plain, if_pos (Binary64.isIntegral_ofInt hv), String.append_empty]
    rw [format, decimalScales_eq]
    exact shownIn_scaled hv ⟨rfl, rfl⟩ hplain (@hlarger number)
  | nanoseconds =>
    rw [format, durationScales_eq]
    exact shownIn_scaled hv ⟨rfl, rfl⟩ rfl (@hlarger nanoseconds)
  | bytes => exact hbytes
  | bytesPerSecond =>
    obtain ⟨lower, u, higher, n, hunits, hlower, hhigher, htext, hshows⟩ := hbytes
    let perSecond (u : MeasureUnit) : MeasureUnit := { u with name := u.name ++ "/s" }
    refine ⟨lower.map perSecond, perSecond u, higher.map perSecond, n, ?_,
      hlower.imp_left fun h => by rw [h]; rfl, List.forall_mem_map.mpr hhigher, ?_,
      ⟨hshows.nearest, hshows.thousand⟩⟩
    · rw [← List.map_cons, ← List.map_append, ← hunits]
      rfl
    · have hname : (perSecond u).name = u.name ++ "/s" := rfl
      rw [format, htext, hname]
      exact String.append_assoc
  | other => exact absurd rfl hq

/-! ## The next unit -/

/-- A value half a place short of the next unit is 999.95, and shown as 1000. -/
theorem reaches_of_half {u w : MeasureUnit} {a f n : Nat} (h : Follows u w) (hpos : 0 < u.factor)
    (hf : w.factor = u.factor * f) (hlt : a < f * u.factor) (hshows : u.Shows a n)
    (hhalf : 2 * (a * 10 ^ u.places) + u.factor = 2 * (f * u.factor * 10 ^ u.places)) :
    n = f * 10 ^ u.places := by
  obtain ⟨c, hc⟩ := Nat.exists_eq_add_of_le hlt.le
  have hplace : u.factor = 2 * 10 ^ u.places * c := by
    rw [hc] at hhalf
    linarith
  obtain ⟨hplaces, hnext⟩ := h.2 ⟨c, hplace⟩
  have hthousand : f = 1000 := by
    rw [hf, Nat.mul_comm] at hnext
    exact Nat.eq_of_mul_eq_mul_right hpos hnext
  subst hthousand
  rw [hplaces] at hplace ⊢
  exact hshows.thousand hplaces c (by omega) (by omega)

/-- The shown value is at most the factor to the next unit, and below it iff more than half a place
is missing. -/
theorem count_le_next {u w : MeasureUnit} {a n : Nat} (h : Follows u w) (hpos : 0 < u.factor)
    (hlt : a < w.factor) (hshows : u.Shows a n) :
    (n : ℚ) / 10 ^ u.places ≤ w.factor / u.factor ∧
      ((n : ℚ) / 10 ^ u.places < w.factor / u.factor ↔
        (a : ℚ) + u.factor / (2 * 10 ^ u.places) < w.factor) := by
  obtain ⟨f, hf⟩ := h.1
  have hlt' : a < f * u.factor := by rwa [Nat.mul_comm, ← hf]
  have hle : n ≤ f * 10 ^ u.places := hshows.nearest.le hlt'
  have hiff := hshows.nearest.lt_iff hlt' (reaches_of_half h hpos hf hlt' hshows)
  have hfactor : (0 : ℚ) < u.factor := Nat.cast_pos.mpr hpos
  have hparts : (0 : ℚ) < 10 ^ u.places := by positivity
  have hplace : (0 : ℚ) < 2 * 10 ^ u.places := by positivity
  have hratio : (w.factor : ℚ) / u.factor = f := by
    rw [hf, Nat.cast_mul, mul_div_cancel_left₀ _ hfactor.ne']
  have hfar : (a : ℚ) + u.factor / (2 * 10 ^ u.places) < w.factor ↔
      2 * (a * 10 ^ u.places) + u.factor < 2 * (f * u.factor * 10 ^ u.places) := by
    rw [← mul_lt_mul_iff_left₀ hplace, add_mul, div_mul_cancel₀ _ hplace.ne', hf,
      ← Nat.cast_lt (α := ℚ)]
    push_cast
    constructor <;> intro h <;> linarith
  rw [hratio, hfar, ← hiff, div_le_iff₀ hparts, div_lt_iff₀ hparts]
  exact ⟨by exact_mod_cast hle, by exact_mod_cast Iff.rfl⟩

/-- A formatted value is `v` rounded in the largest unit it reaches. It stays below the factor to
the next unit iff `v` is short of that unit by more than half a place; else it is the factor itself,
in the smaller unit. -/
theorem formatted_within_unit (hq : q ≠ other) (hv : |v| < 2 ^ 53) :
    ∃ (lower : List MeasureUnit) (u : MeasureUnit) (higher : List MeasureUnit),
      q.units = lower ++ u :: higher ∧ (lower = [] ∨ (u.factor : ℤ) ≤ |v|) ∧
      (∀ w ∈ higher, |v| < w.factor) ∧
      ∃ (digits : String) (x : ℚ), q.format (ofInt v) = minus v ++ digits ++ u.name ∧
        Text.IsDecimal digits.toList u.places x ∧
        |x - |(v : ℚ)| / u.factor| ≤ 1 / (2 * 10 ^ u.places) ∧
        ∀ w ∈ higher.head?, x ≤ w.factor / u.factor ∧
          (x < w.factor / u.factor ↔ |(v : ℚ)| + u.factor / (2 * 10 ^ u.places) < w.factor) := by
  have hmagnitude : |v| = v.natAbs := Int.abs_eq_natAbs v
  have hcast : |(v : ℚ)| = v.natAbs := by rw [← Int.cast_abs, hmagnitude, Int.cast_natCast]
  obtain ⟨lower, u, higher, n, hunits, hlower, hhigher, htext, hshows⟩ :=
    shownIn_format hq (v := v) (by omega)
  obtain ⟨hpos, -, -⟩ := precise_of_mem_units (q := q) (u := u) (by simp [hunits])
  refine ⟨lower, u, higher, hunits, hlower.imp_right fun h => by omega,
    fun w hw => by have := hhigher w hw; omega, withPoint n u.places, n / 10 ^ u.places, htext,
    Binary64.isDecimal_withPoint n u.places, ?_, fun w hw => ?_⟩
  · rw [hcast]
    exact_mod_cast hshows.nearest.abs_sub_le hpos (Nat.pow_pos (by decide))
  · have hfollows : Follows u w := by
      have hchain := isChain_units q
      rw [hunits, List.isChain_append] at hchain
      exact (List.isChain_cons.mp hchain.2.1).1 w hw
    rw [hcast]
    exact count_le_next hfollows hpos (hhigher w (List.mem_of_mem_head? hw)) hshows

/-- The least value below 1000 thousands. -/
theorem formatted_within_unit_short :
    number ≠ other ∧ |(-999949 : Int)| < 2 ^ 53 ∧ number.format (ofInt (-999949)) = "-999.9 k" ∧
      ∃ u ∈ number.units, ∃ (digits : String) (x : ℚ),
        number.format (ofInt (-999949)) = minus (-999949) ++ digits ++ u.name ∧
          Text.IsDecimal digits.toList u.places x := by
  have hq : number ≠ other := by decide
  have hv : |(-999949 : Int)| < 2 ^ 53 := by decide
  obtain ⟨lower, u, higher, hunits, -, -, digits, x, htext, hdecimal, -⟩ :=
    formatted_within_unit hq hv
  have hu : u ∈ number.units := by
    rw [hunits]
    exact List.mem_append_right _ List.mem_cons_self
  exact ⟨hq, hv, by rfl, u, hu, digits, x, htext, hdecimal⟩

/-- Counterexample: 999999 in thousands. -/
theorem rounding_reaches_next_unit :
    let k : MeasureUnit := ⟨10 ^ 3, " k", 1⟩
    let m : MeasureUnit := ⟨10 ^ 6, " M", 1⟩
    [k, m] <:+: number.units ∧ |(999999 : Int)| < 2 ^ 53 ∧
      number.format (ofInt 999999) = "1000.0" ++ k.name ∧
      Text.IsDecimal "1000.0".toList k.places 1000 ∧ (m.factor : ℚ) / k.factor ≤ 1000 := by
  intro k m
  have hdecimal := Binary64.isDecimal_withPoint 10000 1
  have htext : withPoint 10000 1 = "1000.0" := by rfl
  have hvalue : ((10000 : Nat) : ℚ) / 10 ^ 1 = 1000 := by norm_num
  rw [htext, hvalue] at hdecimal
  exact ⟨by decide, by decide, by rfl, hdecimal, by norm_num [k, m]⟩

end Quantity

end StackProfile
