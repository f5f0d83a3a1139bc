import BattleOdds.Proofs.Binary64.Order
import BattleOdds.Proofs.Binary64.Whole

/-!
# The nearest figure

Rounding is an algorithm on units; what it is for is said by `Nearest` without them: no finite
figure is nearer to the exact number, and where another one is as near, the figure has the even
significand. For the units this is a fact about whole numbers. The other figures are whole in the
unit too, or else lie so far below that they do not count.
-/
namespace BattleOdds

namespace Rounding

variable {q : ℚ}

/-! ## Whole numbers -/

theorem one_le_abs_sub_add {m n : ℤ} (hne : n ≠ m) (q : ℚ) :
    1 ≤ |(n : ℚ) - q| + |(m : ℚ) - q| := by
  have hapart : (1 : ℚ) ≤ |(n : ℚ) - m| := by exact_mod_cast Int.one_le_abs (sub_ne_zero.mpr hne)
  rw [abs_sub_comm (m : ℚ)]
  exact hapart.trans (abs_sub_le _ _ _)

/-- No whole number is nearer. -/
theorem abs_roundEven_sub_le_abs (q : ℚ) (n : ℤ) : |(roundEven q : ℚ) - q| ≤ |n - q| := by
  rcases eq_or_ne n (roundEven q) with rfl | hne
  · exact le_rfl
  · linarith [abs_roundEven_sub_le q, one_le_abs_sub_add hne q]

/-- Where another one is as near, the rounded number is the even one. -/
theorem even_roundEven {n : ℤ} (h : |(roundEven q : ℚ) - q| = |n - q|) (hne : n ≠ roundEven q) :
    Even (roundEven q) := by
  have hhalf : |(roundEven q : ℚ) - q| = 1 / 2 := by
    linarith [abs_roundEven_sub_le q, one_le_abs_sub_add hne q]
  have hfloor := Int.floor_le q
  unfold roundEven at hhalf ⊢
  split_ifs at hhalf ⊢ with hless hmore
  · rw [abs_of_nonpos (by linarith)] at hhalf
    linarith
  · have hceil := Int.lt_floor_add_one q
    rw [abs_of_nonneg (by push_cast; linarith)] at hhalf
    push_cast at hhalf
    linarith
  · rw [Int.even_iff]
    omega

/-! ## Units -/

/-- Distances are counted in units. -/
theorem abs_sub_eq_mul_unit (q : ℚ) (n : ℤ) :
    |n * 2 ^ unitExponent q - q|
      = |n - q / 2 ^ unitExponent q| * 2 ^ unitExponent q := by
  have hunit : (0 : ℚ) < 2 ^ unitExponent q := by positivity
  rw [← abs_of_pos hunit, ← abs_mul, abs_of_pos hunit, sub_mul, div_mul_cancel₀ _ hunit.ne']

/-- Rounding errs by half a unit at most. -/
theorem abs_unbounded_sub_le (q : ℚ) : |unbounded q - q| ≤ 2 ^ unitExponent q / 2 := by
  have hunit : (0 : ℚ) ≤ 2 ^ unitExponent q := by positivity
  have hhalf := mul_le_mul_of_nonneg_right (abs_roundEven_sub_le (q / 2 ^ unitExponent q)) hunit
  rw [unbounded, abs_sub_eq_mul_unit]
  linarith

/-- No multiple of the unit is nearer. -/
theorem abs_unbounded_sub_le_abs (q : ℚ) (n : ℤ) :
    |unbounded q - q| ≤ |n * 2 ^ unitExponent q - q| := by
  rw [unbounded, abs_sub_eq_mul_unit, abs_sub_eq_mul_unit]
  exact mul_le_mul_of_nonneg_right (abs_roundEven_sub_le_abs _ n) (by positivity)

theorem unitExponent_le_of_lt {n : ℤ} (hq : 0 < q) (hlt : q < 2 ^ n) (hn : -1021 ≤ n) :
    unitExponent q ≤ n - 53 := by
  have hlog : Int.log 2 q < n := by
    rw [← Int.lt_zpow_iff_log_lt (by decide) hq]
    exact_mod_cast hlt
  unfold unitExponent
  omega

/-- What lies below a power of two errs by `2 ^ -54` of it at most. -/
theorem abs_rounded_sub_le {n : ℤ} (hq : 0 ≤ q) (hlt : q < 2 ^ n) (hlow : -1021 ≤ n)
    (hhigh : n ≤ 1024) : |rounded q - q| ≤ 2 ^ (n - 54) := by
  rcases hq.eq_or_lt with rfl | hpos
  · simp only [rounded_zero, sub_zero, abs_zero]
    positivity
  have hunit := unitExponent_le_of_lt hpos hlt hlow
  calc |rounded q - q|
    _ = |unbounded q - q| := by rw [rounded_eq_unbounded hq hlt.le (by omega) hhigh]
    _ ≤ 2 ^ unitExponent q / 2 := abs_unbounded_sub_le q
    _ ≤ 2 ^ (n - 53) / 2 :=
        div_le_div_of_nonneg_right (zpow_le_zpow_right₀ (by norm_num) hunit) (by norm_num)
    _ = 2 ^ (n - 54) := by rw [show n - 53 = n - 54 + 1 by ring, zpow_add_one₀ (by norm_num)]; ring

end Rounding

namespace Binary64
open Rounding

variable {x y : Binary64} {q : ℚ}

/-- A figure is whole in the unit of a number, or it lies below the least figures of that unit. -/
theorem exists_eq_mul_unit_or_lt (y : Binary64) (q : ℚ) :
    (∃ n : ℤ, y.value = n * 2 ^ unitExponent q)
      ∨ -1074 < unitExponent q ∧ y.value < 2 ^ 52 * 2 ^ unitExponent q := by
  rcases le_or_gt (unitExponent q) y.exponent with hexponent | hexponent
  · exact .inl (exists_value_eq_mul y hexponent)
  have hleast : -1074 ≤ y.exponent := by
    rw [exponent_eq]
    omega
  have hvalue : y.value ≤ y.significand * 2 ^ y.exponent := by
    have hpos : 0 ≤ (y.significand : ℚ) * 2 ^ y.exponent := by positivity
    rw [value]
    cases y.sign <;> simp only [signFactor] <;> linarith
  have hsignificand : (y.significand : ℚ) < 2 ^ 53 := by exact_mod_cast y.significand_lt
  refine .inr ⟨by omega, ?_⟩
  calc y.value
    _ ≤ y.significand * 2 ^ y.exponent := hvalue
    _ < 2 ^ 53 * 2 ^ y.exponent := by gcongr
    _ = 2 ^ 52 * 2 ^ (y.exponent + 1) := by rw [zpow_add_one₀ (by norm_num)]; ring
    _ ≤ 2 ^ 52 * 2 ^ unitExponent q := by gcongr <;> [norm_num; omega]

/-- A figure is what an exact number is rounded to: no figure is nearer, and where another one is
as near, its significand is even. -/
structure Nearest (q : ℚ) (x : Binary64) : Prop where
  isFinite : x.isFinite = true
  le_distance (y : Binary64) (hy : y.isFinite = true) : |x.value - q| ≤ |y.value - q|
  even_significand (y : Binary64) (hy : y.isFinite = true) (hne : y.value ≠ x.value)
    (htie : |x.value - q| = |y.value - q|) : Even x.significand

/-- What is exact is nearest. -/
theorem HasValue.nearest_of_exact (h : HasValue x q) (hx : x.isFinite = true) : Nearest q x where
  isFinite := hx
  le_distance y hy := by
    rw [h.value_eq, sub_self, abs_zero]
    exact abs_nonneg _
  even_significand y hy hne htie := by
    rw [h.value_eq, sub_self, abs_zero, eq_comm, abs_eq_zero, sub_eq_zero, ← h.value_eq] at htie
    exact absurd htie hne

/-- A figure that is not whole in the unit is farther away than the rounded number. -/
theorem abs_unbounded_sub_lt (hq : 0 < q) (hunit : -1074 < unitExponent q)
    (hy : y.value < 2 ^ 52 * 2 ^ unitExponent q) : |unbounded q - q| < |y.value - q| := by
  have hpos : (0 : ℚ) < 2 ^ unitExponent q := by positivity
  have hle : 2 ^ 52 * 2 ^ unitExponent q ≤ q := (le_div_iff₀ hpos).mp (le_div_unit hq hunit)
  have hnear := abs_unbounded_sub_le_abs q (2 ^ 52)
  rw [Int.cast_pow, Int.cast_ofNat] at hnear
  calc |unbounded q - q|
    _ ≤ |2 ^ 52 * 2 ^ unitExponent q - q| := hnear
    _ = q - 2 ^ 52 * 2 ^ unitExponent q := by rw [abs_of_nonpos (by linarith), neg_sub]
    _ < q - y.value := by linarith
    _ = |y.value - q| := by rw [abs_of_neg (by linarith), neg_sub]

/-- An even multiple of a unit has an even significand, unless it is too great for the unit. -/
theorem even_significand_of_value_eq (hx : NonNegative x) {k e : ℤ} (h : x.value = k * 2 ^ e)
    (hk : Even k) (hle : k ≤ 2 ^ 53) (he : -1074 ≤ e) : Even x.significand := by
  rw [hx.value_eq] at h
  rcases le_or_gt x.exponent e with hexponent | hexponent
  · obtain ⟨d, hd⟩ := Int.eq_ofNat_of_zero_le (sub_nonneg.mpr hexponent)
    rw [show e = d + x.exponent by omega, zpow_add₀ (by norm_num), ← mul_assoc,
      mul_left_inj' (by positivity), zpow_natCast] at h
    have hint : (x.significand : ℤ) = k * 2 ^ d := by exact_mod_cast h
    exact (Int.even_coe_nat _).mp (hint ▸ hk.mul_right _)
  · -- Above the least exponent the significand has 53 bits, so the exponents differ by one.
    obtain ⟨d, hd⟩ := Int.eq_ofNat_of_zero_le (sub_nonneg.mpr hexponent.le)
    rw [show x.exponent = d + e by omega, zpow_add₀ (by norm_num), ← mul_assoc,
      mul_left_inj' (by positivity), zpow_natCast] at h
    have hint : (x.significand : ℤ) * 2 ^ d = k := by exact_mod_cast h
    have hfield : x.exponentField ≠ 0 := by
      rw [exponent_eq] at hexponent
      omega
    have hsignificand : 2 ^ 52 ≤ x.significand := le_significand hfield
    have htwice : x.significand * 2 ≤ x.significand * 2 ^ d :=
      Nat.mul_le_mul_left _ (Nat.le_self_pow (by omega) 2)
    have hmost : x.significand * 2 ^ d ≤ 2 ^ 53 := by exact_mod_cast hint.trans_le hle
    exact ⟨2 ^ 51, by omega⟩

/-- Rounding a magnitude finds the nearest figure. -/
theorem HasValue.nearest (h : HasValue x (rounded q)) (hx : x.isFinite = true) (hq : 0 ≤ q) :
    Nearest q x := by
  rcases hq.eq_or_lt with rfl | hpos
  · rw [rounded_zero] at h
    exact h.nearest_of_exact hx
  have hnonneg : NonNegative x := h.nonNegative (rounded_nonneg hq)
  have hvalue : x.value = unbounded q := by
    have hfinite := (isFinite_iff_value h.isNumber).mp hx
    rw [abs_of_nonneg hnonneg.le_value, h.value_eq, rounded_of_nonneg hq] at hfinite
    rw [h.value_eq, rounded_of_nonneg hq]
    exact min_eq_right ((min_lt_iff.mp hfinite).resolve_left (lt_irrefl _)).le
  have hunit₀ : (0 : ℚ) < 2 ^ unitExponent q := by positivity
  refine ⟨hx, fun y hy => ?_, fun y hy hne htie => ?_⟩
  · rw [hvalue]
    rcases exists_eq_mul_unit_or_lt y q with ⟨n, hn⟩ | ⟨hunit, hlt⟩
    · rw [hn]
      exact abs_unbounded_sub_le_abs q n
    · exact (abs_unbounded_sub_lt hpos hunit hlt).le
  · rw [hvalue] at hne htie
    rcases exists_eq_mul_unit_or_lt y q with ⟨n, hn⟩ | ⟨hunit, hlt⟩
    · rw [hn, unbounded, abs_sub_eq_mul_unit, abs_sub_eq_mul_unit, mul_left_inj' hunit₀.ne'] at htie
      rw [hn, unbounded, Ne, mul_left_inj' hunit₀.ne', Int.cast_inj] at hne
      exact even_significand_of_value_eq hnonneg hvalue (even_roundEven htie hne)
        (roundEven_div_unit_le hq) (unitExponent_ge q)
    · exact absurd htie (abs_unbounded_sub_lt hpos hunit hlt).ne

/-! ## Parts of a figure -/

/-- Zero is a figure, so what is rounded at most doubles. -/
theorem Nearest.value_le (h : Nearest q x) (hq : 0 ≤ q) : x.value ≤ 2 * q := by
  have hzero := h.le_distance 0.0 (by decide)
  rw [hasValue_zero.value_eq, zero_sub, abs_neg, abs_of_nonneg hq] at hzero
  linarith [le_abs_self (x.value - q)]

theorem factor_mul_le {c : Binary64} (hc : Factor c) (hone : c ≤ 1.0) (hx : NonNegative x)
    (hf : x.isFinite = true) : c * x ≤ x := by
  refine (hasValue_mul hc.isFinite hf).le ⟨hx.isNumber, rfl⟩ ?_
  have hvalue := value_le_of_le hone
  rw [hasValue_one.value_eq] at hvalue
  calc rounded (c.value * x.value)
    _ ≤ rounded x.value := rounded_mono (mul_le_of_le_one_left hx.le_value hvalue)
    _ = x.value := rounded_value hx.isNumber

/-- Less than half of a positive figure is less than the figure, even if it is rounded up from the
least units. -/
theorem factor_mul_lt {c : Binary64} (hc : Factor c) (hhalf : c < 0.5) (hx : 0.0 < x)
    (hf : x.isFinite = true) : c * x < x := by
  have hn := isNaN_of_isFinite hf
  rw [lt_iff_value hasValue_zero.isNumber hn, hasValue_zero.value_eq] at hx
  rw [lt_iff_value (isNaN_of_lt hhalf).1 hasValue_half.isNumber, hasValue_half.value_eq] at hhalf
  have hnonneg : NonNegative x := ⟨hn, hx.le⟩
  have hone : c ≤ 1.0 := by
    rw [le_iff_value hc.nonNegative.isNumber hasValue_one.isNumber, hasValue_one.value_eq]
    linarith
  have hfinite : (c * x).isFinite = true :=
    (hnonneg.factor_mul hc).isFinite_of_le (factor_mul_le hc hone hnonneg hf) hf
  have hprod := hasValue_mul hc.isFinite hf
  have hexact : 0 ≤ c.value * x.value := mul_nonneg hc.value_pos.le hx.le
  rw [lt_iff_value hprod.isNumber hn]
  calc (c * x).value
    _ ≤ 2 * (c.value * x.value) := (hprod.nearest hfinite hexact).value_le hexact
    _ < x.value := by linarith [mul_lt_mul_of_pos_right hhalf hx]

end Binary64
end BattleOdds
