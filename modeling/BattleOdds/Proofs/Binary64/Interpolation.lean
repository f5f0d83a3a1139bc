import BattleOdds.Proofs.Binary64.Order

/-!
# Interpolation in figures

Between two figures one interpolates by adding a part of their difference to the lower one. The
difference is rounded, and up to one unit too great, so a weight just below one may lead beyond the
upper figure. A weight of at most `1 - 2 ^ -52` may not: the part that it takes of the rounded
difference is no more than the multiple of the unit below the exact one, which is a figure itself.
-/
namespace BattleOdds

namespace Rounding

/-- What the exact number is at least, counted in its units, is not rounded up. -/
theorem rounded_floor_unit_le {q : ℚ} (hq : 0 ≤ q) :
    rounded (⌊q / 2 ^ unitExponent q⌋ * 2 ^ unitExponent q)
      ≤ ⌊q / 2 ^ unitExponent q⌋ * 2 ^ unitExponent q := by
  have hunits : 0 ≤ q / 2 ^ unitExponent q := by positivity
  obtain ⟨m, hm⟩ := Int.eq_ofNat_of_zero_le (Int.floor_nonneg.mpr hunits)
  have hlt : m < 2 ^ 53 := by
    have hfloor := (Int.floor_le (q / 2 ^ unitExponent q)).trans_lt (div_unit_lt hq)
    rw [hm] at hfloor
    exact_mod_cast hfloor
  rw [hm, Int.cast_natCast, rounded_of_nonneg (by positivity),
    unbounded_of_bits hlt (unitExponent_ge q)]
  exact min_le_right _ _

/-- Rounding up happens to numbers of at least `2 ^ 52` units only, if they are whole in the least
unit. -/
theorem two_pow_le_floor {q : ℚ} {n : ℕ} (hn : q = n * 2 ^ (-1074 : ℤ))
    (h : roundEven (q / 2 ^ unitExponent q) ≠ ⌊q / 2 ^ unitExponent q⌋) :
    2 ^ 52 ≤ ⌊q / 2 ^ unitExponent q⌋ := by
  have hunit : -1074 < unitExponent q := by
    refine lt_of_le_of_ne (unitExponent_ge q) fun hleast => h ?_
    have hwhole : q / 2 ^ unitExponent q = n := by
      rw [← hleast, hn, mul_div_cancel_right₀ _ (by positivity)]
    rw [hwhole, roundEven_natCast, Int.floor_natCast]
  have hpos : 0 < q := by
    rcases n.eq_zero_or_pos with rfl | hn₀
    · rw [hn, Nat.cast_zero, zero_mul, zero_div, roundEven_zero, Int.floor_zero] at h
      exact absurd rfl h
    · rw [hn]
      positivity
  exact Int.le_floor.mpr (by exact_mod_cast le_div_unit hpos hunit)

/-- A part of a rounded number, rounded again, does not exceed the exact number. -/
theorem rounded_rounded_mul_le {q w : ℚ} {n : ℕ} (hn : q = n * 2 ^ (-1074 : ℤ)) (hw₀ : 0 ≤ w)
    (hw : w ≤ 1 - 2 ^ (-52 : ℤ)) : rounded (rounded q * w) ≤ q := by
  have hq : 0 ≤ q := by
    rw [hn]
    positivity
  set k := ⌊q / 2 ^ unitExponent q⌋ with hk
  have hunit : (0 : ℚ) < 2 ^ unitExponent q := by positivity
  have hk₀ : (0 : ℚ) ≤ k := by
    exact_mod_cast Int.floor_nonneg.mpr (show 0 ≤ q / 2 ^ unitExponent q by positivity)
  have hfloor : (k : ℚ) * 2 ^ unitExponent q ≤ q :=
    (le_div_iff₀ hunit).mp (Int.floor_le _)
  -- The part of the units that are counted is no more than those below the exact number.
  have hpart : (roundEven (q / 2 ^ unitExponent q) : ℚ) * w ≤ k := by
    have hw₁ : w ≤ 1 := hw.trans (sub_le_self _ (by positivity))
    by_cases heven : roundEven (q / 2 ^ unitExponent q) = k
    · rw [heven]
      exact mul_le_of_le_one_right hk₀ hw₁
    · have hgreat : (2 : ℚ) ^ (52 : ℤ) ≤ k := by exact_mod_cast two_pow_le_floor hn heven
      have hup : (roundEven (q / 2 ^ unitExponent q) : ℚ) ≤ k + 1 := by
        exact_mod_cast roundEven_le_floor_add_one _
      have hsmall : 1 ≤ (k + 1 : ℚ) * 2 ^ (-52 : ℤ) := by
        rw [zpow_neg, ← div_eq_mul_inv, le_div_iff₀ (by positivity)]
        linarith
      calc (roundEven (q / 2 ^ unitExponent q) : ℚ) * w
        _ ≤ (k + 1) * w := mul_le_mul_of_nonneg_right hup hw₀
        _ ≤ (k + 1) * (1 - 2 ^ (-52 : ℤ)) := mul_le_mul_of_nonneg_left hw (by linarith)
        _ ≤ k := by linarith
  have hrounded : rounded q * w ≤ k * 2 ^ unitExponent q := by
    calc rounded q * w
      _ ≤ unbounded q * w := by
          rw [rounded_of_nonneg hq]
          exact mul_le_mul_of_nonneg_right (min_le_right _ _) hw₀
      _ = roundEven (q / 2 ^ unitExponent q) * w * 2 ^ unitExponent q := by
          rw [unbounded]
          ring
      _ ≤ k * 2 ^ unitExponent q := mul_le_mul_of_nonneg_right hpart hunit.le
  calc rounded (rounded q * w)
    _ ≤ rounded (k * 2 ^ unitExponent q) := rounded_mono hrounded
    _ ≤ k * 2 ^ unitExponent q := rounded_floor_unit_le hq
    _ ≤ q := hfloor

end Rounding

namespace Binary64
open Rounding

variable {x y w v : Binary64}

/-- A number is whole in the least unit. -/
theorem exists_value_eq_mul_unit (x : Binary64) : ∃ n : ℤ, x.value = n * 2 ^ (-1074 : ℤ) :=
  x.exists_value_eq_mul (by rw [exponent_eq]; omega)

theorem exists_difference_eq (h : x ≤ y) :
    ∃ n : ℕ, y.value - x.value = n * 2 ^ (-1074 : ℤ) := by
  obtain ⟨m, hm⟩ := exists_value_eq_mul_unit x
  obtain ⟨n, hn⟩ := exists_value_eq_mul_unit y
  have hle := value_le_of_le h
  rw [hm, hn, mul_le_mul_iff_left₀ (by positivity)] at hle
  have hmn : m ≤ n := by exact_mod_cast hle
  obtain ⟨k, hk⟩ := Int.eq_ofNat_of_zero_le (sub_nonneg.mpr hmn)
  refine ⟨k, ?_⟩
  have hcast : (n : ℚ) - m = k := by exact_mod_cast hk
  rw [hm, hn, ← sub_mul, hcast]

/-- The greatest weight that is safe, two units below one. -/
def safeWeight : Binary64 := 0.9999999999999998

theorem hasValue_safeWeight : HasValue safeWeight (1 - 2 ^ (-52 : ℤ)) := ⟨by decide, by
  rw [value, show safeWeight.significand = 2 ^ 53 - 2 by decide,
    show safeWeight.exponent = -53 by decide, show safeWeight.sign = .positive from rfl]
  norm_num [signFactor]⟩

/-- What may be added to the lower of two figures without leaving the interval between them. -/
structure Part (x y p : Binary64) : Prop where
  isFinite : p.isFinite = true
  zero_le : 0 ≤ p.value
  value_le : p.value ≤ y.value - x.value

theorem weight_isFinite (hw : 0.0 ≤ w ∧ w ≤ safeWeight) : w.isFinite = true :=
  (nonNegative_zero.of_le hw.1).isFinite_of_le hw.2 (by decide)

theorem nonNegative_sub (hx : x.isFinite = true) (hy : y.isFinite = true) (hxy : x ≤ y) :
    NonNegative (y - x) :=
  (hasValue_sub hy hx).nonNegative (rounded_nonneg (sub_nonneg.mpr (value_le_of_le hxy)))

variable (hx : x.isFinite = true) (hy : y.isFinite = true) (hxy : x ≤ y)
  (hspan : (y - x).isFinite = true)
include hx hy hxy hspan

theorem part_mul (hw : 0.0 ≤ w ∧ w ≤ safeWeight) : Part x y ((y - x) * w) := by
  obtain ⟨n, hn⟩ := exists_difference_eq hxy
  have hdiff := hasValue_sub hy hx
  have hprod := hasValue_mul hspan (weight_isFinite hw)
  have hnonneg := nonNegative_sub hx hy hxy
  have hw₀ := (nonNegative_zero.of_le hw.1).le_value
  have hw₁ := value_le_of_le hw.2
  rw [hasValue_safeWeight.value_eq] at hw₁
  have hone : w.value ≤ 1 := hw₁.trans (sub_le_self _ (by positivity))
  have hpart : NonNegative ((y - x) * w) :=
    hprod.nonNegative (rounded_nonneg (mul_nonneg hnonneg.le_value hw₀))
  have hle : (y - x) * w ≤ y - x := by
    refine hprod.le ⟨hdiff.isNumber, rfl⟩ ?_
    exact (rounded_mono (mul_le_of_le_one_right hnonneg.le_value hone)).trans_eq
      (rounded_value hdiff.isNumber)
  refine ⟨hpart.isFinite_of_le hle hspan, hpart.le_value, ?_⟩
  rw [hprod.value_eq, hdiff.value_eq]
  exact rounded_rounded_mul_le hn hw₀ hw₁

/-- With a safe weight an interpolated figure lies between the two. -/
theorem interpolated_mem (hw : 0.0 ≤ w ∧ w ≤ safeWeight) :
    x ≤ x + (y - x) * w ∧ x + (y - x) * w ≤ y := by
  have hpart := part_mul hx hy hxy hspan hw
  have hsum := hasValue_add hx hpart.isFinite
  have hlow : x.value ≤ x.value + ((y - x) * w).value := le_add_of_nonneg_right hpart.zero_le
  have hhigh : x.value + ((y - x) * w).value ≤ y.value := by linarith [hpart.value_le]
  have hx' := isNaN_of_isFinite hx
  have hy' := isNaN_of_isFinite hy
  constructor
  · refine HasValue.le ⟨hx', rfl⟩ hsum ?_
    exact (rounded_value hx').symm.trans_le (rounded_mono hlow)
  · refine hsum.le ⟨hy', rfl⟩ ?_
    exact (rounded_mono hhigh).trans_eq (rounded_value hy')

/-- A greater weight leads further up. -/
theorem interpolated_mono (hw : 0.0 ≤ w) (hwv : w ≤ v) (hv : v ≤ safeWeight) :
    x + (y - x) * w ≤ x + (y - x) * v := by
  have hsafe : 0.0 ≤ w ∧ w ≤ safeWeight := ⟨hw, le_of_le_of_le hwv hv⟩
  have hsafe' : 0.0 ≤ v ∧ v ≤ safeWeight := ⟨le_of_le_of_le hw hwv, hv⟩
  have hpart := part_mul hx hy hxy hspan hsafe
  have hpart' := part_mul hx hy hxy hspan hsafe'
  have hprod := hasValue_mul hspan (weight_isFinite hsafe)
  have hprod' := hasValue_mul hspan (weight_isFinite hsafe')
  have hnonneg := (nonNegative_sub hx hy hxy).le_value
  refine (hasValue_add hx hpart.isFinite).le (hasValue_add hx hpart'.isFinite) (rounded_mono ?_)
  rw [hprod.value_eq, hprod'.value_eq]
  exact add_le_add_right
    (rounded_mono (mul_le_mul_of_nonneg_left (value_le_of_le hwv) hnonneg)) _

end Binary64
end BattleOdds
