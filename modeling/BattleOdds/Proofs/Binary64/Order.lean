import BattleOdds.Proofs.Binary64.Whole

/-!
# Operations that keep the order

Rounding is monotone. So minima, maxima and clamping, and products and quotients with positive
figures keep the order of numbers, an infinity included, and a positive figure leaves a zero and the
sign of a number as they are. Away from both ends it commutes with scaling by a power of two. So
halves are not rounded, which makes comparing counts with half of others as good as comparing them
exactly. From zero on sums keep the order as well, so that figures `Under` others stay so through
all of a trial's arithmetic but its differences.
-/
namespace BattleOdds

namespace Rounding

variable {q : ℚ}

theorem log_two_pow_mul (hq : 0 < q) (j : ℕ) : Int.log 2 (2 ^ j * q) = Int.log 2 q + j := by
  have hlow : (2 : ℚ) ^ Int.log 2 q ≤ q := by
    exact_mod_cast Int.zpow_log_le_self (b := 2) (by decide) hq
  have hhigh : q < (2 : ℚ) ^ (Int.log 2 q + 1) := by
    exact_mod_cast Int.lt_zpow_succ_log_self (b := 2) (by decide) q
  have hpos : 0 < 2 ^ j * q := by positivity
  apply le_antisymm
  · refine Int.lt_add_one_iff.mp ((Int.lt_zpow_iff_log_lt (by decide) hpos).mp ?_)
    rw [Nat.cast_ofNat, add_right_comm, zpow_add₀ (by norm_num) _ (j : ℤ), zpow_natCast, mul_comm]
    gcongr
  · refine (Int.zpow_le_iff_le_log (by decide) hpos).mp ?_
    rw [Nat.cast_ofNat, zpow_add₀ (by norm_num), zpow_natCast, mul_comm]
    gcongr

/-- Above the least units a number and its multiple by a power of two are rounded alike. -/
theorem unbounded_two_pow_mul (hq : 2 ^ (-1022 : ℤ) ≤ q) (j : ℕ) :
    unbounded (2 ^ j * q) = 2 ^ j * unbounded q := by
  have hpos : 0 < q := lt_of_lt_of_le (by positivity) hq
  have hlog : -1022 ≤ Int.log 2 q := by
    refine (Int.zpow_le_iff_le_log (by decide) hpos).mp ?_
    rwa [Nat.cast_ofNat]
  have hunit : unitExponent (2 ^ j * q) = unitExponent q + j := by
    rw [unitExponent, unitExponent, log_two_pow_mul hpos]
    omega
  rw [unbounded, unbounded, hunit, zpow_add₀ (by norm_num), zpow_natCast, mul_comm _ ((2 : ℚ) ^ j),
    mul_div_mul_left _ _ (by positivity)]
  ring

/-- Between the least units and overflow rounding commutes with scaling. -/
theorem rounded_two_pow_mul {n j : ℕ} (hlow : 2 ^ (-n : ℤ) ≤ q) (hhigh : q ≤ 2 ^ n)
    (hj : n + j ≤ 971) : rounded (2 ^ j * q) = 2 ^ j * rounded q := by
  have hleast : (2 : ℚ) ^ (-1022 : ℤ) ≤ 2 ^ (-n : ℤ) :=
    zpow_le_zpow_right₀ (by norm_num) (by omega)
  have hq : 0 ≤ q := le_trans (by positivity) hlow
  have hhigh' : q ≤ 2 ^ (n : ℤ) := by rwa [zpow_natCast]
  have hscaled : 2 ^ j * q ≤ 2 ^ (n + j : ℤ) := by
    rw [zpow_add₀ (by norm_num), zpow_natCast, zpow_natCast, mul_comm]
    gcongr
  rw [rounded_eq_unbounded (by positivity) hscaled (by omega) (by omega),
    rounded_eq_unbounded hq hhigh' (by omega) (by omega), unbounded_two_pow_mul (hleast.trans hlow)]

theorem rounded_two_mul (m : ℕ) (hm : m < 2 ^ 64) :
    rounded (2 * m) = 2 * rounded m := by
  rcases m.eq_zero_or_pos with rfl | hpos
  · simp
  have hone : (1 : ℚ) ≤ m := by exact_mod_cast hpos
  have hleast : (2 : ℚ) ^ (-(64 : ℕ) : ℤ) ≤ 1 := zpow_le_one_of_nonpos₀ (by norm_num) (by norm_num)
  have hmost : (m : ℚ) ≤ 2 ^ 64 := by exact_mod_cast hm.le
  simpa using rounded_two_pow_mul (j := 1) (hleast.trans hone) hmost (by norm_num)

end Rounding

namespace Binary64
open Rounding

variable {x y c d : Binary64} {n k : ℕ}

/-! ## Values of all numbers -/

/-- No number is beyond the infinities. -/
theorem abs_value_le_overflow (hx : x.isNaN = false) : |x.value| ≤ overflow := by
  cases hfx : x.isFinite with
  | true => exact ((isFinite_iff_value hx).mp hfx).le
  | false =>
    obtain ⟨s, hs⟩ := datum_of_not_finite hx hfx
    rw [value_eq_datumValue hx, hs]
    cases s <;> simp [datumValue, signFactor, abs_of_pos overflow_pos]

/-- From zero on there is one infinity. -/
theorem NonNegative.value_of_infinite (hx : NonNegative x) (hi : x.isFinite = false) :
    x.value = overflow := by
  have hle := (le_abs_self _).trans (abs_value_le_overflow hx.isNumber)
  have hge : ¬ |x.value| < overflow := by
    rw [← isFinite_iff_value hx.isNumber, hi]
    exact Bool.false_ne_true
  rw [abs_of_nonneg hx.le_value] at hge
  exact le_antisymm hle (not_lt.mp hge)

/-- The words of value zero are the two zeros. -/
theorem isZero_iff_value (x : Binary64) : x.isZero = true ↔ x.value = 0 := by
  have hsign : signFactor x.sign ≠ 0 := by cases x.sign <;> norm_num [signFactor]
  have hpower : (2 : ℚ) ^ x.exponent ≠ 0 := by positivity
  have hmagnitude : x.magnitude.toNat = x.exponentField * 2 ^ 52 + x.fraction := by
    rw [magnitude_toNat, exponentField_eq, fraction_eq]
    omega
  rw [isZero, beq_iff_eq, ← UInt64.toNat_inj, hmagnitude, value, mul_eq_zero_iff_left hsign,
    mul_eq_zero_iff_right hpower, Nat.cast_eq_zero, significand, UInt64.toNat_zero]
  split_ifs <;> omega

theorem value_le_of_le (h : x ≤ y) : x.value ≤ y.value :=
  (le_iff_value (isNaN_of_le h).1 (isNaN_of_le h).2).mp h

theorem NonNegative.of_le (hx : NonNegative x) (h : x ≤ y) : NonNegative y :=
  ⟨(isNaN_of_le h).2, hx.le_value.trans (value_le_of_le h)⟩

/-- What lies between zero and a finite figure is finite. -/
theorem NonNegative.isFinite_of_le (hx : NonNegative x) (h : x ≤ y) (hy : y.isFinite = true) :
    x.isFinite = true := by
  have hlt := (isFinite_iff_value (isNaN_of_le h).2).mp hy
  rw [abs_of_nonneg (hx.of_le h).le_value] at hlt
  rw [isFinite_iff_value hx.isNumber, abs_of_nonneg hx.le_value]
  exact (value_le_of_le h).trans_lt hlt

theorem HasValue.le {p q : ℚ} (hx : HasValue x p) (hy : HasValue y q) (h : p ≤ q) : x ≤ y := by
  rw [le_iff_value hx.isNumber hy.isNumber, hx.value_eq, hy.value_eq]
  exact h

theorem le_of_le_of_le {z : Binary64} (hxy : x ≤ y) (hyz : y ≤ z) : x ≤ z := by
  rw [le_iff_value (isNaN_of_le hxy).1 (isNaN_of_le hyz).2]
  exact (value_le_of_le hxy).trans (value_le_of_le hyz)

instance : Trans (α := Binary64) (· ≤ ·) (· ≤ ·) (· ≤ ·) := ⟨le_of_le_of_le⟩

/-- Comparing words decides whether a constant is below zero. -/
theorem NonNegative.const (h : 0.0 ≤ c) : NonNegative c :=
  nonNegative_zero.of_le h

theorem lt_of_le_of_lt_of_le {x' y' : Binary64} (hx : x' ≤ x) (h : x < y) (hy : y ≤ y') :
    x' < y' := by
  obtain ⟨hxn, hyn⟩ := isNaN_of_lt h
  rw [lt_iff_value (isNaN_of_le hx).1 (isNaN_of_le hy).2]
  exact ((value_le_of_le hx).trans_lt ((lt_iff_value hxn hyn).mp h)).trans_le (value_le_of_le hy)

theorem le_zero_iff (hx : x.isNaN = false) : x ≤ 0.0 ↔ x.value ≤ 0 := by
  rw [le_iff_value hx hasValue_zero.isNumber, hasValue_zero.value_eq]

/-! ## Minima, maxima and clamping -/

theorem hasValue_min (hx : x.isNaN = false) (hy : y.isNaN = false) :
    HasValue (x.min y) (min x.value y.value) := by
  unfold Binary64.min
  rw [hx, hy]
  simp only [Bool.false_eq_true, if_false, lt_iff_value hx hy]
  split_ifs with h
  · exact ⟨hx, (min_eq_left h.le).symm⟩
  · exact ⟨hy, (min_eq_right (not_lt.mp h)).symm⟩

theorem hasValue_max (hx : x.isNaN = false) (hy : y.isNaN = false) :
    HasValue (x.max y) (max x.value y.value) := by
  unfold Binary64.max
  rw [hx, hy]
  simp only [Bool.false_eq_true, if_false, lt_iff_value hy hx]
  split_ifs with h
  · exact ⟨hx, (max_eq_left h.le).symm⟩
  · exact ⟨hy, (max_eq_right (not_lt.mp h)).symm⟩

theorem hasValue_clamp {lo hi : Binary64} (hx : x.isNaN = false) (h : lo ≤ hi) :
    HasValue (x.clamp lo hi) (max lo.value (min x.value hi.value)) := by
  obtain ⟨hlo, hhi⟩ := isNaN_of_le h
  have hle := value_le_of_le h
  unfold clamp
  simp only [lt_iff_value hx hlo, lt_iff_value hhi hx]
  split_ifs with h₁ h₂
  · exact ⟨hlo, (max_eq_left ((min_le_left _ _).trans h₁.le)).symm⟩
  · exact ⟨hhi, by rw [min_eq_right h₂.le, max_eq_right hle]⟩
  · exact ⟨hx, by rw [min_eq_left (not_lt.mp h₂), max_eq_right (not_lt.mp h₁)]⟩

/-- What lies between the bounds stays as it is. -/
theorem clamp_of_mem {lo hi : Binary64} (h : lo ≤ x ∧ x ≤ hi) : x.clamp lo hi = x := by
  obtain ⟨hlo, hx⟩ := isNaN_of_le h.1
  have hhi := (isNaN_of_le h.2).2
  have hlow := value_le_of_le h.1
  have hhigh := value_le_of_le h.2
  rw [clamp, if_neg, if_neg]
  · rw [lt_iff_value hhi hx]
    exact not_lt.mpr hhigh
  · rw [lt_iff_value hx hlo]
    exact not_lt.mpr hlow

theorem clamp_le_clamp {lo hi : Binary64} (h : x ≤ y) (hbounds : lo ≤ hi) :
    x.clamp lo hi ≤ y.clamp lo hi := by
  obtain ⟨hx, hy⟩ := isNaN_of_le h
  refine (hasValue_clamp hx hbounds).le (hasValue_clamp hy hbounds) ?_
  exact max_le_max_left _ (min_le_min_right _ (value_le_of_le h))

/-- A minimum is not above either number; a NaN gives way. -/
theorem min_le_of_isNumber_right (hy : y.isNaN = false) : x.min y ≤ y := by
  cases hx : x.isNaN with
  | true =>
    rw [Binary64.min, if_pos hx]
    exact le_refl_of_isNaN hy
  | false => exact (hasValue_min hx hy).le ⟨hy, rfl⟩ (min_le_right _ _)

theorem min_le_of_isNumber_left (hx : x.isNaN = false) : x.min y ≤ x := by
  cases hy : y.isNaN with
  | true =>
    rw [Binary64.min, hx, if_neg Bool.false_ne_true, if_pos hy]
    exact le_refl_of_isNaN hx
  | false => exact (hasValue_min hx hy).le ⟨hx, rfl⟩ (min_le_left _ _)

theorem max_zero_le_max_zero (h : x ≤ y) : x.max 0.0 ≤ y.max 0.0 := by
  obtain ⟨hx, hy⟩ := isNaN_of_le h
  refine (hasValue_max hx hasValue_zero.isNumber).le (hasValue_max hy hasValue_zero.isNumber) ?_
  exact max_le_max_right _ (value_le_of_le h)

/-- What is not positive gives way to the zero itself. -/
theorem max_zero_of_le (h : x ≤ 0.0) : x.max 0.0 = 0.0 := by
  have hx := (isNaN_of_le h).1
  have hlt : ¬ (0.0 : Binary64) < x := by
    rw [lt_iff_value hasValue_zero.isNumber hx, hasValue_zero.value_eq]
    exact not_lt.mpr ((le_zero_iff hx).mp h)
  unfold Binary64.max
  rw [hx, hasValue_zero.isNumber, if_neg Bool.false_ne_true, if_neg Bool.false_ne_true, if_neg hlt]

/-- What is positive is left as it is. -/
theorem max_zero_of_pos (h : 0 < x.value) (hx : x.isNaN = false) : x.max 0.0 = x := by
  have hlt : (0.0 : Binary64) < x := by
    rwa [lt_iff_value hasValue_zero.isNumber hx, hasValue_zero.value_eq]
  rw [Binary64.max, hx, hasValue_zero.isNumber, if_neg Bool.false_ne_true,
    if_neg Bool.false_ne_true, if_pos hlt]

theorem le_zero_or_max_zero (hx : x.isNaN = false) : x ≤ 0.0 ∨ x.max 0.0 = x := by
  rcases le_or_gt x.value 0 with h | h
  · exact .inl ((le_zero_iff hx).mpr h)
  · exact .inr (max_zero_of_pos h hx)

/-- Taking the maximum with zero before a cap changes nothing if it is taken after the cap. -/
theorem max_zero_min_max_zero (hx : x.isNaN = false) (cap : Binary64) :
    ((x.max 0.0).min cap).max 0.0 = (x.min cap).max 0.0 := by
  rcases le_zero_or_max_zero hx with h | h
  · have hzero : (0.0 : Binary64).min cap ≤ 0.0 := min_le_of_isNumber_left hasValue_zero.isNumber
    rw [max_zero_of_le h, max_zero_of_le hzero,
      max_zero_of_le (le_of_le_of_le (min_le_of_isNumber_left hx) h)]
  · rw [h]

/-- A cap keeps the order, a NaN as well since it caps nothing. -/
theorem min_le_min_of_le (h : x ≤ y) (cap : Binary64) : x.min cap ≤ y.min cap := by
  obtain ⟨hx, hy⟩ := isNaN_of_le h
  cases hcap : cap.isNaN with
  | true =>
    simp only [Binary64.min, hx, hy, hcap, if_true, Bool.false_eq_true, if_false]
    exact h
  | false =>
    exact (hasValue_min hx hcap).le (hasValue_min hy hcap)
      (min_le_min_right _ (value_le_of_le h))

theorem max_zero_of_nonNegative (hx : NonNegative x) : HasValue (x.max 0.0) x.value := by
  have h := hasValue_max hx.isNumber hasValue_zero.isNumber
  rw [hasValue_zero.value_eq, max_eq_left hx.le_value] at h
  exact h

theorem isFinite_max_zero (hf : x.isFinite = true) : (x.max 0.0).isFinite = true := by
  rcases le_zero_or_max_zero (isNaN_of_isFinite hf) with h | h
  · rw [max_zero_of_le h]
    decide
  · rwa [h]

/-! ## Products and quotients -/

theorem le_overflow_of_nonNegative (hx : NonNegative x) : x.value ≤ overflow :=
  (le_abs_self _).trans (abs_value_le_overflow hx.isNumber)

/-- A greater number times a greater factor is greater, rounded or infinite. -/
theorem NonNegative.mul_mono (hx : NonNegative x) (h : x ≤ y) (hc : Factor c) (hd : Factor d)
    (hcd : c ≤ d) : x * c ≤ y * d := by
  have hy := hx.of_le h
  cases hfy : y.isFinite with
  | true =>
    have hfx := hx.isFinite_of_le h hfy
    refine (hasValue_mul hfx hc.isFinite).le (hasValue_mul hfy hd.isFinite) (rounded_mono ?_)
    exact mul_le_mul (value_le_of_le h) (value_le_of_le hcd) hc.value_pos.le hy.le_value
  | false =>
    refine HasValue.le ⟨(hx.mul hc).isNumber, rfl⟩
      (hasValue_mul_of_infinite hy.isNumber hfy hd.isFinite hd.value_pos) ?_
    rw [hy.value_of_infinite hfy]
    exact le_overflow_of_nonNegative (hx.mul hc)

theorem NonNegative.div_mono (hx : NonNegative x) (h : x ≤ y) (hf : c.isFinite = true)
    (hc : 0 < c.value) : x / c ≤ y / c := by
  have hy := hx.of_le h
  cases hfy : y.isFinite with
  | true =>
    have hfx := hx.isFinite_of_le h hfy
    refine (hasValue_div hfx hf hc.ne').le (hasValue_div hfy hf hc.ne') (rounded_mono ?_)
    exact div_le_div_of_nonneg_right (value_le_of_le h) hc.le
  | false =>
    refine HasValue.le ⟨(hx.div hf hc).isNumber, rfl⟩
      (hasValue_div_of_infinite hy.isNumber hfy hf hc) ?_
    rw [hy.value_of_infinite hfy]
    exact le_overflow_of_nonNegative (hx.div hf hc)

/-- Where an infinity is added, the sum is one. -/
theorem NonNegative.hasValue_add_of_infinite (hx : NonNegative x) (hy : NonNegative y)
    (h : x.isFinite = false ∨ y.isFinite = false) : HasValue (x + y) overflow := by
  cases hfx : x.isFinite with
  | true =>
    have hfy := h.resolve_left (by simp [hfx])
    have hsum := hasValue_add_of_infinite_right hfx hy.isNumber hfy
    rwa [hy.value_of_infinite hfy] at hsum
  | false =>
    rw [← hx.value_of_infinite hfx]
    cases hfy : y.isFinite with
    | true => exact Binary64.hasValue_add_of_infinite hx.isNumber hfx hfy
    | false =>
      refine hasValue_add_of_infinities hx.isNumber hfx ?_
      rw [hx.datum_of_infinite hfx, hy.datum_of_infinite hfy]

theorem NonNegative.mul_of_isFinite (hx : NonNegative x) (hfx : x.isFinite = true)
    (hc : NonNegative c) (hf : c.isFinite = true) : NonNegative (x * c) :=
  (hasValue_mul hfx hf).nonNegative (rounded_nonneg (mul_nonneg hx.le_value hc.le_value))

theorem Small.mul_mono (hx : Small n x) (h : x ≤ y) (hy : Small n y) (hc : Small k c)
    (hcd : c ≤ d) (hd : Small k d) (hn : n + k < 1024 := by norm_num) : x * c ≤ y * d := by
  refine (hasValue_mul (hx.isFinite (by omega)) (hc.isFinite (by omega))).le
    (hasValue_mul (hy.isFinite (by omega)) (hd.isFinite (by omega))) (rounded_mono ?_)
  exact mul_le_mul (value_le_of_le h) (value_le_of_le hcd) hc.nonNegative.le_value
    hy.nonNegative.le_value

theorem isNaN_factor_mul (hc : Factor c) (hx : x.isNaN = false) : (c * x).isNaN = false := by
  cases hfx : x.isFinite with
  | true => exact (hasValue_mul hc.isFinite hfx).isNumber
  | false => exact (hasValue_mul_of_infinite_right hc.isFinite hc.value_pos hx hfx).isNumber

theorem isNaN_sub (hx : x.isNaN = false) (hy : y.isFinite = true) : (x - y).isNaN = false := by
  cases hfx : x.isFinite with
  | true => exact (hasValue_sub hfx hy).isNumber
  | false => exact (hasValue_sub_of_infinite_left hx hfx hy).isNumber

theorem isNaN_div (hx : x.isNaN = false) (hf : c.isFinite = true) (hc : 0 < c.value) :
    (x / c).isNaN = false := by
  cases hfx : x.isFinite with
  | true => exact (hasValue_div hfx hf hc.ne').isNumber
  | false => exact (hasValue_div_of_infinite hx hfx hf hc).isNumber

/-- A positive figure keeps a number that is not positive so. -/
theorem mul_le_zero_of_pos (h : x ≤ 0.0) (hf : c.isFinite = true) (hc : 0 < c.value) :
    x * c ≤ 0.0 := by
  have hx := (isNaN_of_le h).1
  have hx₀ := (le_zero_iff hx).mp h
  cases hfx : x.isFinite with
  | true =>
    have hprod := mul_nonpos_of_nonpos_of_nonneg hx₀ hc.le
    exact (hasValue_mul hfx hf).le hasValue_zero ((rounded_mono hprod).trans_eq rounded_zero)
  | false => exact (hasValue_mul_of_infinite hx hfx hf hc).le hasValue_zero hx₀

theorem mul_le_zero (h : x ≤ 0.0) (hc : Factor c) : x * c ≤ 0.0 :=
  mul_le_zero_of_pos h hc.isFinite hc.value_pos

/-- What is taken away is finite; what it is taken from may be the negative infinity. -/
theorem sub_le_zero (hy : AtMost n y) (hf : y.isFinite = true) (h : x ≤ y)
    (hn : n < 1024 := by norm_num) : x - y ≤ 0.0 := by
  have hx := (isNaN_of_le h).1
  have hle := value_le_of_le h
  cases hfx : x.isFinite with
  | true =>
    exact (hasValue_sub hfx hf).le hasValue_zero
      ((rounded_mono (sub_nonpos_of_le hle)).trans_eq rounded_zero)
  | false =>
    have hx' : AtMost n x := ⟨hx, hle.trans hy.value_le⟩
    exact (hasValue_sub_of_infinite_left hx hfx hf).le hasValue_zero
      (hx'.value_of_infinite hn hfx)

/-- A positive figure leaves the zero as it is, its sign included. -/
theorem zero_mul_of_pos (hf : c.isFinite = true) (hc : 0 < c.value) : 0.0 * c = 0.0 := by
  obtain ⟨m, e, h, hd⟩ := datum_of_pos hf hc
  have hzero : (0.0 : Binary64).datum = .zero .positive :=
    datum_of_zero (by decide) (by decide)
  have hmul : Float.Model.UnpackedFloat.mul .binary64 (0.0 : Binary64).datum c.datum
      = .zero .positive := by
    rw [hzero, hd]
    rfl
  have hword : ofDatum (.zero .positive) = 0.0 := by decide
  have heq := mul_eq_ofDatum hasValue_zero.isNumber (isNaN_of_isFinite hf) (by
    rw [hmul, hword]
    exact hasValue_zero.isNumber)
  rw [heq, hmul, hword]

theorem zero_mul_factor (hc : Factor c) : 0.0 * c = 0.0 :=
  zero_mul_of_pos hc.isFinite hc.value_pos

/-! ## Numbers up to others -/

/-- A number from zero up to another. -/
structure Under (x y : Binary64) : Prop where
  nonNegative : NonNegative x
  le : x ≤ y

/-- A factor up to another. -/
structure Raises (c d : Binary64) : Prop where
  factor : Factor c
  factor_right : Factor d
  le : c ≤ d

/-- Comparing words decides whether a constant raises another. -/
theorem Raises.const (h : 0.0 < c ∧ c ≤ d ∧ d ≤ 64.0) : Raises c d := by
  obtain ⟨hpos, hle, hmost⟩ := h
  refine ⟨.const ⟨hpos, le_of_le_of_le hle hmost⟩, .const ⟨?_, hmost⟩, hle⟩
  obtain ⟨hzero, hc⟩ := isNaN_of_lt hpos
  rw [lt_iff_value hzero hc] at hpos
  rw [lt_iff_value hzero (isNaN_of_le hle).2]
  exact hpos.trans_le (value_le_of_le hle)

theorem Raises.refl (hc : Factor c) : Raises c c :=
  ⟨hc, hc, le_refl_of_isNaN (isNaN_of_isFinite hc.isFinite)⟩

theorem Raises.under (h : Raises c d) : Under c d := ⟨h.factor.nonNegative, h.le⟩

namespace Under

variable {z w : Binary64}

theorem refl (hx : NonNegative x) : Under x x := ⟨hx, le_refl_of_isNaN hx.isNumber⟩

theorem zero : Under 0.0 0.0 := .refl nonNegative_zero

theorem nonNegative_right (h : Under x y) : NonNegative y := h.nonNegative.of_le h.le

theorem trans (hxy : Under x y) (hyz : Under y z) : Under x z :=
  ⟨hxy.nonNegative, le_of_le_of_le hxy.le hyz.le⟩

theorem mul (h : Under x y) (hcd : Raises c d) : Under (x * c) (y * d) :=
  ⟨h.nonNegative.mul hcd.factor, h.nonNegative.mul_mono h.le hcd.factor hcd.factor_right hcd.le⟩

theorem div (h : Under x y) (hf : c.isFinite = true) (hc : 0 < c.value) : Under (x / c) (y / c) :=
  ⟨h.nonNegative.div hf hc, h.nonNegative.div_mono h.le hf hc⟩

/-- Any figure from zero on keeps the order of figures. -/
theorem mul_of_isFinite (h : Under x y) (hy : y.isFinite = true) (hc : NonNegative c)
    (hf : c.isFinite = true) : Under (x * c) (y * c) := by
  have hx := h.nonNegative.isFinite_of_le h.le hy
  refine ⟨h.nonNegative.mul_of_isFinite hx hc hf, ?_⟩
  refine (hasValue_mul hx hf).le (hasValue_mul hy hf) (rounded_mono ?_)
  exact mul_le_mul_of_nonneg_right (value_le_of_le h.le) hc.le_value

theorem add (h : Under x y) (h' : Under z w) : Under (x + z) (y + w) := by
  have hsum := h.nonNegative.add h'.nonNegative
  refine ⟨hsum, ?_⟩
  by_cases hfinite : y.isFinite = true ∧ w.isFinite = true
  · obtain ⟨hy, hw⟩ := hfinite
    refine (hasValue_add (h.nonNegative.isFinite_of_le h.le hy)
      (h'.nonNegative.isFinite_of_le h'.le hw)).le (hasValue_add hy hw) (rounded_mono ?_)
    exact add_le_add (value_le_of_le h.le) (value_le_of_le h'.le)
  · rw [not_and_or, Bool.not_eq_true, Bool.not_eq_true] at hfinite
    exact HasValue.le ⟨hsum.isNumber, rfl⟩
      (h.nonNegative_right.hasValue_add_of_infinite h'.nonNegative_right hfinite)
      (le_overflow_of_nonNegative hsum)

end Under

/-! ## Counts -/

/-- A greater count is a figure that is no less. -/
theorem under_ofUInt64 {m n : UInt64} (h : m ≤ n) : Under (ofUInt64 m) (ofUInt64 n) := by
  have hle : (m.toNat : ℚ) ≤ n.toNat := by exact_mod_cast UInt64.le_iff_toNat_le.mp h
  refine ⟨(small_ofUInt64 m).nonNegative, ?_⟩
  exact (hasValue_ofUInt64 m).le (hasValue_ofUInt64 n) (rounded_mono hle)

/-- Half of a count, as a figure, is at least what exactly half of it is. -/
theorem ofUInt64_le_half {attacking defending : UInt64}
    (h : 2 * attacking.toNat ≤ defending.toNat) :
    ofUInt64 attacking ≤ 0.5 * ofUInt64 defending := by
  have hattacking := hasValue_ofUInt64 attacking
  have hdefending := hasValue_ofUInt64 defending
  have hfactor : Factor 0.5 := .const (by decide)
  have hdouble : 2 * rounded attacking.toNat ≤ rounded defending.toNat := by
    rw [← rounded_two_mul _ attacking.toNat_lt]
    exact rounded_mono (by exact_mod_cast h)
  refine HasValue.le ⟨hattacking.isNumber, rfl⟩
    (hasValue_mul hfactor.isFinite (small_ofUInt64 defending).isFinite) ?_
  rw [← rounded_value hattacking.isNumber]
  refine rounded_mono ?_
  rw [hattacking.value_eq, hdefending.value_eq, hasValue_half.value_eq]
  linarith

end Binary64
end BattleOdds
