import BattleOdds.Proofs.Binary64.Arithmetic

/-!
# Bounds that operations keep

A bound on a number is one on its value, so it excludes NaN. `NonNegative` numbers may be infinite,
and a number that is `AtMost` a power of two may be so below. Sums, and products with a positive
figure, stay non-negative and grow by a known power of two at most; what has both bounds is finite.
-/
namespace BattleOdds.Binary64
open Rounding

variable {x y c : Binary64} {n k : ℕ}

/-- A number that is not below zero. -/
structure NonNegative (x : Binary64) : Prop where
  isNumber : x.isNaN = false
  le_value : 0 ≤ x.value

/-- A number whose value does not exceed `2 ^ n`. -/
structure AtMost (n : ℕ) (x : Binary64) : Prop where
  isNumber : x.isNaN = false
  value_le : x.value ≤ 2 ^ n

/-- A positive finite figure up to 64, such as all constants of a trial are. -/
structure Factor (c : Binary64) : Prop where
  isFinite : c.isFinite = true
  value_pos : 0 < c.value
  value_le : c.value ≤ 2 ^ 6

theorem HasValue.nonNegative {q : ℚ} (h : HasValue x q) (hq : 0 ≤ q) : NonNegative x :=
  ⟨h.isNumber, hq.trans_eq h.value_eq.symm⟩

theorem HasValue.atMost {q : ℚ} (h : HasValue x q) (hq : q ≤ 2 ^ n) : AtMost n x :=
  ⟨h.isNumber, h.value_eq.trans_le hq⟩

/-! ## Constants -/

/-- A positive constant shows its value in its fields. -/
theorem hasValue_of_fields {n : ℕ} {e : ℤ} {q : ℚ} (hsign : c.sign = .positive)
    (hfields : c.isNaN = false ∧ c.significand = n ∧ c.exponent = e) (hq : n * 2 ^ e = q) :
    HasValue c q := by
  obtain ⟨hc, hsignificand, hexponent⟩ := hfields
  refine ⟨hc, ?_⟩
  rw [value, hsign, hsignificand, hexponent, signFactor, one_mul, hq]

theorem hasValue_zero : HasValue 0.0 0 :=
  hasValue_of_fields (n := 0) (e := -1074) rfl (by decide) (by norm_num)

theorem hasValue_one : HasValue 1.0 1 :=
  hasValue_of_fields (n := 2 ^ 52) (e := -52) rfl (by decide) (by norm_num)

theorem hasValue_half : HasValue 0.5 (1 / 2) :=
  hasValue_of_fields (n := 2 ^ 52) (e := -53) rfl (by decide) (by norm_num)

theorem hasValue_sixtyFour : HasValue 64.0 (2 ^ 6) :=
  hasValue_of_fields (n := 2 ^ 52) (e := -46) rfl (by decide) (by norm_num)

/-- Comparing words decides whether a constant is a factor. -/
theorem Factor.const (h : 0.0 < c ∧ c ≤ 64.0) : Factor c := by
  obtain ⟨hpos, hle⟩ := h
  have hc := (isNaN_of_lt hpos).2
  rw [lt_iff_value hasValue_zero.isNumber hc, hasValue_zero.value_eq] at hpos
  rw [le_iff_value hc hasValue_sixtyFour.isNumber, hasValue_sixtyFour.value_eq] at hle
  refine ⟨?_, hpos, hle⟩
  rw [isFinite_iff_value hc, abs_of_pos hpos]
  calc c.value ≤ 2 ^ (6 : ℤ) := by exact_mod_cast hle
    _ < overflow := zpow_lt_zpow_right₀ (by norm_num) (by norm_num)

/-- What lies between two factors is a factor. -/
theorem Factor.of_mem {lo hi : Binary64} (hlo : Factor lo) (hhi : Factor hi)
    (h : lo ≤ x ∧ x ≤ hi) : Factor x := by
  obtain ⟨hlon, hx⟩ := isNaN_of_le h.1
  have hhin := isNaN_of_isFinite hhi.isFinite
  have hlow := (le_iff_value hlon hx).mp h.1
  have hhigh := (le_iff_value hx hhin).mp h.2
  have hpos : 0 < x.value := hlo.value_pos.trans_le hlow
  refine ⟨?_, hpos, hhigh.trans hhi.value_le⟩
  have hover := (isFinite_iff_value hhin).mp hhi.isFinite
  rw [abs_of_pos hhi.value_pos] at hover
  rw [isFinite_iff_value hx, abs_of_pos hpos]
  exact hhigh.trans_lt hover

theorem Factor.nonNegative (h : Factor c) : NonNegative c :=
  ⟨isNaN_of_isFinite h.isFinite, h.value_pos.le⟩

theorem Factor.atMost (h : Factor c) : AtMost 6 c := ⟨isNaN_of_isFinite h.isFinite, h.value_le⟩

theorem nonNegative_zero : NonNegative 0.0 := hasValue_zero.nonNegative le_rfl

theorem atMost_zero : AtMost n 0.0 := hasValue_zero.atMost (by positivity)

/-! ## Finiteness -/

theorem two_pow_lt_overflow (hn : n < 1024) : (2 : ℚ) ^ n < overflow := by
  rw [← zpow_natCast]
  exact zpow_lt_zpow_right₀ (by norm_num) (by exact_mod_cast hn)

/-- What the significand and the exponent of a figure can hold is not rounded. -/
theorem rounded_of_bits {m : ℕ} {e : ℤ} (hm : m < 2 ^ 53) (he : -1074 ≤ e) (hle : e ≤ 971) :
    rounded (m * 2 ^ e) = m * 2 ^ e := by
  have hnonneg : 0 ≤ (m : ℚ) * 2 ^ e := by positivity
  rw [rounded_of_nonneg hnonneg, unbounded_of_bits hm he,
    min_eq_right (magnitude_lt_overflow hm hle).le]

theorem rounded_two_pow (hn : n < 1024) : rounded (2 ^ n) = 2 ^ n := by
  rw [← zpow_natCast, rounded_zpow (by omega) (by omega)]

theorem NonNegative.isFinite (h : NonNegative x) (hx : AtMost n x)
    (hn : n < 1024 := by norm_num) :
    x.isFinite = true := by
  rw [isFinite_iff_value h.isNumber, abs_of_nonneg h.le_value]
  exact hx.value_le.trans_lt (two_pow_lt_overflow hn)

theorem AtMost.mono {m : ℕ} (h : AtMost n x) (hnm : n ≤ m := by norm_num) : AtMost m x :=
  ⟨h.isNumber, h.value_le.trans (pow_le_pow_right₀ (by norm_num) hnm)⟩

/-- An infinity that is bounded above is the negative one. -/
theorem AtMost.value_of_infinite (h : AtMost n x) (hn : n < 1024) (hi : x.isFinite = false) :
    x.value ≤ 0 := by
  have hx : ¬ |x.value| < overflow := by
    rw [← isFinite_iff_value h.isNumber, hi]
    exact Bool.false_ne_true
  by_contra hpos
  rw [abs_of_pos (not_le.mp hpos)] at hx
  exact hx (h.value_le.trans_lt (two_pow_lt_overflow hn))

/-- An infinity that is not below zero is the positive one. -/
theorem NonNegative.datum_of_infinite (h : NonNegative x) (hi : x.isFinite = false) :
    x.datum = .infinity .positive := by
  obtain ⟨s, hs⟩ := datum_of_not_finite h.isNumber hi
  have hle := h.le_value
  rw [value_eq_datumValue h.isNumber, hs] at hle
  cases s with
  | positive => exact hs
  | negative =>
    have hover := overflow_pos
    simp only [datumValue, signFactor] at hle
    linarith

/-! ## Sums and differences -/

theorem NonNegative.add (hx : NonNegative x) (hy : NonNegative y) : NonNegative (x + y) := by
  cases hfx : x.isFinite with
  | true =>
    cases hfy : y.isFinite with
    | true =>
      exact (hasValue_add hfx hfy).nonNegative
        (rounded_nonneg (add_nonneg hx.le_value hy.le_value))
    | false => exact (hasValue_add_of_infinite_right hfx hy.isNumber hfy).nonNegative hy.le_value
  | false =>
    cases hfy : y.isFinite with
    | true => exact (hasValue_add_of_infinite hx.isNumber hfx hfy).nonNegative hx.le_value
    | false =>
      have hdatum : y.datum = x.datum := by
        rw [hx.datum_of_infinite hfx, hy.datum_of_infinite hfy]
      exact (hasValue_add_of_infinities hx.isNumber hfx hdatum).nonNegative hx.le_value

theorem AtMost.add (hx : AtMost n x) (hy : AtMost n y) (hf : y.isFinite = true)
    (hn : n + 1 < 1024 := by norm_num) : AtMost (n + 1) (x + y) := by
  cases hfx : x.isFinite with
  | true =>
    have hsum : x.value + y.value ≤ 2 ^ (n + 1) := by
      rw [pow_succ]
      linarith [hx.value_le, hy.value_le]
    exact (hasValue_add hfx hf).atMost ((rounded_mono hsum).trans_eq (rounded_two_pow hn))
  | false =>
    have := hx.value_of_infinite (by omega) hfx
    exact (hasValue_add_of_infinite hx.isNumber hfx hf).atMost (this.trans (by positivity))

/-- Taking a non-negative number away keeps a bound. -/
theorem AtMost.sub (hx : AtMost n x) (hf : x.isFinite = true) (hy : NonNegative y)
    (hn : n < 1024 := by norm_num) : AtMost n (x - y) := by
  cases hfy : y.isFinite with
  | true =>
    have hdiff : x.value - y.value ≤ 2 ^ n := by linarith [hx.value_le, hy.le_value]
    exact (hasValue_sub hf hfy).atMost ((rounded_mono hdiff).trans_eq (rounded_two_pow hn))
  | false =>
    exact (hasValue_sub_of_infinite hf hy.isNumber hfy).atMost
      ((neg_nonpos.mpr hy.le_value).trans (by positivity))

/-- A finite number whose magnitude does not exceed `2 ^ n`. -/
structure Bounded (n : ℕ) (x : Binary64) : Prop where
  isNumber : x.isNaN = false
  abs_value_le : |x.value| ≤ 2 ^ n

theorem Bounded.isFinite (h : Bounded n x) (hn : n < 1024 := by norm_num) : x.isFinite = true :=
  (isFinite_iff_value h.isNumber).mpr (h.abs_value_le.trans_lt (two_pow_lt_overflow hn))

theorem Bounded.atMost (h : Bounded n x) : AtMost n x :=
  ⟨h.isNumber, (le_abs_self _).trans h.abs_value_le⟩

theorem HasValue.bounded {q : ℚ} (h : HasValue x (rounded q)) (hq : |q| ≤ 2 ^ n) (hn : n < 1024) :
    Bounded n x := by
  obtain ⟨hlow, hhigh⟩ := abs_le.mp hq
  have hlow' : -(2 ^ n) ≤ rounded q := by
    calc -(2 ^ n) = rounded (-(2 ^ n)) := by rw [rounded_neg, rounded_two_pow hn]
      _ ≤ rounded q := rounded_mono hlow
  have hhigh' : rounded q ≤ 2 ^ n := (rounded_mono hhigh).trans_eq (rounded_two_pow hn)
  refine ⟨h.isNumber, ?_⟩
  rw [h.value_eq]
  exact abs_le.mpr ⟨hlow', hhigh'⟩

/-! ## Products and quotients -/

theorem NonNegative.mul (hx : NonNegative x) (hc : Factor c) : NonNegative (x * c) := by
  cases hfx : x.isFinite with
  | true =>
    exact (hasValue_mul hfx hc.isFinite).nonNegative
      (rounded_nonneg (mul_nonneg hx.le_value hc.value_pos.le))
  | false =>
    exact (hasValue_mul_of_infinite hx.isNumber hfx hc.isFinite hc.value_pos).nonNegative
      hx.le_value

theorem NonNegative.factor_mul (hc : Factor c) (hx : NonNegative x) : NonNegative (c * x) := by
  cases hfx : x.isFinite with
  | true =>
    exact (hasValue_mul hc.isFinite hfx).nonNegative
      (rounded_nonneg (mul_nonneg hc.value_pos.le hx.le_value))
  | false =>
    exact (hasValue_mul_of_infinite_right hc.isFinite hc.value_pos hx.isNumber hfx).nonNegative
      hx.le_value

theorem NonNegative.div (hx : NonNegative x) (hf : c.isFinite = true) (hc : 0 < c.value) :
    NonNegative (x / c) := by
  cases hfx : x.isFinite with
  | true =>
    exact (hasValue_div hfx hf hc.ne').nonNegative
      (rounded_nonneg (div_nonneg hx.le_value hc.le))
  | false => exact (hasValue_div_of_infinite hx.isNumber hfx hf hc).nonNegative hx.le_value

/-- A positive figure makes a bound greater by its own at most. -/
theorem AtMost.mul (hx : AtMost n x) (hc : Factor c) (hn : n + 6 < 1024 := by norm_num) :
    AtMost (n + 6) (x * c) := by
  cases hfx : x.isFinite with
  | true =>
    have hprod : x.value * c.value ≤ 2 ^ (n + 6) := by
      calc x.value * c.value ≤ 2 ^ n * c.value :=
            mul_le_mul_of_nonneg_right hx.value_le hc.value_pos.le
        _ ≤ 2 ^ n * 2 ^ 6 := mul_le_mul_of_nonneg_left hc.value_le (by positivity)
        _ = 2 ^ (n + 6) := (pow_add _ _ _).symm
    exact (hasValue_mul hfx hc.isFinite).atMost ((rounded_mono hprod).trans_eq (rounded_two_pow hn))
  | false =>
    have := hx.value_of_infinite (by omega) hfx
    exact (hasValue_mul_of_infinite hx.isNumber hfx hc.isFinite hc.value_pos).atMost
      (this.trans (by positivity))

/-- A non-negative figure with a bound: it is finite if the bound is. -/
structure Small (n : ℕ) (x : Binary64) : Prop where
  nonNegative : NonNegative x
  atMost : AtMost n x

theorem Small.zero : Small n 0.0 := ⟨nonNegative_zero, atMost_zero⟩

/-- Rounding keeps a value between zero and a power of two. -/
theorem HasValue.small {q : ℚ} (h : HasValue x (rounded q)) (hq : 0 ≤ q) (hle : q ≤ 2 ^ n)
    (hn : n < 1024 := by norm_num) : Small n x :=
  ⟨h.nonNegative (rounded_nonneg hq), h.atMost ((rounded_mono hle).trans_eq (rounded_two_pow hn))⟩

theorem Small.isFinite (h : Small n x) (hn : n < 1024 := by norm_num) : x.isFinite = true :=
  h.nonNegative.isFinite h.atMost hn

theorem Small.mono {m : ℕ} (h : Small n x) (hnm : n ≤ m := by norm_num) : Small m x :=
  ⟨h.nonNegative, h.atMost.mono hnm⟩

/-- What lies between zero and a small figure is small. -/
theorem Small.of_le (hy : Small n y) (h : 0.0 ≤ x ∧ x ≤ y) : Small n x := by
  obtain ⟨hlow, hhigh⟩ := h
  have hx := (isNaN_of_le hlow).2
  rw [le_iff_value hasValue_zero.isNumber hx, hasValue_zero.value_eq] at hlow
  rw [le_iff_value hx hy.atMost.isNumber] at hhigh
  exact ⟨⟨hx, hlow⟩, ⟨hx, hhigh.trans hy.atMost.value_le⟩⟩

theorem Factor.small (h : Factor c) : Small 6 c := ⟨h.nonNegative, h.atMost⟩

theorem Small.const (h : 0.0 < c ∧ c ≤ 64.0) : Small 6 c := (Factor.const h).small

theorem Small.mul (hx : Small n x) (hy : Small k y) (h : n + k < 1024 := by norm_num) :
    Small (n + k) (x * y) := by
  have hv := hasValue_mul (hx.isFinite (by omega)) (hy.isFinite (by omega))
  have hprod : x.value * y.value ≤ 2 ^ (n + k) := by
    rw [pow_add]
    exact mul_le_mul hx.atMost.value_le hy.atMost.value_le hy.nonNegative.le_value (by positivity)
  exact hv.small (mul_nonneg hx.nonNegative.le_value hy.nonNegative.le_value) hprod h

theorem Small.add (hx : Small n x) (hy : Small n y) (h : n + 1 < 1024 := by norm_num) :
    Small (n + 1) (x + y) :=
  ⟨hx.nonNegative.add hy.nonNegative, hx.atMost.add hy.atMost (hy.isFinite (by omega)) h⟩

theorem Small.sub (hx : Small n x) (hy : Small n y) (hn : n < 1024 := by norm_num) :
    Bounded n (x - y) := by
  have hx₀ := hx.nonNegative.le_value
  have hy₀ := hy.nonNegative.le_value
  refine (hasValue_sub (hx.isFinite hn) (hy.isFinite hn)).bounded (abs_le.mpr ⟨?_, ?_⟩) hn
  · linarith [hy.atMost.value_le]
  · linarith [hx.atMost.value_le]

theorem Bounded.mul (hx : Bounded n x) (hc : Factor c) (hn : n + 6 < 1024 := by norm_num) :
    Bounded (n + 6) (x * c) := by
  refine (hasValue_mul (hx.isFinite (by omega)) hc.isFinite).bounded ?_ hn
  rw [abs_mul, abs_of_pos hc.value_pos, pow_add]
  exact mul_le_mul hx.abs_value_le hc.value_le hc.value_pos.le (by positivity)

/-- A divisor of one and more does not take a bound away. -/
theorem Small.div (hx : Small n x) (hf : c.isFinite = true) (hone : 1.0 ≤ c)
    (hn : n < 1024 := by norm_num) :
    Small n (x / c) := by
  rw [le_iff_value hasValue_one.isNumber (isNaN_of_isFinite hf), hasValue_one.value_eq] at hone
  have hpos : 0 < c.value := zero_lt_one.trans_le hone
  have hv := hasValue_div (hx.isFinite hn) hf hpos.ne'
  have hquot : x.value / c.value ≤ 2 ^ n :=
    (div_le_self hx.nonNegative.le_value hone).trans hx.atMost.value_le
  exact hv.small (div_nonneg hx.nonNegative.le_value hpos.le) hquot hn

/-- A whole number of 64 bits. -/
theorem small_ofUInt64 (m : UInt64) : Small 64 (ofUInt64 m) := by
  have hv := hasValue_ofUInt64 m
  have hle : (m.toNat : ℚ) ≤ 2 ^ 64 := by exact_mod_cast m.toNat_lt.le
  exact hv.small (Nat.cast_nonneg _) hle

/-! ## Minima, maxima and clamping -/

theorem AtMost.min {cap : Binary64} (hx : AtMost n x) : AtMost n (x.min cap) := by
  unfold Binary64.min
  rw [hx.isNumber]
  cases hcap : cap.isNaN with
  | true => exact hx
  | false =>
    simp only [Bool.false_eq_true, if_false]
    split_ifs with hlt
    · exact hx
    · rw [lt_iff_value hx.isNumber hcap] at hlt
      exact ⟨hcap, (not_lt.mp hlt).trans hx.value_le⟩

theorem AtMost.max_zero (hx : AtMost n x) : Small n (x.max 0.0) := by
  unfold Binary64.max
  rw [hx.isNumber, hasValue_zero.isNumber]
  simp only [Bool.false_eq_true, if_false]
  split_ifs with hlt
  · rw [lt_iff_value hasValue_zero.isNumber hx.isNumber, hasValue_zero.value_eq] at hlt
    exact ⟨⟨hx.isNumber, hlt.le⟩, hx⟩
  · exact ⟨nonNegative_zero, atMost_zero⟩

/-- Below a cap and above zero a number is non-negative, and the cap can only lower it; a cap that
is a NaN does nothing. -/
theorem small_max_min {cap : Binary64} (hx : AtMost n x) :
    Small n ((x.min cap).max 0.0) := hx.min.max_zero

theorem nonNegative_max_zero (x : Binary64) : NonNegative (x.max 0.0) := by
  unfold Binary64.max
  rw [hasValue_zero.isNumber]
  cases hx : x.isNaN with
  | true => exact nonNegative_zero
  | false =>
    simp only [Bool.false_eq_true, if_false]
    split_ifs with hlt
    · rw [lt_iff_value hasValue_zero.isNumber hx, hasValue_zero.value_eq] at hlt
      exact ⟨hx, hlt.le⟩
    · exact nonNegative_zero

theorem le_refl_of_isNaN (hx : x.isNaN = false) : x ≤ x := (le_iff_value hx hx).mpr le_rfl

/-- Clamping a number brings it between the bounds. -/
theorem clamp_mem {lo hi : Binary64} (hx : x.isNaN = false) (h : lo ≤ hi) :
    lo ≤ x.clamp lo hi ∧ x.clamp lo hi ≤ hi := by
  obtain ⟨hlo, hhi⟩ := isNaN_of_le h
  unfold clamp
  split_ifs with h₁ h₂
  · exact ⟨le_refl_of_isNaN hlo, h⟩
  · exact ⟨h, le_refl_of_isNaN hhi⟩
  · rw [lt_iff_value hx hlo] at h₁
    rw [lt_iff_value hhi hx] at h₂
    rw [le_iff_value hlo hx, le_iff_value hx hhi]
    exact ⟨not_lt.mp h₁, not_lt.mp h₂⟩

theorem clamp_of_isNaN {lo hi : Binary64} (h : x.isNaN = true) : x.clamp lo hi = x := by
  have hlow : ¬ x < lo := fun hlt => Bool.false_ne_true ((isNaN_of_lt hlt).1.symm.trans h)
  have hhigh : ¬ hi < x := fun hlt => Bool.false_ne_true ((isNaN_of_lt hlt).2.symm.trans h)
  rw [clamp, if_neg hlow, if_neg hhigh]

theorem NonNegative.zero_le (h : NonNegative x) : 0.0 ≤ x := by
  rw [le_iff_value hasValue_zero.isNumber h.isNumber, hasValue_zero.value_eq]
  exact h.le_value

end BattleOdds.Binary64
