import BattleOdds.Proofs.Binary64.Bounds

/-!
# Whole numbers and figures

Whole numbers below `2 ^ 53` are figures, and what is whole in a non-negative figure is found by
shifting its significand. So a sum of few figures of one bound stays within as many times the bound,
and their mean within the bound itself.
-/
namespace BattleOdds.Binary64
open Rounding

variable {x y : Binary64} {m n : ℕ}

/-! ## Exact whole numbers -/

theorem rounded_natCast (hm : m < 2 ^ 53) : rounded m = m := by
  have h := rounded_of_bits (e := 0) hm (by norm_num) (by norm_num)
  rwa [zpow_zero, mul_one] at h

theorem hasValue_ofNat_rounded (hm : m < 2 ^ 64) : HasValue (ofNat m) (rounded m) := by
  have h := hasValue_ofUInt64 m.toUInt64
  have hword : m.toUInt64.toNat = m := by
    rw [Nat.toUInt64_eq, UInt64.toNat_ofNat']
    omega
  rwa [hword] at h

/-- Counts that a significand can hold are not rounded. -/
theorem hasValue_ofNat (hm : m < 2 ^ 53) : HasValue (ofNat m) m := by
  have h := hasValue_ofNat_rounded (hm.trans (by norm_num))
  rwa [rounded_natCast hm] at h

theorem isFinite_ofNat (m : ℕ) : (ofNat m).isFinite = true := (small_ofUInt64 _).isFinite

/-! ## Floor and ceiling -/

/-- The value of a number from zero on has no sign. -/
theorem NonNegative.value_eq (h : NonNegative x) : x.value = x.significand * 2 ^ x.exponent := by
  have hnonneg : 0 ≤ (x.significand : ℚ) * 2 ^ x.exponent := by positivity
  have hle := h.le_value
  rw [value] at hle ⊢
  cases hs : x.sign with
  | positive => rw [signFactor, one_mul]
  | negative =>
    rw [hs, signFactor] at hle
    rw [signFactor]
    linarith

theorem cast_shiftLeft (m e : ℕ) : (m : ℚ) * 2 ^ (Int.ofNat e) = ((m <<< e : ℕ) : ℚ) := by
  rw [Int.ofNat_eq_natCast, zpow_natCast, Nat.shiftLeft_eq, Nat.cast_mul, Nat.cast_pow,
    Nat.cast_ofNat]

theorem cast_mul_zpow_negSucc (m e : ℕ) :
    (m : ℚ) * 2 ^ (Int.negSucc e) = m / ((2 ^ (e + 1) : ℕ) : ℚ) := by
  rw [zpow_negSucc, div_eq_mul_inv, Nat.cast_pow, Nat.cast_ofNat]

theorem NonNegative.floor_eq (h : NonNegative x) : x.floor = ⌊x.value⌋₊ := by
  rw [floor, h.isNumber, h.value_eq, if_neg Bool.false_ne_true]
  cases x.exponent with
  | ofNat e => rw [cast_shiftLeft, Nat.floor_natCast]
  | negSucc e =>
    rw [cast_mul_zpow_negSucc, Nat.floor_div_eq_div]
    exact Nat.shiftRight_eq_div_pow _ _

theorem NonNegative.ceil_eq (h : NonNegative x) : x.ceil = ⌈x.value⌉₊ := by
  rw [ceil, h.isNumber, h.value_eq, if_neg Bool.false_ne_true]
  cases x.exponent with
  | ofNat e => rw [cast_shiftLeft, Nat.ceil_natCast]
  | negSucc e =>
    have hpos : 0 < 2 ^ (e + 1) := by positivity
    have hposq : (0 : ℚ) < ((2 ^ (e + 1) : ℕ) : ℚ) := by exact_mod_cast hpos
    rw [cast_mul_zpow_negSucc]
    -- Both sides are below the same numbers.
    apply eq_of_forall_ge_iff
    intro k
    rw [Nat.ceil_le, div_le_iff₀ hposq]
    norm_cast
    calc (x.significand + (2 ^ (e + 1) - 1)) >>> (e + 1) ≤ k
      _ ↔ x.significand + (2 ^ (e + 1) - 1) ≤ 2 ^ (e + 1) * k + (2 ^ (e + 1) - 1) := by
          rw [Nat.shiftRight_eq_div_pow, Nat.div_le_iff_le_mul_add_pred hpos]
      _ ↔ x.significand ≤ k * 2 ^ (e + 1) := by rw [Nat.add_le_add_iff_right, Nat.mul_comm]

theorem floor_of_isNaN (h : x.isNaN = true) : x.floor = 0 := by rw [floor, if_pos h]

theorem ceil_of_isNaN (h : x.isNaN = true) : x.ceil = 0 := by rw [ceil, if_pos h]

/-- What a figure is beyond its whole part is not rounded: it is the rest of the significand. -/
theorem NonNegative.rounded_sub_floor (h : NonNegative x) :
    rounded (x.value - ⌊x.value⌋₊) = x.value - ⌊x.value⌋₊ := by
  have hexponent := x.exponent_eq
  rw [h.value_eq]
  cases he : x.exponent with
  | ofNat e => rw [cast_shiftLeft, Nat.floor_natCast, sub_self, rounded_zero]
  | negSucc e =>
    have hpos : (0 : ℚ) < ((2 ^ (e + 1) : ℕ) : ℚ) := by positivity
    have hrest : (x.significand : ℚ) / ((2 ^ (e + 1) : ℕ) : ℚ) - (x.significand / 2 ^ (e + 1) : ℕ)
        = (x.significand % 2 ^ (e + 1) : ℕ) * 2 ^ (Int.negSucc e) := by
      rw [cast_mul_zpow_negSucc, sub_eq_iff_eq_add, div_eq_iff hpos.ne', add_mul,
        div_mul_cancel₀ _ hpos.ne']
      exact_mod_cast (Nat.mod_add_div' _ _).symm
    have hbits : x.significand % 2 ^ (e + 1) < 2 ^ 53 :=
      (Nat.mod_le _ _).trans_lt x.significand_lt
    rw [cast_mul_zpow_negSucc, Nat.floor_div_eq_div, hrest]
    exact rounded_of_bits hbits (by omega) (by omega)

/-! ## Sums and means -/

/-- A number from zero up to a bound. -/
structure UpTo (q : ℚ) (x : Binary64) : Prop where
  nonNegative : NonNegative x
  value_le : x.value ≤ q

theorem UpTo.isFinite {q : ℚ} (h : UpTo q x) (hq : q < overflow) : x.isFinite = true := by
  rw [isFinite_iff_value h.nonNegative.isNumber, abs_of_nonneg h.nonNegative.le_value]
  exact h.value_le.trans_lt hq

theorem UpTo.isFinite_of_lt (h : UpTo m x) (hm : m < 2 ^ 53) : x.isFinite = true := by
  have hlt := magnitude_lt_overflow (e := 0) hm (by norm_num)
  rw [zpow_zero, mul_one] at hlt
  exact h.isFinite hlt

theorem UpTo.floor_le (h : UpTo m x) : x.floor ≤ m := by
  rw [h.nonNegative.floor_eq]
  exact Nat.floor_le_of_le h.value_le

theorem UpTo.ceil_le (h : UpTo m x) : x.ceil ≤ m := by
  rw [h.nonNegative.ceil_eq]
  exact Nat.ceil_le.mpr h.value_le

/-- So many times a power of two is a figure, and does not overflow. -/
theorem rounded_natCast_mul (hm : m < 2 ^ 53) (hn : n ≤ 971) :
    rounded (m * 2 ^ n) = m * 2 ^ n ∧ (m : ℚ) * 2 ^ n < overflow := by
  have h := rounded_of_bits (e := n) hm (by omega) (by omega)
  have hlt := magnitude_lt_overflow (e := n) hm (by omega)
  rw [zpow_natCast] at h hlt
  exact ⟨h, hlt⟩

/-- One more summand adds one more bound: the sum of the bounds is not rounded. -/
theorem UpTo.add_small (hx : UpTo (m * 2 ^ n) x) (hy : Small n y) (hm : m + 1 < 2 ^ 53)
    (hn : n ≤ 971) : UpTo ((m + 1 : ℕ) * 2 ^ n) (x + y) := by
  obtain ⟨-, hover⟩ := rounded_natCast_mul (Nat.lt_of_succ_lt hm) hn
  obtain ⟨hexact, -⟩ := rounded_natCast_mul hm hn
  have hsum := hasValue_add (hx.isFinite hover) (hy.isFinite (by omega))
  refine ⟨hx.nonNegative.add hy.nonNegative, ?_⟩
  calc (x + y).value
    _ = rounded (x.value + y.value) := hsum.value_eq
    _ ≤ rounded ((m + 1 : ℕ) * 2 ^ n) := by
        refine rounded_mono ?_
        rw [Nat.cast_add_one, add_one_mul]
        exact add_le_add hx.value_le hy.atMost.value_le
    _ = (m + 1 : ℕ) * 2 ^ n := hexact

theorem upTo_foldl_add {xs : List Binary64} (hxs : ∀ x ∈ xs, Small n x) (hx : UpTo (m * 2 ^ n) x)
    (hm : m + xs.length < 2 ^ 53) (hn : n ≤ 971) :
    UpTo ((m + xs.length : ℕ) * 2 ^ n) (xs.foldl (· + ·) x) := by
  induction xs generalizing x m with
  | nil => exact hx
  | cons y xs ih =>
    have hm' : m + 1 + xs.length < 2 ^ 53 := by
      rw [List.length_cons] at hm
      omega
    have hstep := hx.add_small (hxs y List.mem_cons_self) (by omega) hn
    have hrest := ih (fun z hz => hxs z (List.mem_cons_of_mem y hz)) hstep hm'
    have hlength : m + (y :: xs).length = m + 1 + xs.length := by
      rw [List.length_cons]
      omega
    rw [hlength]
    exact hrest

theorem hasValue_negativeZero : HasValue negativeZero 0 := ⟨by decide, by
  rw [value, show negativeZero.significand = 0 by decide, Nat.cast_zero, zero_mul, mul_zero]⟩

theorem upTo_sum {xs : List Binary64} (hxs : ∀ x ∈ xs, Small n x) (hlength : xs.length < 2 ^ 53)
    (hn : n ≤ 971) : UpTo (xs.length * 2 ^ n) (sum xs) := by
  have hstart : UpTo ((0 : ℕ) * 2 ^ n) negativeZero := by
    refine ⟨hasValue_negativeZero.nonNegative le_rfl, ?_⟩
    rw [hasValue_negativeZero.value_eq, Nat.cast_zero, zero_mul]
  have hsum := upTo_foldl_add hxs hstart (by omega) hn
  rwa [Nat.zero_add] at hsum

/-- A mean does not exceed a bound on what it is the mean of. -/
theorem small_mean {xs : List Binary64} (hne : xs ≠ []) (hxs : ∀ x ∈ xs, Small n x)
    (hlength : xs.length < 2 ^ 53) (hn : n ≤ 971) : Small n (sum xs / ofNat xs.length) := by
  have hcount := hasValue_ofNat hlength
  have hpos : (0 : ℚ) < xs.length := by exact_mod_cast List.length_pos_iff.mpr hne
  have hcount₀ : 0 < (ofNat xs.length).value := hcount.value_eq ▸ hpos
  have hsum := upTo_sum hxs hlength hn
  have hfinite := hsum.isFinite (rounded_natCast_mul hlength hn).2
  have hmean := hasValue_div hfinite (isFinite_ofNat _) hcount₀.ne'
  have hle : (sum xs).value / (ofNat xs.length).value ≤ 2 ^ n := by
    rw [hcount.value_eq, div_le_iff₀ hpos, mul_comm]
    exact hsum.value_le
  exact hmean.small (div_nonneg hsum.nonNegative.le_value hcount₀.le) hle (by omega)

end BattleOdds.Binary64
