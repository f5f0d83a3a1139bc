import BattleOdds.Proofs.Binary64.Interpolation
import BattleOdds.Proofs.Binary64.Nearest

/-!
# The error of sums

A sum of two figures is whole in the least unit, so rounding it errs by `2 ^ -53` of it at most,
however small it is. Over a list these errors compound: a sum of `n` figures between two bounds may
leave the range that `n` times the bounds make up by as much as `drift (n - 1)` of it. The first
figure is added to nothing, so a single one is its own sum.
-/
namespace BattleOdds

namespace Rounding

variable {q : ℚ}

/-- What is whole in the least unit errs by `2 ^ -53` of it at most. -/
theorem abs_unbounded_sub_le_mul {n : ℤ} (hn : q = n * 2 ^ (-1074 : ℤ)) (hq : 0 < q) :
    |unbounded q - q| ≤ 2 ^ (-53 : ℤ) * q := by
  rcases (unitExponent_ge q).eq_or_lt with hleast | hunit
  · have hwhole : q / 2 ^ unitExponent q = n := by
      rw [← hleast, hn, mul_div_cancel_right₀ _ (by positivity)]
    have hexact : unbounded q = q := by
      rw [unbounded, hwhole, roundEven_intCast, ← hleast, ← hn]
    rw [hexact, sub_self, abs_zero]
    positivity
  · have hunit₀ : (0 : ℚ) < 2 ^ unitExponent q := by positivity
    have hle : 2 ^ 52 * 2 ^ unitExponent q ≤ q := (le_div_iff₀ hunit₀).mp (le_div_unit hq hunit)
    calc |unbounded q - q|
      _ ≤ 2 ^ unitExponent q / 2 := abs_unbounded_sub_le q
      _ = 2 ^ (-53 : ℤ) * (2 ^ 52 * 2 ^ unitExponent q) := by norm_num; ring
      _ ≤ 2 ^ (-53 : ℤ) * q := by gcongr

theorem abs_rounded_sub_le_mul {n : ℤ} (hn : q = n * 2 ^ (-1074 : ℤ)) (h : |rounded q| < overflow) :
    |rounded q - q| ≤ 2 ^ (-53 : ℤ) * |q| := by
  have hpos {p : ℚ} {k : ℤ} (hk : p = k * 2 ^ (-1074 : ℤ)) (hp : 0 < p)
      (hr : |rounded p| < overflow) : |rounded p - p| ≤ 2 ^ (-53 : ℤ) * |p| := by
    rw [abs_of_nonneg (rounded_nonneg hp.le), rounded_of_nonneg hp.le, min_lt_iff] at hr
    have hlt := hr.resolve_left (lt_irrefl _)
    rw [rounded_of_nonneg hp.le, min_eq_right hlt.le, abs_of_pos hp]
    exact abs_unbounded_sub_le_mul hk hp
  rcases lt_trichotomy q 0 with hneg | rfl | hq
  · have hflip {c : ℚ} (h : q = n * c) : -q = (-n : ℤ) * c := by rw [Int.cast_neg, neg_mul, ← h]
    have hmirror := hpos (hflip hn) (neg_pos.mpr hneg) (by rwa [rounded_neg, abs_neg])
    rwa [rounded_neg, neg_sub_neg, abs_sub_comm, abs_neg] at hmirror
  · simp
  · exact hpos hn hq h

theorem abs_rounded (q : ℚ) : |rounded q| = rounded |q| := by
  rcases le_total 0 q with hq | hq
  · rw [abs_of_nonneg hq, abs_of_nonneg (rounded_nonneg hq)]
  · have hneg := rounded_nonneg (neg_nonneg.mpr hq)
    rw [rounded_neg] at hneg
    rw [abs_of_nonpos hq, abs_of_nonpos (neg_nonneg.mp hneg), rounded_neg]

/-! ## Compounded errors -/

/-- The error of a number of roundings, relative to what is rounded. -/
def drift (roundings : ℕ) : ℚ := (1 + 2 ^ (-53 : ℤ)) ^ roundings - 1

@[simp] theorem drift_zero : drift 0 = 0 := by simp [drift]

theorem drift_add (j k : ℕ) : drift (j + k) = (1 + drift j) * (1 + drift k) - 1 := by
  simp only [drift, pow_add]
  ring

theorem drift_nonneg (n : ℕ) : 0 ≤ drift n := by
  have hone : (1 : ℚ) ≤ 1 + 2 ^ (-53 : ℤ) := le_add_of_nonneg_right (by positivity)
  exact sub_nonneg.mpr (one_le_pow₀ hone)

theorem drift_one : drift 1 = 2 ^ (-53 : ℤ) := by simp [drift]

/-- One more summand, rounded once more, from below. The error is monotone in what it is an error
of, so it is greatest for the least sum. -/
theorem lower_add {m s x r : ℚ} {n k : ℕ} (hs : n * (m - drift k * |m|) ≤ s) (hx : m ≤ x)
    (hr : |r - (s + x)| ≤ drift 1 * |s + x|) :
    (n + 1 : ℕ) * (m - drift (k + 1) * |m|) ≤ r := by
  set d := drift k
  set u := drift 1 with hu
  have hd : 0 ≤ d := drift_nonneg k
  have hu₀ : 0 ≤ u := drift_nonneg 1
  have hu₁ : u ≤ 1 := by rw [hu, drift_one]; norm_num
  have hn : (0 : ℚ) ≤ n := Nat.cast_nonneg n
  set t := n * (m - d * |m|) + m with ht
  have htle : t ≤ s + x := add_le_add hs hx
  have hlow : t - u * |t| ≤ s + x - u * |s + x| := by
    have habs : |s + x| - |t| ≤ s + x - t := by
      calc |s + x| - |t| ≤ |s + x - t| := abs_sub_abs_le_abs_sub _ _
        _ = s + x - t := abs_of_nonneg (sub_nonneg.mpr htle)
    nlinarith
  have hsize : |t| ≤ (n + 1 + n * d) * |m| := by
    rw [abs_le]
    constructor <;> nlinarith [neg_abs_le m, le_abs_self m, abs_nonneg m, mul_nonneg hn hd]
  calc (n + 1 : ℕ) * (m - drift (k + 1) * |m|)
    _ = (n + 1) * m - (n + 1) * (d + u + d * u) * |m| := by
        rw [drift_add]
        push_cast
        ring
    _ ≤ (n + 1) * m - (n * d + u * (n + 1 + n * d)) * |m| := by
        have hmore : n * d + u * (n + 1 + n * d) ≤ (n + 1) * (d + u + d * u) := by nlinarith
        linarith [mul_le_mul_of_nonneg_right hmore (abs_nonneg m)]
    _ = t - u * ((n + 1 + n * d) * |m|) := by rw [ht]; ring
    _ ≤ t - u * |t| := by linarith [mul_le_mul_of_nonneg_left hsize hu₀]
    _ ≤ s + x - u * |s + x| := hlow
    _ ≤ r := by linarith [(abs_le.mp hr).1]

/-- A sum of a number of summands between two bounds, with a number of roundings. -/
structure Between (lo hi : ℚ) (summands roundings : ℕ) (s : ℚ) : Prop where
  lower : summands * (lo - drift roundings * |lo|) ≤ s
  upper : s ≤ summands * (hi + drift roundings * |hi|)

theorem Between.add {lo hi s x r : ℚ} {n k : ℕ} (h : Between lo hi n k s) (hx : lo ≤ x ∧ x ≤ hi)
    (hr : |r - (s + x)| ≤ drift 1 * |s + x|) : Between lo hi (n + 1) (k + 1) r where
  lower := lower_add h.lower hx.1 hr
  upper := by
    -- From above it is the same from below, of the negated numbers.
    have hs : n * (-hi - drift k * |(-hi)|) ≤ -s := by
      rw [abs_neg]
      linarith [h.upper]
    have hr' : |(-r) - (-s + -x)| ≤ drift 1 * |(-s) + -x| := by
      rw [show -r - (-s + -x) = -(r - (s + x)) by ring, show -s + -x = -(s + x) by ring, abs_neg,
        abs_neg]
      exact hr
    have hmirror := lower_add hs (neg_le_neg hx.2) hr'
    rw [abs_neg] at hmirror
    linarith

/-- Dividing by another count than that of the summands compounds the error with that of the count.
-/
theorem Between.div {lo hi s c : ℚ} {n j k : ℕ} (h : Between lo hi n k s) (hc : 0 < c)
    (hcount : |n / c - 1| ≤ drift j) : Between lo hi 1 (j + k) (s / c) := by
  have hratio : (0 : ℚ) ≤ n / c := by positivity
  have hd := drift_nonneg k
  have hj := drift_nonneg j
  -- A multiple of the bound is as far off as the ratio is from one.
  have hlower {m p : ℚ} (hp : n * (m - drift k * |m|) ≤ p) :
      m - drift (j + k) * |m| ≤ p / c := by
    have hle : n / c * (m - drift k * |m|) ≤ p / c := by
      calc n / c * (m - drift k * |m|) = n * (m - drift k * |m|) / c := by ring
        _ ≤ p / c := by gcongr
    have hoff : (1 - n / c) * m ≤ drift j * |m| := by
      calc (1 - n / c) * m ≤ |(1 - n / c) * m| := le_abs_self _
        _ = |n / c - 1| * |m| := by rw [abs_mul, abs_sub_comm]
        _ ≤ drift j * |m| := by gcongr
    have hmost : n / c ≤ 1 + drift j := by linarith [(abs_le.mp hcount).2]
    have hmost' := mul_le_mul_of_nonneg_right hmost (mul_nonneg hd (abs_nonneg m))
    rw [drift_add]
    nlinarith
  constructor
  · rw [Nat.cast_one, one_mul]
    exact hlower h.lower
  · have hs : n * (-hi - drift k * |(-hi)|) ≤ -s := by
      rw [abs_neg]
      linarith [h.upper]
    have hmirror := hlower hs
    rw [abs_neg, neg_div] at hmirror
    rw [Nat.cast_one, one_mul]
    linarith

end Rounding

namespace Binary64
open Rounding

variable {x y : Binary64} {xs : List Binary64}

/-! ## Sums of figures -/

theorem exists_add_eq_mul_unit (x y : Binary64) :
    ∃ n : ℤ, x.value + y.value = n * 2 ^ (-1074 : ℤ) := by
  obtain ⟨m, hm⟩ := exists_value_eq_mul_unit x
  obtain ⟨n, hn⟩ := exists_value_eq_mul_unit y
  exact ⟨m + n, by rw [hm, hn, Int.cast_add, add_mul]⟩

/-- The error of one addition. -/
theorem abs_add_sub_le (hx : x.isFinite = true) (hy : y.isFinite = true)
    (h : (x + y).isFinite = true) :
    |(x + y).value - (x.value + y.value)| ≤ drift 1 * |x.value + y.value| := by
  obtain ⟨n, hn⟩ := exists_add_eq_mul_unit x y
  have hsum := hasValue_add hx hy
  have hover := (isFinite_iff_value hsum.isNumber).mp h
  rw [hsum.value_eq] at hover ⊢
  rw [drift_one]
  exact abs_rounded_sub_le_mul hn hover

/-- A finite figure added to a number leaves a number, and an infinity as it is. -/
theorem isNaN_add (hx : x.isNaN = false) (hy : y.isFinite = true) : (x + y).isNaN = false := by
  cases hfx : x.isFinite with
  | true => exact (hasValue_add hfx hy).isNumber
  | false => exact (hasValue_add_of_infinite hx hfx hy).isNumber

theorem isFinite_of_add (hx : x.isNaN = false) (hy : y.isFinite = true)
    (h : (x + y).isFinite = true) : x.isFinite = true := by
  cases hfx : x.isFinite with
  | true => rfl
  | false =>
    have hsum := hasValue_add_of_infinite hx hfx hy
    rw [isFinite_iff_value hsum.isNumber, hsum.value_eq, ← isFinite_iff_value hx, hfx] at h
    exact absurd h Bool.false_ne_true

theorem isFinite_of_foldl_add (hx : x.isNaN = false) (hxs : ∀ y ∈ xs, y.isFinite = true)
    (h : (xs.foldl (· + ·) x).isFinite = true) : x.isFinite = true := by
  induction xs generalizing x with
  | nil => exact h
  | cons y xs ih =>
    rw [List.forall_mem_cons] at hxs
    exact isFinite_of_add hx hxs.1 (ih (isNaN_add hx hxs.1) hxs.2 h)

/-- Each further summand rounds once. -/
theorem between_foldl_add {lo hi : ℚ} {n k : ℕ} (hx : Between lo hi n k x.value)
    (hnumber : x.isNaN = false) (hxs : ∀ y ∈ xs, y.isFinite = true)
    (hrange : ∀ y ∈ xs, lo ≤ y.value ∧ y.value ≤ hi)
    (h : (xs.foldl (· + ·) x).isFinite = true) :
    Between lo hi (n + xs.length) (k + xs.length) (xs.foldl (· + ·) x).value := by
  induction xs generalizing x n k with
  | nil => exact hx
  | cons y xs ih =>
    rw [List.forall_mem_cons] at hxs hrange
    have hsum := isFinite_of_foldl_add (isNaN_add hnumber hxs.1) hxs.2 h
    have hfx := isFinite_of_add hnumber hxs.1 hsum
    have hstep := hx.add hrange.1 (abs_add_sub_le hfx hxs.1 hsum)
    have hrest := ih hstep (isNaN_add hnumber hxs.1) hxs.2 hrange.2 h
    rwa [Nat.add_right_comm, Nat.add_right_comm k] at hrest

/-- What is added to the start of a sum keeps its value. -/
theorem hasValue_negativeZero_add (hx : x.isFinite = true) :
    HasValue (negativeZero + x) x.value := by
  have hsum := hasValue_add (x := negativeZero) (by decide) hx
  rwa [hasValue_negativeZero.value_eq, zero_add, rounded_value (isNaN_of_isFinite hx)] at hsum

/-- A sum stays within as many times the bounds of its summands, up to the drift of all additions
but the first. -/
theorem between_sum {lo hi : ℚ} (hne : xs ≠ []) (hxs : ∀ y ∈ xs, y.isFinite = true)
    (hrange : ∀ y ∈ xs, lo ≤ y.value ∧ y.value ≤ hi) (h : (sum xs).isFinite = true) :
    Between lo hi xs.length (xs.length - 1) (sum xs).value := by
  obtain ⟨x, xs, rfl⟩ := List.exists_cons_of_ne_nil hne
  rw [List.forall_mem_cons] at hxs hrange
  have hstart := hasValue_negativeZero_add hxs.1
  have hfirst : Between lo hi 1 0 (negativeZero + x).value := by
    rw [hstart.value_eq]
    constructor <;> simp [hrange.1]
  have hrest := between_foldl_add hfirst hstart.isNumber hxs.2 hrange.2 h
  rwa [Nat.zero_add, Nat.add_comm 1] at hrest

/-! ## Counts -/

/-- Dividing by a count takes as much as two more roundings once the count is rounded itself. -/
def countRoundings (count : ℕ) : ℕ := if count ≤ 2 ^ 53 then 0 else 2

theorem hasValue_ofNat_of_le {n : ℕ} (hn : n ≤ 2 ^ 53) : HasValue (ofNat n) n := by
  rcases hn.eq_or_lt with rfl | hlt
  · have h := hasValue_ofNat_rounded (m := 2 ^ 53) (by norm_num)
    rwa [Nat.cast_pow, Nat.cast_ofNat, rounded_two_pow (by norm_num)] at h
  · exact hasValue_ofNat hlt

theorem one_le_value_ofNat {n : ℕ} (hpos : 0 < n) (hn : n < 2 ^ 64) : 1 ≤ (ofNat n).value := by
  rw [(hasValue_ofNat_rounded hn).value_eq]
  calc (1 : ℚ) = rounded (1 : ℕ) := by rw [rounded_natCast (by norm_num), Nat.cast_one]
    _ ≤ rounded n := rounded_mono (by exact_mod_cast hpos)

theorem natCast_eq_mul_unit (n k : ℕ) : (n : ℚ) = (n * 2 ^ k : ℤ) * 2 ^ (-k : ℤ) := by
  rw [Int.cast_mul, Int.cast_natCast, Int.cast_pow, Int.cast_ofNat, zpow_neg, zpow_natCast,
    mul_inv_cancel_right₀ (by positivity)]

theorem abs_div_ofNat_sub_one_le {n : ℕ} (hpos : 0 < n) (hn : n < 2 ^ 64) :
    |n / (ofNat n).value - 1| ≤ drift (countRoundings n) := by
  have hn₀ : (0 : ℚ) < n := by exact_mod_cast hpos
  by_cases hexact : n ≤ 2 ^ 53
  · rw [(hasValue_ofNat_of_le hexact).value_eq, div_self hn₀.ne', sub_self, abs_zero]
    exact drift_nonneg _
  · rw [countRoundings, if_neg hexact]
    have hcount := hasValue_ofNat_rounded hn
    have hc := zero_lt_one.trans_le (one_le_value_ofNat hpos hn)
    have hwhole := natCast_eq_mul_unit n 1074
    have hover := (isFinite_iff_value hcount.isNumber).mp (isFinite_ofNat n)
    rw [hcount.value_eq] at hover
    have herror := abs_rounded_sub_le_mul hwhole hover
    rw [← hcount.value_eq, abs_of_pos hn₀, abs_sub_comm] at herror
    set c := (ofNat n).value
    have hlow : (1 - 2 ^ (-53 : ℤ)) * n ≤ c := by linarith [(abs_le.mp herror).2]
    calc |n / c - 1|
      _ = |n - c| / c := by rw [div_sub_one hc.ne', abs_div, abs_of_pos hc]
      _ ≤ drift 2 := by
          rw [div_le_iff₀ hc]
          have hdrift : (2 ^ (-53 : ℤ) : ℚ) ≤ drift 2 * (1 - 2 ^ (-53 : ℤ)) := by
            norm_num [drift]
          have hscaled := mul_le_mul_of_nonneg_right hdrift hn₀.le
          have hback := mul_le_mul_of_nonneg_left hlow (drift_nonneg 2)
          linarith

end Binary64
end BattleOdds
