import BattleOdds.Proofs.Binary64.Sums
import BattleOdds.Proofs.Percentile.Order

/-!
# The mean and the range

A mean is a rounded sum divided by a count, so it may leave the range of its samples: three times
`0.1` have a mean above `0.1`. It does so by no more than the drift of the additions, and not at all
where the sum is exact or where there are at most two samples, whose sum lies between the doubles of
both.
-/
namespace BattleOdds
open Binary64 Rounding

variable {samples : List Binary64} {x y v : Binary64}

/-! ## Doubles -/

/-- A figure is doubled exactly, unless that leads to an infinity. -/
theorem rounded_two_mul_value (x : Binary64) :
    rounded (2 * x.value) = max (-overflow) (min overflow (2 * x.value)) := by
  have hmagnitude : unbounded (2 * (x.significand * 2 ^ x.exponent))
      = 2 * (x.significand * 2 ^ x.exponent) := by
    have hbits := unbounded_of_bits (e := x.exponent + 1) x.significand_lt (by
      rw [exponent_eq]
      omega)
    rwa [zpow_add_one₀ (by norm_num), ← mul_assoc, mul_comm _ (2 : ℚ)] at hbits
  have hpos : 0 ≤ 2 * ((x.significand : ℚ) * 2 ^ x.exponent) := by positivity
  have hrounded := rounded_of_nonneg hpos
  rw [hmagnitude] at hrounded
  have hover := overflow_pos
  rw [value]
  cases x.sign with
  | positive =>
    rw [signFactor, one_mul, hrounded, max_eq_right]
    exact le_min (by linarith) (by linarith)
  | negative =>
    rw [signFactor, neg_one_mul, mul_neg, rounded_neg, hrounded, ← max_neg_neg, min_eq_right]
    linarith

/-- The sum of two figures lies between their doubles. -/
theorem double_le_add (hx : x.isFinite = true) (hy : y.isFinite = true) (hxy : x.value ≤ y.value)
    (h : (x + y).isFinite = true) :
    2 * x.value ≤ (x + y).value ∧ (x + y).value ≤ 2 * y.value := by
  have hsum := hasValue_add hx hy
  have hfinite := abs_lt.mp ((isFinite_iff_value hsum.isNumber).mp h)
  have hlow : rounded (2 * x.value) ≤ (x + y).value := by
    rw [hsum.value_eq]
    exact rounded_mono (by linarith)
  have hhigh : (x + y).value ≤ rounded (2 * y.value) := by
    rw [hsum.value_eq]
    exact rounded_mono (by linarith)
  rw [rounded_two_mul_value] at hlow hhigh
  constructor
  · rcases min_le_iff.mp ((le_max_right _ _).trans hlow) with hover | hle
    · exact absurd hover (not_le.mpr hfinite.2)
    · exact hle
  · rcases le_max_iff.mp hhigh with hover | hle
    · exact absurd hover (not_le.mpr hfinite.1)
    · exact hle.trans (min_le_right _ _)

/-! ## Exact sums -/

/-- A signed number of 53 bits is not rounded. -/
theorem rounded_intCast_mul {k e : ℤ} (hk : |k| < 2 ^ 53) (he : -1074 ≤ e ∧ e ≤ 971) :
    rounded (k * 2 ^ e) = k * 2 ^ e ∧ |(k : ℚ) * 2 ^ e| < overflow := by
  have hbits : k.natAbs < 2 ^ 53 := by
    rw [Int.abs_eq_natAbs] at hk
    exact_mod_cast hk
  have hround := rounded_of_bits hbits he.1 he.2
  have hover := magnitude_lt_overflow hbits he.2
  have hcast : ((k.natAbs : ℕ) : ℚ) = |(k : ℚ)| := by rw [Nat.cast_natAbs, Int.cast_abs]
  have hunit : (0 : ℚ) < 2 ^ e := by positivity
  rw [hcast] at hround hover
  rw [abs_mul, abs_of_pos hunit]
  refine ⟨?_, hover⟩
  rcases abs_choice (k : ℚ) with hsign | hsign
  · rwa [hsign] at hround
  · rwa [hsign, neg_mul, rounded_neg, neg_inj] at hround

/-- Repeating a figure with few enough bits adds up exactly. -/
theorem hasValue_foldl_replicate {m e : ℤ} (hv : v.value = m * 2 ^ e) (hf : v.isFinite = true)
    (he : -1074 ≤ e ∧ e ≤ 971) {k n : ℕ} (hm : ((k + n : ℕ) : ℤ) * |m| < 2 ^ 53)
    (hx : HasValue x (k * v.value)) :
    HasValue ((List.replicate n v).foldl (· + ·) x) ((k + n : ℕ) * v.value) := by
  induction n generalizing k x with
  | zero => exact hx
  | succ n ih =>
    have hexact {j : ℕ} (hj : j ≤ k + (n + 1)) :
        rounded (j * v.value) = j * v.value ∧ |j * v.value| < overflow := by
      have hbits : |(j : ℤ) * m| < 2 ^ 53 := by
        rw [abs_mul, Nat.abs_cast]
        exact (mul_le_mul_of_nonneg_right (by exact_mod_cast hj) (abs_nonneg m)).trans_lt hm
      have h := rounded_intCast_mul hbits he
      rwa [Int.cast_mul, Int.cast_natCast, mul_assoc, ← hv] at h
    have hfx : x.isFinite = true := by
      rw [isFinite_iff_value hx.isNumber, hx.value_eq]
      exact (hexact (Nat.le_add_right k _)).2
    have hstep := hasValue_add hfx hf
    have hnext : (k : ℚ) * v.value + v.value = (k + 1 : ℕ) * v.value := by
      rw [Nat.cast_add_one, add_one_mul]
    rw [hx.value_eq, hnext, (hexact (by omega)).1] at hstep
    have hcount : k + 1 + n = k + (n + 1) := by omega
    have hrest := ih (k := k + 1) (by rwa [hcount]) hstep
    rwa [hcount] at hrest

theorem hasValue_sum_replicate {m e : ℤ} (hv : v.value = m * 2 ^ e) (hf : v.isFinite = true)
    (he : -1074 ≤ e ∧ e ≤ 971) {n : ℕ} (hm : (n : ℤ) * |m| < 2 ^ 53) :
    HasValue (sum (List.replicate n v)) (n * v.value) := by
  have hstart : HasValue negativeZero ((0 : ℕ) * v.value) := by
    rw [Nat.cast_zero, zero_mul]
    exact hasValue_negativeZero
  have hsum := hasValue_foldl_replicate hv hf he (k := 0) (n := n) (by rwa [Nat.zero_add]) hstart
  rwa [Nat.zero_add] at hsum

/-! ## Sorted samples -/

/-- The roundings that a mean of a number of samples may be off by. -/
def meanRoundings (count : ℕ) : ℕ := countRoundings count + (count - 1)

/-- Finite samples in the total order, as many as a word counts, whose sum does not overflow. -/
structure Addable (sorted : List Binary64) : Prop where
  ne_nil : sorted ≠ []
  length_lt : sorted.length < 2 ^ 64
  pairwise : sorted.Pairwise (totalLE · ·)
  isFinite : ∀ x ∈ sorted, x.isFinite = true
  isFinite_sum : (sum sorted).isFinite = true

namespace Addable

variable {sorted : List Binary64} (h : Addable sorted)
include h

theorem length_pos : 0 < sorted.length := List.length_pos_iff.mpr h.ne_nil

theorem one_le_count : 1 ≤ (ofNat sorted.length).value :=
  one_le_value_ofNat h.length_pos h.length_lt

theorem isFinite_place {i : ℕ} (hi : i < sorted.length) :
    (sorted.toArray.getD i 0.0).isFinite = true :=
  h.isFinite _ (Spread.place_mem hi)

theorem range (hx : x ∈ sorted) :
    (sorted.toArray.getD 0 0.0).value ≤ x.value
      ∧ x.value ≤ (sorted.toArray.getD (sorted.length - 1) 0.0).value := by
  obtain ⟨i, hi, rfl⟩ := List.mem_iff_getElem.mp hx
  have hplace := Option.some.inj ((List.getElem?_eq_getElem hi).symm.trans (Spread.getElem?_eq hi))
  rw [hplace]
  exact ⟨value_getD_mono h.pairwise (Nat.zero_le i) hi,
    value_getD_mono h.pairwise (Nat.le_sub_one_of_lt hi) (Nat.sub_lt h.length_pos one_pos)⟩

theorem hasValue_mean : HasValue (sum sorted / ofNat sorted.length)
    (rounded ((sum sorted).value / (ofNat sorted.length).value)) :=
  hasValue_div h.isFinite_sum (isFinite_ofNat _) (zero_lt_one.trans_le h.one_le_count).ne'

theorem isFinite_mean : (sum sorted / ofNat sorted.length).isFinite = true := by
  have hsum := (isFinite_iff_value (isNaN_of_isFinite h.isFinite_sum)).mp h.isFinite_sum
  have hone := h.one_le_count
  have hquotient : |(sum sorted).value / (ofNat sorted.length).value| ≤ |(sum sorted).value| := by
    rw [abs_div, abs_of_pos (zero_lt_one.trans_le hone)]
    exact div_le_self (abs_nonneg _) hone
  rw [isFinite_iff_value h.hasValue_mean.isNumber, h.hasValue_mean.value_eq, abs_rounded]
  calc rounded |(sum sorted).value / (ofNat sorted.length).value|
    _ ≤ rounded |(sum sorted).value| := rounded_mono hquotient
    _ = |(sum sorted).value| := by
        rw [← abs_rounded, rounded_value (isNaN_of_isFinite h.isFinite_sum)]
    _ < overflow := hsum

/-- Before it is rounded, the mean leaves the range by the drift at most. -/
theorem between_mean : Between (sorted.toArray.getD 0 0.0).value
    (sorted.toArray.getD (sorted.length - 1) 0.0).value 1 (meanRoundings sorted.length)
    ((sum sorted).value / (ofNat sorted.length).value) :=
  (between_sum h.ne_nil h.isFinite (fun _ hx => h.range hx) h.isFinite_sum).div
    (zero_lt_one.trans_le h.one_le_count) (abs_div_ofNat_sub_one_le h.length_pos h.length_lt)

/-- A sum between as many times two figures has a mean between the two. -/
theorem mean_mem (hlength : sorted.length ≤ 2 ^ 53) (hx : x.isNaN = false) (hy : y.isNaN = false)
    (hlow : sorted.length * x.value ≤ (sum sorted).value)
    (hhigh : (sum sorted).value ≤ sorted.length * y.value) :
    x ≤ sum sorted / ofNat sorted.length ∧ sum sorted / ofNat sorted.length ≤ y := by
  have hmean := h.hasValue_mean
  have hcount : (0 : ℚ) < sorted.length := by exact_mod_cast h.length_pos
  rw [(hasValue_ofNat_of_le hlength).value_eq] at hmean
  constructor
  · refine HasValue.le ⟨hx, rfl⟩ hmean ?_
    rw [← rounded_value hx]
    exact rounded_mono ((le_div_iff₀' hcount).mpr hlow)
  · refine hmean.le ⟨hy, rfl⟩ ?_
    rw [← rounded_value hy]
    exact rounded_mono ((div_le_iff₀' hcount).mpr hhigh)

theorem mean_mem_of_exact (hlength : sorted.length ≤ 2 ^ 53)
    (hexact : (sum sorted).value = (sorted.map value).sum) :
    sorted.toArray.getD 0 0.0 ≤ sum sorted / ofNat sorted.length
      ∧ sum sorted / ofNat sorted.length ≤ sorted.toArray.getD (sorted.length - 1) 0.0 := by
  have hlast : sorted.length - 1 < sorted.length := Nat.sub_lt h.length_pos one_pos
  have hlow := List.card_nsmul_le_sum (sorted.map value) _
    (List.forall_mem_map.mpr fun _ hx => (h.range hx).1)
  have hhigh := List.sum_le_card_nsmul (sorted.map value) _
    (List.forall_mem_map.mpr fun _ hx => (h.range hx).2)
  rw [List.length_map, nsmul_eq_mul, ← hexact] at hlow hhigh
  exact h.mean_mem hlength (isNaN_of_isFinite (h.isFinite_place h.length_pos))
    (isNaN_of_isFinite (h.isFinite_place hlast)) hlow hhigh

theorem mean_mem_of_length_le_two (htwo : sorted.length ≤ 2) :
    sorted.toArray.getD 0 0.0 ≤ sum sorted / ofNat sorted.length
      ∧ sum sorted / ofNat sorted.length ≤ sorted.toArray.getD (sorted.length - 1) 0.0 := by
  have hlength : sorted.length ≤ 2 ^ 53 := htwo.trans (by norm_num)
  match sorted, h, htwo with
  | [], h, _ => exact absurd rfl h.ne_nil
  | [x], h, _ =>
    have hx := h.isFinite x List.mem_cons_self
    refine h.mean_mem_of_exact hlength ?_
    rw [List.map_singleton, List.sum_singleton]
    exact (hasValue_negativeZero_add hx).value_eq
  | [x, y], h, _ =>
    have hx := h.isFinite x List.mem_cons_self
    have hy := h.isFinite y (List.mem_cons_of_mem x List.mem_cons_self)
    have hstart := hasValue_negativeZero_add hx
    have hxf : (negativeZero + x).isFinite = true := by
      rw [isFinite_iff_value hstart.isNumber, hstart.value_eq]
      exact (isFinite_iff_value (isNaN_of_isFinite hx)).mp hx
    have hxy : (negativeZero + x).value ≤ y.value := by
      rw [hstart.value_eq]
      exact value_le_of_totalLE (List.rel_of_pairwise_cons h.pairwise List.mem_cons_self)
    obtain ⟨hlow, hhigh⟩ := double_le_add hxf hy hxy h.isFinite_sum
    rw [hstart.value_eq] at hlow
    exact h.mean_mem hlength (isNaN_of_isFinite hx) (isNaN_of_isFinite hy) hlow hhigh

/-- Where all samples are one figure of few bits, that is the mean. -/
theorem mean_of_constant {m e : ℤ} (hv : ∀ x ∈ sorted, x = v) (hvalue : v.value = m * 2 ^ e)
    (he : -1074 ≤ e ∧ e ≤ 971) (hm : (sorted.length : ℤ) * |m| < 2 ^ 53) :
    HasValue (sum sorted / ofNat sorted.length) v.value := by
  have hf : v.isFinite = true := by
    obtain ⟨x, hx⟩ := List.exists_mem_of_ne_nil sorted h.ne_nil
    exact hv x hx ▸ h.isFinite x hx
  have hsum := hasValue_sum_replicate hvalue hf he hm
  rw [← List.eq_replicate_of_mem hv] at hsum
  have hcount : (0 : ℚ) < sorted.length := by exact_mod_cast h.length_pos
  have hquotient : sorted.length * v.value / (ofNat sorted.length).value = v.value := by
    rcases eq_or_ne m 0 with rfl | hm₀
    · rw [hvalue, Int.cast_zero, zero_mul, mul_zero, zero_div]
    · have hlength : sorted.length ≤ 2 ^ 53 := by
        have hone := mul_le_mul_of_nonneg_left (Int.one_le_abs hm₀) (Nat.cast_nonneg sorted.length)
        rw [mul_one] at hone
        exact_mod_cast (hone.trans hm.le)
      rw [(hasValue_ofNat_of_le hlength).value_eq, mul_div_cancel_left₀ _ hcount.ne']
  have hmean := h.hasValue_mean
  rwa [hsum.value_eq, hquotient, rounded_value (isNaN_of_isFinite hf)] at hmean

end Addable

/-! ## Summaries -/

/-- The mean of a summary lies in the range of its samples but for the rounding of their sum. -/
structure Summary.Centered (samples : List Binary64) (s : Summary) : Prop where
  isFinite : s.mean.isFinite = true
  min_le_mean :
    rounded (s.min.value - drift (meanRoundings samples.length) * |s.min.value|) ≤ s.mean.value
  mean_le_max :
    s.mean.value ≤ rounded (s.max.value + drift (meanRoundings samples.length) * |s.max.value|)
  /-- Where the sum is not rounded, or up to two samples, the mean stays in the range. -/
  mem_of_exact (h : samples.length ≤ 2
      ∨ samples.length ≤ 2 ^ 53 ∧ (sum (sortSamples samples)).value = (samples.map value).sum) :
    s.min ≤ s.mean ∧ s.mean ≤ s.max
  /-- One figure in all samples is the least and the greatest, and if it has few bits the mean. -/
  constant (v : Binary64) (h : ∀ x ∈ samples, x = v) : s.min = v ∧ s.max = v
  mean_of_constant (v : Binary64) (h : ∀ x ∈ samples, x = v) (m e : ℤ) (hv : v.value = m * 2 ^ e)
    (he : -1074 ≤ e ∧ e ≤ 971) (hm : (samples.length : ℤ) * |m| < 2 ^ 53) :
    HasValue s.mean v.value

namespace Summary

theorem centered_ofSamples (hne : samples ≠ []) (hlength : samples.length < 2 ^ 64)
    (hfinite : ∀ x ∈ samples, x.isFinite = true)
    (hsum : (sum (sortSamples samples)).isFinite = true) :
    (ofSamples samples).Centered samples := by
  have hperm := sortSamples_perm samples
  have h : Addable (sortSamples samples) :=
    { ne_nil := fun hnil => hne (List.perm_nil.mp (hnil ▸ hperm).symm)
      length_lt := hperm.length_eq.trans_lt hlength
      pairwise := pairwise_sortSamples samples
      isFinite := fun x hx => hfinite x (hperm.subset hx)
      isFinite_sum := hsum }
  have hlast : (sortSamples samples).length - 1 < (sortSamples samples).length :=
    Nat.sub_lt h.length_pos one_pos
  have hbetween := h.between_mean
  have hmem (hexact : samples.length ≤ 2
      ∨ samples.length ≤ 2 ^ 53 ∧ (sum (sortSamples samples)).value = (samples.map value).sum) :
      (ofSorted (sortSamples samples)).min ≤ (ofSorted (sortSamples samples)).mean
        ∧ (ofSorted (sortSamples samples)).mean ≤ (ofSorted (sortSamples samples)).max := by
    rw [← hperm.length_eq, ← (hperm.map value).sum_eq] at hexact
    rcases hexact with htwo | ⟨hcount, hexact⟩
    · exact h.mean_mem_of_length_le_two htwo
    · exact h.mean_mem_of_exact hcount hexact
  have hconstant (v : Binary64) (hv : ∀ x ∈ samples, x = v) :
      (ofSorted (sortSamples samples)).min = v ∧ (ofSorted (sortSamples samples)).max = v :=
    ⟨hv _ (hperm.subset (Spread.place_mem h.length_pos)),
      hv _ (hperm.subset (Spread.place_mem hlast))⟩
  rw [ofSamples_of_sorted hperm (pairwise_sortSamples samples) hne]
  refine
    { isFinite := h.isFinite_mean
      min_le_mean := ?_
      mean_le_max := ?_
      mem_of_exact := hmem
      constant := hconstant
      mean_of_constant := fun v hv m e hvalue he hm => ?_ }
  · rw [← hperm.length_eq]
    have hlow := hbetween.lower
    rw [Nat.cast_one, one_mul] at hlow
    exact (rounded_mono hlow).trans_eq h.hasValue_mean.value_eq.symm
  · rw [← hperm.length_eq]
    have hhigh := hbetween.upper
    rw [Nat.cast_one, one_mul] at hhigh
    exact h.hasValue_mean.value_eq.trans_le (rounded_mono hhigh)
  · rw [← hperm.length_eq] at hm
    exact h.mean_of_constant (fun x hx => hv x (hperm.subset hx)) hvalue he hm

end Summary

end BattleOdds
