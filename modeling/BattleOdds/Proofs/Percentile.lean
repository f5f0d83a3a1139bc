import BattleOdds.Proofs.Binary64.Whole
import BattleOdds.Proofs.Summary

/-!
# Bounds on percentiles

The rank of a percentage lies in the sorted list, its lower place not after its upper one. Samples
that are numbers ascend in value there, so an interpolated percentile adds to its lower sample a
part of a difference that is not negative. A summary of non-negative samples with a common bound
therefore consists of finite figures from zero on.
-/
namespace BattleOdds

namespace Binary64
variable {x y : Binary64} {n : ℕ}

/-! ## The total order and the order of values -/

/-- The magnitude of a word grows with what it holds beside its sign. -/
theorem magnitude_value_mono (h : x.bits.toNat % 2 ^ 63 ≤ y.bits.toNat % 2 ^ 63) :
    (x.significand : ℚ) * 2 ^ x.exponent ≤ y.significand * 2 ^ y.exponent := by
  have hfields : x.exponentField < y.exponentField
      ∨ x.exponentField = y.exponentField ∧ x.fraction ≤ y.fraction := by
    rw [x.exponentField_eq, y.exponentField_eq, x.fraction_eq, y.fraction_eq]
    omega
  obtain hlt | ⟨hfield, hfraction⟩ := hfields
  · have hle : x.exponent ≤ y.exponent := by
      rw [exponent_eq, exponent_eq]
      omega
    have hy : 2 ^ 52 ≤ y.significand := le_significand (by omega)
    obtain hexponent | hexponent := hle.lt_or_eq
    · exact (magnitude_lt_of_exponent_lt x.significand_lt hy hexponent).le
    · -- The least exponent belongs to the fields 0 and 1.
      have hx₀ : x.exponentField = 0 := by
        rw [exponent_eq, exponent_eq] at hexponent
        omega
      have hx : x.significand ≤ y.significand := by
        rw [significand, if_pos hx₀]
        exact x.fraction_lt.le.trans hy
      rw [hexponent]
      gcongr
  · have hsignificand : x.significand ≤ y.significand := by
      rw [significand, significand, hfield]
      split_ifs <;> omega
    rw [exponent_eq, exponent_eq, hfield]
    gcongr

/-- In the total order numbers ascend in value. -/
theorem value_le_of_totalLE (h : totalLE x y = true) : x.value ≤ y.value := by
  rw [totalLE_iff, UInt64.le_iff_toNat_le, toNat_totalKey, toNat_totalKey] at h
  have hx := x.bits.toNat_lt
  have hy := y.bits.toNat_lt
  have hx₀ : 0 ≤ (x.significand : ℚ) * 2 ^ x.exponent := by positivity
  have hy₀ : 0 ≤ (y.significand : ℚ) * 2 ^ y.exponent := by positivity
  simp only [value, sign, isNegative_iff]
  -- With the sign set the key turns the order of the bits round, as the sign does that of values.
  by_cases hsx : 2 ^ 63 ≤ x.bits.toNat <;> by_cases hsy : 2 ^ 63 ≤ y.bits.toNat
  · rw [if_pos hsx, if_pos hsy] at h ⊢
    have hmagnitude := magnitude_value_mono (x := y) (y := x) (by omega)
    rw [signFactor, neg_one_mul, neg_one_mul]
    exact neg_le_neg hmagnitude
  · rw [if_pos hsx, if_neg hsy, signFactor, signFactor]
    linarith
  · rw [if_neg hsx, if_pos hsy] at h
    omega
  · rw [if_neg hsx, if_neg hsy] at h ⊢
    have hmagnitude := magnitude_value_mono (x := x) (y := y) (by omega)
    rw [signFactor, one_mul, one_mul]
    exact hmagnitude

/-- Going up from a small sample to another one gives a small difference. -/
theorem Small.sub_of_le (hx : Small n x) (hy : Small n y) (h : x.value ≤ y.value)
    (hn : n < 1024 := by norm_num) : Small n (y - x) := by
  have hle : y.value - x.value ≤ 2 ^ n :=
    (sub_le_self _ hx.nonNegative.le_value).trans hy.atMost.value_le
  exact (hasValue_sub (hy.isFinite hn) (hx.isFinite hn)).small (sub_nonneg.mpr h) hle hn

end Binary64

open Binary64 Rounding

/-! ## Ranks -/

variable {percentage : Binary64} {last n : ℕ}

/-- The place of a percentage among places from 0 to `last`, before it is rounded. -/
def Rank.position (percentage : Binary64) (last : ℕ) : Binary64 :=
  (percentage / 100.0).clamp 0.0 1.0 * ofNat last

theorem Rank.upTo_position (hp : (percentage / 100.0).isNaN = false) (hlast : last < 2 ^ 53) :
    UpTo last (position percentage last) := by
  have hbounds : (0.0 : Binary64) ≤ 1.0 := by decide
  obtain ⟨hlow, hhigh⟩ := clamp_mem hp hbounds
  have hone : Small 0 1.0 := ⟨hasValue_one.nonNegative zero_le_one, hasValue_one.atMost le_rfl⟩
  have hpart : Small 0 ((percentage / 100.0).clamp 0.0 1.0) := hone.of_le ⟨hlow, hhigh⟩
  have hcount := hasValue_ofNat hlast
  have hposition := hasValue_mul hpart.isFinite (isFinite_ofNat last)
  have hle : ((percentage / 100.0).clamp 0.0 1.0).value * (ofNat last).value ≤ last := by
    rw [hcount.value_eq]
    exact mul_le_of_le_one_left (Nat.cast_nonneg last) hpart.atMost.value_le
  have hnonneg : 0 ≤ ((percentage / 100.0).clamp 0.0 1.0).value * (ofNat last).value := by
    rw [hcount.value_eq]
    exact mul_nonneg hpart.nonNegative.le_value (Nat.cast_nonneg last)
  refine ⟨hposition.nonNegative (rounded_nonneg hnonneg), ?_⟩
  rw [position, hposition.value_eq]
  exact (rounded_mono hle).trans_eq (rounded_natCast hlast)

/-- The weight of a rank is exactly what rounding down takes from its position. -/
theorem Rank.hasValue_weight {position : Binary64} (h : UpTo last position)
    (hlast : last < 2 ^ 53) :
    HasValue (position - ofNat position.floor) (position.value - ⌊position.value⌋₊) := by
  have hfloor : position.floor = ⌊position.value⌋₊ := h.nonNegative.floor_eq
  have hwhole := hasValue_ofNat (h.floor_le.trans_lt hlast)
  have hdiff := hasValue_sub (h.isFinite_of_lt hlast) (isFinite_ofNat position.floor)
  rw [hwhole.value_eq, hfloor, h.nonNegative.rounded_sub_floor] at hdiff
  rwa [hfloor]

theorem Rank.small_weight {position : Binary64} (h : UpTo last position) (hlast : last < 2 ^ 53) :
    Small 0 (position - ofNat position.floor) := by
  have hdown : (⌊position.value⌋₊ : ℚ) ≤ position.value := Nat.floor_le h.nonNegative.le_value
  have hnext : position.value < ⌊position.value⌋₊ + 1 := Nat.lt_floor_add_one _
  have hweight := hasValue_weight h hlast
  refine ⟨hweight.nonNegative (sub_nonneg.mpr hdown), hweight.atMost ?_⟩
  rw [pow_zero]
  linarith

/-- A rank among places from 0 to `last`. -/
structure Rank.Within (last : ℕ) (rank : Rank) : Prop where
  lower_le_upper : rank.lower ≤ rank.upper
  upper_le : rank.upper ≤ last
  weight : Small 0 rank.weight

theorem Rank.lower_ofPercentage (hp : (percentage / 100.0).isNaN = false) (hlast : last < 2 ^ 53) :
    (ofPercentage percentage last).lower = ⌊(position percentage last).value⌋₊ :=
  (upTo_position hp hlast).nonNegative.floor_eq

theorem Rank.upper_ofPercentage (hp : (percentage / 100.0).isNaN = false) (hlast : last < 2 ^ 53) :
    (ofPercentage percentage last).upper = ⌈(position percentage last).value⌉₊ :=
  (upTo_position hp hlast).nonNegative.ceil_eq

theorem Rank.within_ofPercentage (hp : (percentage / 100.0).isNaN = false)
    (hlast : last < 2 ^ 53) : (ofPercentage percentage last).Within last := by
  have hposition := upTo_position hp hlast
  refine ⟨?_, hposition.ceil_le, small_weight hposition hlast⟩
  rw [lower_ofPercentage hp hlast, upper_ofPercentage hp hlast]
  exact Nat.floor_le_ceil _

/-! ## Figures of a summary -/

variable {samples sorted : List Binary64}

/-- No place of a list, and none beyond it, holds more than the bound. -/
theorem small_getD (h : ∀ x ∈ sorted, Small n x) (i : ℕ) :
    Small n (sorted.toArray.getD i 0.0) := by
  rw [Array.getD_eq_getD_getElem?, List.getElem?_toArray]
  cases hi : sorted[i]? with
  | none => exact Small.zero
  | some x => exact h x (List.mem_of_getElem? hi)

/-- Places further up hold samples that are not smaller. -/
theorem value_getD_mono (hsorted : sorted.Pairwise (totalLE · ·)) {i j : ℕ} (hij : i ≤ j)
    (hj : j < sorted.length) :
    (sorted.toArray.getD i 0.0).value ≤ (sorted.toArray.getD j 0.0).value := by
  rw [Array.getD_eq_getD_getElem?, Array.getD_eq_getD_getElem?, List.getElem?_toArray,
    List.getElem?_toArray, List.getElem?_eq_getElem hj, List.getElem?_eq_getElem (hij.trans_lt hj)]
  obtain hlt | rfl := hij.lt_or_eq
  · exact value_le_of_totalLE (List.pairwise_iff_getElem.mp hsorted i j _ hj hlt)
  · exact le_rfl

theorem small_percentile (hp : (percentage / 100.0).isNaN = false)
    (hsorted : sorted.Pairwise (totalLE · ·)) (hne : sorted ≠ [])
    (hlength : sorted.length < 2 ^ 53) (h : ∀ x ∈ sorted, Small n x)
    (hn : n + 1 < 1024 := by norm_num) :
    Small (n + 1) (percentile sorted.toArray percentage) := by
  have hpos : 0 < sorted.length := List.length_pos_iff.mpr hne
  have hrank : (Rank.ofPercentage percentage (sorted.length - 1)).Within (sorted.length - 1) :=
    Rank.within_ofPercentage hp (by omega)
  have hlast : (Rank.ofPercentage percentage (sorted.length - 1)).upper < sorted.length := by
    have hle := hrank.upper_le
    omega
  -- Only because the samples ascend is the step between the two not negative.
  have hascending := value_getD_mono hsorted hrank.lower_le_upper hlast
  have hlower := small_getD h (Rank.ofPercentage percentage (sorted.length - 1)).lower
  have hupper := small_getD h (Rank.ofPercentage percentage (sorted.length - 1)).upper
  have hstep := (hlower.sub_of_le hupper hascending (by omega)).mul hrank.weight (by omega)
  exact hlower.add hstep hn

namespace Summary

/-- The figures of a summary. -/
def figures (s : Summary) : List Binary64 :=
  [s.min, s.p5, s.p25, s.p50, s.p75, s.p95, s.mean, s.max]

theorem small_ofSorted (hsorted : sorted.Pairwise (totalLE · ·)) (hne : sorted ≠ [])
    (hlength : sorted.length < 2 ^ 53) (h : ∀ x ∈ sorted, Small n x)
    (hn : n ≤ 971 := by norm_num) : ∀ x ∈ (ofSorted sorted).figures, Small (n + 1) x := by
  have hplace (i : ℕ) : Small (n + 1) (sorted.toArray.getD i 0.0) := (small_getD h i).mono
  have hpercentile (p : Binary64) (hp : (p / 100.0).isNaN = false) :
      Small (n + 1) (percentile sorted.toArray p) :=
    small_percentile hp hsorted hne hlength h (by omega)
  have hmean : Small (n + 1) (sum sorted / ofNat sorted.length) :=
    (small_mean hne h hlength hn).mono
  simp only [figures, ofSorted, List.forall_mem_cons, List.not_mem_nil, false_implies,
    implies_true, and_true]
  exact ⟨hplace _, hpercentile _ (by decide), hpercentile _ (by decide), hpercentile _ (by decide),
    hpercentile _ (by decide), hpercentile _ (by decide), hmean, hplace _⟩

/-- A summary does not go far beyond its samples. -/
theorem small_ofSamples (hlength : samples.length < 2 ^ 53) (h : ∀ x ∈ samples, Small n x)
    (hn : n ≤ 971 := by norm_num) : ∀ x ∈ (ofSamples samples).figures, Small (n + 1) x := by
  rw [ofSamples]
  split_ifs with hempty
  · simp only [figures, List.forall_mem_cons, List.not_mem_nil, false_implies, implies_true,
      and_true]
    exact ⟨Small.zero, Small.zero, Small.zero, Small.zero, Small.zero, Small.zero, Small.zero,
      Small.zero⟩
  · have hperm := sortSamples_perm samples
    refine small_ofSorted (pairwise_sortSamples samples) ?_ ?_ ?_ hn
    · exact fun hnil => hempty (List.isEmpty_iff.mpr (hnil ▸ hperm).symm.eq_nil)
    · rwa [hperm.length_eq]
    · exact fun x hx => h x (hperm.mem_iff.mp hx)

theorem small_ofPresent? {samples : List (Option Binary64)} (hlength : samples.length < 2 ^ 53)
    (h : ∀ x, some x ∈ samples → Small n x) (hn : n ≤ 971 := by norm_num) :
    ∀ s ∈ ofPresent? samples, ∀ x ∈ s.figures, Small (n + 1) x := by
  have hpresent : ∀ x ∈ samples.filterMap id, Small n x := fun x hx => by
    obtain ⟨_, hmem, rfl⟩ := List.mem_filterMap.mp hx
    exact h x hmem
  have hlength' := (List.length_filterMap_le id samples).trans_lt hlength
  intro s hs
  rw [ofPresent?] at hs
  split_ifs at hs with hempty
  · cases hs
  · cases hs
    exact small_ofSamples hlength' hpresent hn

end Summary

end BattleOdds
