import BattleOdds.Proofs.Binary64.Interpolation
import BattleOdds.Proofs.Percentile

/-!
# The order of percentiles

A greater percentage has a position further up. Either the two ranks have a place between them, or
they lie between the same two places and differ in weight only. The weights that a summary meets are
safe for interpolating: from the first place on a position is whole in `2 ^ -52`, and the last one
before that place is checked for each percentage. So every percentile lies between the two samples
of its rank, and the percentiles ascend from the least sample to the greatest.
-/
namespace BattleOdds
open Binary64 Rounding

namespace Rank

variable {last : ℕ}

/-! ## Safe weights -/

/-- A position from one on is whole in `2 ^ -52`. -/
theorem exists_position_eq {position : Binary64} (h : NonNegative position)
    (hone : 1.0 ≤ position) : ∃ m : ℕ, position.value = m / 2 ^ 52 := by
  have hvalue := value_le_of_le hone
  rw [hasValue_one.value_eq, h.value_eq] at hvalue
  have hexponent : -52 ≤ position.exponent := by
    by_contra hlow
    have hlt : (position.significand : ℚ) < 2 ^ (53 : ℤ) := by
      exact_mod_cast position.significand_lt
    have hbelow : (position.significand : ℚ) * 2 ^ position.exponent < 1 := by
      calc (position.significand : ℚ) * 2 ^ position.exponent
        _ < 2 ^ (53 : ℤ) * 2 ^ position.exponent := by gcongr
        _ = 2 ^ (53 + position.exponent) := (zpow_add₀ (by norm_num) _ _).symm
        _ ≤ 2 ^ (0 : ℤ) := zpow_le_zpow_right₀ (by norm_num) (by omega)
        _ = 1 := zpow_zero 2
    linarith
  obtain ⟨e, he⟩ := Int.eq_ofNat_of_zero_le (show 0 ≤ position.exponent + 52 by omega)
  refine ⟨position.significand * 2 ^ e, ?_⟩
  rw [h.value_eq, show position.exponent = e + -52 by omega, zpow_add₀ (by norm_num), zpow_natCast]
  push_cast
  ring

/-- What a whole number of parts is beyond a whole number is at least one part below one. -/
theorem sub_floor_div_le (m : ℕ) {n : ℕ} (hn : 0 < n) :
    (m : ℚ) / n - ⌊(m : ℚ) / n⌋₊ ≤ 1 - 1 / n := by
  have hpos : (0 : ℚ) < n := by exact_mod_cast hn
  have hmod : (m : ℚ) = n * (m / n : ℕ) + (m % n : ℕ) := by
    exact_mod_cast (Nat.div_add_mod m n).symm
  have hrest : ((m % n : ℕ) : ℚ) + 1 ≤ n := by exact_mod_cast Nat.mod_lt m hn
  have hwhole : (1 - 1 / n + (m / n : ℕ)) * (n : ℚ) = n - 1 + n * (m / n : ℕ) := by
    field_simp
  rw [Nat.floor_div_eq_div, sub_le_iff_le_add, div_le_iff₀ hpos, hwhole]
  linarith

/-- From the first place on a weight is at most what is whole in `2 ^ -52` below one. -/
theorem weight_le_of_one_le {position : Binary64} (h : UpTo last position) (hlast : last < 2 ^ 53)
    (hone : 1.0 ≤ position) : position - ofNat position.floor ≤ safeWeight := by
  obtain ⟨m, hm⟩ := exists_position_eq h.nonNegative hone
  have hpart : position.value - ⌊position.value⌋₊ ≤ safeWeight.value := by
    have hle := sub_floor_div_le m (show 0 < 2 ^ 52 by norm_num)
    rw [hm, hasValue_safeWeight.value_eq, zpow_neg, ← one_div]
    exact_mod_cast hle
  exact (hasValue_weight h hlast).le ⟨hasValue_safeWeight.isNumber, rfl⟩ hpart

theorem weight_le_position {position : Binary64} (h : UpTo last position) (hlast : last < 2 ^ 53) :
    position - ofNat position.floor ≤ position :=
  (hasValue_weight h hlast).le ⟨h.nonNegative.isNumber, rfl⟩ (sub_le_self _ (Nat.cast_nonneg _))

end Rank

/-- The percentages of a summary. -/
def Summary.percentages : List Binary64 := [5.0, 25.0, 50.0, 75.0, 95.0]

namespace Rank

variable {p q : Binary64} {last : ℕ}

set_option maxRecDepth 4000 in
theorem percentage_mem : ∀ p ∈ Summary.percentages, 0.0 ≤ p / 100.0 ∧ p / 100.0 ≤ 1.0 := by
  decide

set_option maxRecDepth 4000 in
/-- How many places it takes for a percentage to be past the first one; with a place less its
position is a safe weight. -/
theorem exists_reach : ∀ p ∈ Summary.percentages, ∃ n ∈ [2, 4, 20],
    1.0 ≤ p / 100.0 * ofNat n ∧ p / 100.0 * ofNat (n - 1) ≤ safeWeight := by decide

theorem small_percentage (hp : p ∈ Summary.percentages) : Small 0 (p / 100.0) := by
  have hone : Small 0 1.0 := ⟨hasValue_one.nonNegative zero_le_one, hasValue_one.atMost le_rfl⟩
  exact hone.of_le (percentage_mem p hp)

theorem position_eq (hp : p ∈ Summary.percentages) (last : ℕ) :
    position p last = p / 100.0 * ofNat last := by
  rw [position, clamp_of_mem (percentage_mem p hp)]

/-- More places bring a percentage further up. -/
theorem share_mono (hp : p ∈ Summary.percentages) {m n : ℕ} (h : m ≤ n) (hn : n < 2 ^ 53) :
    p / 100.0 * ofNat m ≤ p / 100.0 * ofNat n := by
  have hshare := small_percentage hp
  have hcounts : ofNat m ≤ ofNat n :=
    (hasValue_ofNat (h.trans_lt hn)).le (hasValue_ofNat hn) (by exact_mod_cast h)
  exact hshare.mul_mono (le_refl_of_isNaN hshare.nonNegative.isNumber) hshare (small_ofUInt64 _)
    hcounts (small_ofUInt64 _)

theorem weight_le (hp : p ∈ Summary.percentages) (hlast : last < 2 ^ 53) :
    (ofPercentage p last).weight ≤ safeWeight := by
  obtain ⟨n, hn, hreach, hshort⟩ := exists_reach p hp
  have hposition := upTo_position (small_percentage hp).nonNegative.isNumber hlast
  by_cases hfew : last < n
  · have hn' : n ≤ 20 := by
      simp only [List.mem_cons, List.not_mem_nil, or_false] at hn
      omega
    calc (ofPercentage p last).weight
      _ ≤ position p last := weight_le_position hposition hlast
      _ ≤ p / 100.0 * ofNat (n - 1) := by
          rw [position_eq hp]
          exact share_mono hp (by omega) (by omega)
      _ ≤ safeWeight := hshort
  · have hone : 1.0 ≤ position p last := by
      rw [position_eq hp]
      exact le_of_le_of_le hreach (share_mono hp (not_lt.mp hfew) hlast)
    exact weight_le_of_one_le hposition hlast hone

/-! ## Two ranks -/

/-- The first rank ends where the second begins or before, or both lie between the same places. -/
inductive Precedes (first second : Rank) : Prop
  | before (h : first.upper ≤ second.lower)
  | beside (hlower : first.lower = second.lower) (hupper : first.upper = second.upper)
      (hweight : first.weight ≤ second.weight)

theorem precedes_ofPercentage (hp : p ∈ Summary.percentages) (hq : q ∈ Summary.percentages)
    (hpq : p / 100.0 ≤ q / 100.0) (hlast : last < 2 ^ 53) :
    (ofPercentage p last).Precedes (ofPercentage q last) := by
  have hp₁ := (small_percentage hp).nonNegative.isNumber
  have hq₁ := (small_percentage hq).nonNegative.isNumber
  have hposition := upTo_position hp₁ hlast
  have hposition' := upTo_position hq₁ hlast
  have hcount := small_ofUInt64 last.toUInt64
  have hmono : position p last ≤ position q last := by
    rw [position_eq hp, position_eq hq]
    exact (small_percentage hp).mul_mono hpq (small_percentage hq) hcount
      (le_refl_of_isNaN hcount.nonNegative.isNumber) hcount
  have hvalue := value_le_of_le hmono
  have hlower := lower_ofPercentage hp₁ hlast
  have hlower' := lower_ofPercentage hq₁ hlast
  have hupper := upper_ofPercentage hp₁ hlast
  have hupper' := upper_ofPercentage hq₁ hlast
  by_cases hbefore : ⌈(position p last).value⌉₊ ≤ ⌊(position q last).value⌋₊
  · exact .before (by rwa [hupper, hlower'])
  · -- No place lies between the two positions.
    have hbelow : (position q last).value < ⌈(position p last).value⌉₊ := by
      by_contra hle
      exact hbefore (Nat.le_floor (not_lt.mp hle))
    have hfloor : ⌊(position p last).value⌋₊ = ⌊(position q last).value⌋₊ := by
      have hup := Nat.floor_mono hvalue
      have hceil := Nat.ceil_le_floor_add_one (position p last).value
      omega
    have hceil : ⌈(position p last).value⌉₊ = ⌈(position q last).value⌉₊ :=
      le_antisymm (Nat.ceil_mono hvalue) (Nat.ceil_le.mpr hbelow.le)
    refine .beside (by rw [hlower, hlower', hfloor]) (by rw [hupper, hupper', hceil]) ?_
    refine (hasValue_weight hposition hlast).le (hasValue_weight hposition' hlast) ?_
    rw [hfloor]
    exact sub_le_sub_right hvalue _

end Rank

/-! ## Sorted samples -/

/-- Finite samples in the total order, not more than a rank can tell apart, and without overflow
from the first to the last. -/
structure Spread (sorted : List Binary64) : Prop where
  ne_nil : sorted ≠ []
  length_le : sorted.length ≤ 2 ^ 53
  pairwise : sorted.Pairwise (totalLE · ·)
  isFinite : ∀ x ∈ sorted, x.isFinite = true
  isFinite_span : (sorted.toArray.getD (sorted.length - 1) 0.0
    - sorted.toArray.getD 0 0.0).isFinite = true

namespace Spread

variable {sorted : List Binary64} {p q : Binary64} {i j : ℕ}

theorem getElem?_eq (hi : i < sorted.length) :
    sorted[i]? = some (sorted.toArray.getD i 0.0) := by
  rw [Array.getD_eq_getD_getElem?, List.getElem?_toArray, List.getElem?_eq_getElem hi,
    Option.getD_some]

theorem place_mem (hi : i < sorted.length) : sorted.toArray.getD i 0.0 ∈ sorted :=
  List.mem_of_getElem? (getElem?_eq hi)

variable (h : Spread sorted)
include h

theorem isFinite_place (hi : i < sorted.length) : (sorted.toArray.getD i 0.0).isFinite = true :=
  h.isFinite _ (place_mem hi)

theorem place_le (hij : i ≤ j) (hj : j < sorted.length) :
    sorted.toArray.getD i 0.0 ≤ sorted.toArray.getD j 0.0 := by
  rw [le_iff_value (isNaN_of_isFinite (h.isFinite_place (hij.trans_lt hj)))
    (isNaN_of_isFinite (h.isFinite_place hj))]
  exact value_getD_mono h.pairwise hij hj

theorem last_lt : sorted.length - 1 < sorted.length :=
  Nat.sub_lt (List.length_pos_iff.mpr h.ne_nil) one_pos

/-- No difference of samples is greater than that of the last and the first. -/
theorem isFinite_sub (hij : i ≤ j) (hj : j < sorted.length) :
    (sorted.toArray.getD j 0.0 - sorted.toArray.getD i 0.0).isFinite = true := by
  have hi := hij.trans_lt hj
  have hlast := h.last_lt
  have hfirst : 0 < sorted.length := (Nat.zero_le i).trans_lt hi
  have hlow := value_le_of_le (h.place_le (Nat.zero_le i) hi)
  have hhigh := value_le_of_le (h.place_le (Nat.le_sub_one_of_lt hj) hlast)
  refine (nonNegative_sub (h.isFinite_place hi) (h.isFinite_place hj)
    (h.place_le hij hj)).isFinite_of_le ?_ h.isFinite_span
  refine (hasValue_sub (h.isFinite_place hj) (h.isFinite_place hi)).le
    (hasValue_sub (h.isFinite_place hlast) (h.isFinite_place hfirst)) (rounded_mono ?_)
  linarith

/-- The places of a rank in the sorted list. -/
theorem upper_lt (hp : p ∈ Summary.percentages) :
    (Rank.ofPercentage p (sorted.length - 1)).lower
        ≤ (Rank.ofPercentage p (sorted.length - 1)).upper
      ∧ (Rank.ofPercentage p (sorted.length - 1)).upper < sorted.length := by
  have hlength := h.length_le
  have hlast := h.last_lt
  have hwithin := Rank.within_ofPercentage (Rank.small_percentage hp).nonNegative.isNumber
    (show sorted.length - 1 < 2 ^ 53 by omega)
  exact ⟨hwithin.lower_le_upper, hwithin.upper_le.trans_lt hlast⟩

theorem weight_mem (hp : p ∈ Summary.percentages) :
    0.0 ≤ (Rank.ofPercentage p (sorted.length - 1)).weight
      ∧ (Rank.ofPercentage p (sorted.length - 1)).weight ≤ safeWeight := by
  have hlength := h.length_le
  have hlast := h.last_lt
  have hlt : sorted.length - 1 < 2 ^ 53 := by omega
  have hwithin := Rank.within_ofPercentage (Rank.small_percentage hp).nonNegative.isNumber hlt
  exact ⟨hwithin.weight.nonNegative.zero_le, Rank.weight_le hp hlt⟩

/-- A percentile lies between the samples of its rank. -/
theorem percentile_mem (hp : p ∈ Summary.percentages) :
    let rank := Rank.ofPercentage p (sorted.length - 1)
    sorted.toArray.getD rank.lower 0.0 ≤ percentile sorted.toArray p
      ∧ percentile sorted.toArray p ≤ sorted.toArray.getD rank.upper 0.0 := by
  obtain ⟨hle, hlt⟩ := h.upper_lt hp
  exact interpolated_mem (h.isFinite_place (hle.trans_lt hlt)) (h.isFinite_place hlt)
    (h.place_le hle hlt) (h.isFinite_sub hle hlt) (h.weight_mem hp)

theorem percentile_mono (hp : p ∈ Summary.percentages) (hq : q ∈ Summary.percentages)
    (hpq : p / 100.0 ≤ q / 100.0) :
    percentile sorted.toArray p ≤ percentile sorted.toArray q := by
  have hlength := h.length_le
  have hlast := h.last_lt
  obtain ⟨hle, hlt⟩ := h.upper_lt hp
  obtain ⟨hle', hlt'⟩ := h.upper_lt hq
  have hprecedes := Rank.precedes_ofPercentage hp hq hpq
    (show sorted.length - 1 < 2 ^ 53 by omega)
  rcases hprecedes with hbefore | ⟨hlower, hupper, hweight⟩
  · calc percentile sorted.toArray p
      _ ≤ sorted.toArray.getD (Rank.ofPercentage p (sorted.length - 1)).upper 0.0 :=
          (h.percentile_mem hp).2
      _ ≤ sorted.toArray.getD (Rank.ofPercentage q (sorted.length - 1)).lower 0.0 :=
          h.place_le hbefore (hle'.trans_lt hlt')
      _ ≤ percentile sorted.toArray q := (h.percentile_mem hq).1
  · have hmono := interpolated_mono (h.isFinite_place (hle.trans_lt hlt)) (h.isFinite_place hlt)
      (h.place_le hle hlt) (h.isFinite_sub hle hlt) (h.weight_mem hp).1 hweight (h.weight_mem hq).2
    unfold percentile
    dsimp only
    rw [List.size_toArray]
    rw [← hlower, ← hupper]
    exact hmono

/-- All samples lie between the first and the last. -/
theorem range {x : Binary64} (hx : x ∈ sorted) :
    sorted.toArray.getD 0 0.0 ≤ x ∧ x ≤ sorted.toArray.getD (sorted.length - 1) 0.0 := by
  obtain ⟨i, hi, rfl⟩ := List.mem_iff_getElem.mp hx
  have hplace := Option.some.inj ((List.getElem?_eq_getElem hi).symm.trans (getElem?_eq hi))
  rw [hplace]
  exact ⟨h.place_le (Nat.zero_le i) hi, h.place_le (Nat.le_sub_one_of_lt hi) h.last_lt⟩

theorem percentile_range (hp : p ∈ Summary.percentages) :
    sorted.toArray.getD 0 0.0 ≤ percentile sorted.toArray p
      ∧ percentile sorted.toArray p ≤ sorted.toArray.getD (sorted.length - 1) 0.0 := by
  obtain ⟨hle, hlt⟩ := h.upper_lt hp
  obtain ⟨hlow, hhigh⟩ := h.percentile_mem hp
  exact ⟨le_of_le_of_le (h.range (place_mem (hle.trans_lt hlt))).1 hlow,
    le_of_le_of_le hhigh (h.range (place_mem hlt)).2⟩

/-- The samples of a rank, by the position of its percentage. -/
theorem exists_samples (hp : p ∈ Summary.percentages) :
    let rank := p / 100.0 * ofNat (sorted.length - 1)
    ∃ lower upper, sorted[⌊rank.value⌋₊]? = some lower ∧ sorted[⌈rank.value⌉₊]? = some upper
      ∧ lower ≤ percentile sorted.toArray p ∧ percentile sorted.toArray p ≤ upper := by
  have hlength := h.length_le
  have hlast := h.last_lt
  have hnumber := (Rank.small_percentage hp).nonNegative.isNumber
  obtain ⟨hle, hlt⟩ := h.upper_lt hp
  have hlower := getElem?_eq (hle.trans_lt hlt)
  have hupper := getElem?_eq hlt
  dsimp only
  rw [← Rank.position_eq hp, ← Rank.lower_ofPercentage hnumber (by omega),
    ← Rank.upper_ofPercentage hnumber (by omega)]
  exact ⟨_, _, hlower, hupper, h.percentile_mem hp⟩

end Spread

/-! ## Summaries -/

namespace Summary

/-- The percentiles of a summary, each with its percentage. -/
def percentiles (s : Summary) : List (Binary64 × Binary64) :=
  [(5.0, s.p5), (25.0, s.p25), (50.0, s.p50), (75.0, s.p75), (95.0, s.p95)]

/-- The figures of a summary ascend from the least sample to the greatest, and every percentile lies
between the sorted samples at the floor and the ceiling of its rank. -/
structure Brackets (samples : List Binary64) (s : Summary) : Prop where
  min_mem : s.min ∈ samples
  max_mem : s.max ∈ samples
  range : ∀ x ∈ samples, s.min ≤ x ∧ x ≤ s.max
  min_le_p5 : s.min ≤ s.p5
  p5_le_p25 : s.p5 ≤ s.p25
  p25_le_p50 : s.p25 ≤ s.p50
  p50_le_p75 : s.p50 ≤ s.p75
  p75_le_p95 : s.p75 ≤ s.p95
  p95_le_max : s.p95 ≤ s.max
  percentile_mem : ∀ percentile ∈ s.percentiles,
    let rank := percentile.1 / 100.0 * ofNat (samples.length - 1)
    ∃ lower upper, (sortSamples samples)[⌊rank.value⌋₊]? = some lower
      ∧ (sortSamples samples)[⌈rank.value⌉₊]? = some upper
      ∧ lower ≤ percentile.2 ∧ percentile.2 ≤ upper

theorem brackets_ofSorted {samples : List Binary64} (h : Spread (sortSamples samples)) :
    (ofSorted (sortSamples samples)).Brackets samples where
  min_mem := (sortSamples_perm samples).subset
    (Spread.place_mem (List.length_pos_iff.mpr h.ne_nil))
  max_mem := (sortSamples_perm samples).subset (Spread.place_mem h.last_lt)
  range x hx := h.range ((sortSamples_perm samples).symm.subset hx)
  min_le_p5 := (h.percentile_range (by decide)).1
  p5_le_p25 := h.percentile_mono (by decide) (by decide) (by decide)
  p25_le_p50 := h.percentile_mono (by decide) (by decide) (by decide)
  p50_le_p75 := h.percentile_mono (by decide) (by decide) (by decide)
  p75_le_p95 := h.percentile_mono (by decide) (by decide) (by decide)
  p95_le_max := (h.percentile_range (by decide)).2
  percentile_mem := by
    rw [← (sortSamples_perm samples).length_eq]
    simp only [percentiles, ofSorted, List.forall_mem_cons, List.not_mem_nil, false_implies,
      implies_true, and_true]
    exact ⟨h.exists_samples (by decide), h.exists_samples (by decide), h.exists_samples (by decide),
      h.exists_samples (by decide), h.exists_samples (by decide)⟩

end Summary

/-- Percentiles are ordered and bracketed: for finite samples, not more than `2 ^ 53` and without
overflow from the least to the greatest, the figures of the summary ascend between two samples that
bound all of them, and every percentile lies between the samples of its rank. -/
theorem percentiles_bracketed (samples : List Binary64) (hne : samples ≠ [])
    (hlength : samples.length ≤ 2 ^ 53) (hfinite : ∀ x ∈ samples, x.isFinite = true)
    (hspan : ((Summary.ofSamples samples).max - (Summary.ofSamples samples).min).isFinite = true) :
    (Summary.ofSamples samples).Brackets samples := by
  have hperm := sortSamples_perm samples
  have hpairwise := pairwise_sortSamples samples
  rw [Summary.ofSamples_of_sorted hperm hpairwise hne] at hspan ⊢
  exact Summary.brackets_ofSorted
    { ne_nil := fun hnil => hne (List.perm_nil.mp (hnil ▸ hperm).symm)
      length_le := hperm.length_eq.trans_le hlength
      pairwise := hpairwise
      isFinite := fun x hx => hfinite x (hperm.subset hx)
      isFinite_span := hspan }

/-- Four samples of both signs, of which the greatest comes first. -/
theorem percentiles_bracketed_of_four :
    let samples : List Binary64 := [2.5, -0.1, 1000000.0, -3.25]
    samples ≠ [] ∧ samples.length ≤ 2 ^ 53 ∧ (∀ x ∈ samples, x.isFinite = true)
    ∧ ((Summary.ofSamples samples).max - (Summary.ofSamples samples).min).isFinite = true
    ∧ (Summary.ofSamples samples).Brackets samples := by
  intro samples
  have hne : samples ≠ [] := by decide
  have hlength : samples.length ≤ 2 ^ 53 := by decide
  have hfinite : ∀ x ∈ samples, x.isFinite = true := by decide
  have hsorted : Summary.ofSamples samples = Summary.ofSorted [-3.25, -0.1, 2.5, 1000000.0] :=
    Summary.ofSamples_of_sorted (by decide) (by decide) hne
  have hspan : ((Summary.ofSamples samples).max - (Summary.ofSamples samples).min).isFinite
      = true := by
    rw [hsorted]
    decide
  exact ⟨hne, hlength, hfinite, hspan,
    percentiles_bracketed samples hne hlength hfinite hspan⟩

end BattleOdds
