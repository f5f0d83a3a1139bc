import BattleOdds.Proofs.Binary64.Conversion
import BattleOdds.Proofs.Binary64.Order
import BattleOdds.Proofs.Percentile

/-!
# The places of a percentile

Whatever word is given for a percentage, its rank can be looked up: clamping brings a number between
the first place and the last one, and a NaN goes through clamping and multiplying and comes out as
the first place. Rounding is monotone and keeps whole numbers, so no position is beyond the last
place. The weight of a number is not rounded at all, so it stays below one.
-/
namespace BattleOdds
open Binary64 Rounding

namespace Rank

variable {percentage : Binary64} {last : ℕ}

/-! ## Positions -/

theorem isNaN_share (h : percentage.isNaN = false) : (percentage / 100.0).isNaN = false := by
  have hpos : (0.0 : Binary64) < 100.0 := by decide
  rw [lt_iff_value hasValue_zero.isNumber (by decide), hasValue_zero.value_eq] at hpos
  exact isNaN_div h (by decide) hpos

theorem upTo_position_of_isNumber (h : percentage.isNaN = false) (hlast : last < 2 ^ 53) :
    UpTo last (position percentage last) :=
  upTo_position (isNaN_share h) hlast

theorem isNaN_position (h : percentage.isNaN = true) : (position percentage last).isNaN = true := by
  have hshare : (percentage / 100.0).isNaN = true := isNaN_lift h
  rw [position, clamp_of_isNaN hshare]
  exact isNaN_lift hshare

/-! ## Places -/

theorem places_of_isNaN (h : percentage.isNaN = true) :
    (ofPercentage percentage last).lower = 0 ∧ (ofPercentage percentage last).upper = 0 :=
  ⟨floor_of_isNaN (isNaN_position h), ceil_of_isNaN (isNaN_position h)⟩

/-- The two places are neighbours or the same, and neither is beyond the last one. -/
theorem places_adjacent (percentage : Binary64) (hlast : last < 2 ^ 53) :
    let rank := ofPercentage percentage last
    rank.lower ≤ rank.upper ∧ rank.upper ≤ rank.lower + 1 ∧ rank.upper ≤ last := by
  intro rank
  cases h : percentage.isNaN with
  | true =>
    obtain ⟨hlower, hupper⟩ : rank.lower = 0 ∧ rank.upper = 0 := places_of_isNaN h
    omega
  | false =>
    have hwithin := within_ofPercentage (isNaN_share h) hlast
    have hstep : rank.upper ≤ rank.lower + 1 := by
      rw [upper_ofPercentage (isNaN_share h) hlast, lower_ofPercentage (isNaN_share h) hlast]
      exact Nat.ceil_le_floor_add_one _
    exact ⟨hwithin.lower_le_upper, hstep, hwithin.upper_le⟩

/-- The places are the words that the position gives, rounded down and rounded up. -/
theorem places_convert (percentage : Binary64) (hlast : last < 2 ^ 53) :
    let rank := ofPercentage percentage last
    Converts Int.floor (position percentage last) rank.lower
      ∧ Converts Int.ceil (position percentage last) rank.upper := by
  intro rank
  cases h : percentage.isNaN with
  | true =>
    obtain ⟨hlower, hupper⟩ : rank.lower = 0 ∧ rank.upper = 0 := places_of_isNaN h
    have hposition : (position percentage last).isNaN = true := isNaN_position h
    rw [hlower, hupper]
    exact ⟨converts_of_isNaN hposition, converts_of_isNaN hposition⟩
  | false =>
    have hposition := upTo_position_of_isNumber h hlast
    exact ⟨hposition.converts_floor hlast, hposition.converts_ceil hlast⟩

/-! ## Weights -/

/-- From zero on just the whole numbers are their own whole parts. -/
theorem eq_floor_iff_exists {q : ℚ} (hq : 0 ≤ q) : q = ⌊q⌋₊ ↔ ∃ k : ℤ, q = k := by
  constructor
  · intro h
    exact ⟨⌊q⌋₊, by rw [Int.cast_natCast]; exact h⟩
  · rintro ⟨k, rfl⟩
    have hk : 0 ≤ k := by exact_mod_cast hq
    obtain ⟨m, rfl⟩ := Int.eq_ofNat_of_zero_le hk
    rw [Int.cast_natCast, Nat.floor_natCast]

/-- The weight of a rank that is at a position: what the position is beyond the lower place. -/
structure Weighed (position : Binary64) (rank : Rank) : Prop where
  zero_le : 0.0 ≤ rank.weight
  lt_one : rank.weight < 1.0
  value_eq : rank.weight.value = position.value - rank.lower
  isZero_iff : rank.weight.isZero = true ↔ ∃ k : ℤ, position.value = k

theorem weighed_ofPercentage (h : percentage.isNaN = false) (hlast : last < 2 ^ 53) :
    (ofPercentage percentage last).Weighed (position percentage last) := by
  have hposition := upTo_position_of_isNumber h hlast
  have hlower := lower_ofPercentage (isNaN_share h) hlast
  have hweight : HasValue (ofPercentage percentage last).weight
      ((position percentage last).value - ⌊(position percentage last).value⌋₊) :=
    hasValue_weight hposition hlast
  have hdown := Nat.floor_le hposition.nonNegative.le_value
  have hnext := Nat.lt_floor_add_one (position percentage last).value
  refine ⟨hasValue_zero.le hweight (sub_nonneg.mpr hdown), ?_, ?_, ?_⟩
  · rw [lt_iff_value hweight.isNumber hasValue_one.isNumber, hweight.value_eq,
      hasValue_one.value_eq]
    exact sub_lt_iff_lt_add'.mpr hnext
  · rw [hweight.value_eq, hlower]
  · rw [isZero_iff_value, hweight.value_eq, sub_eq_zero]
    exact eq_floor_iff_exists hposition.nonNegative.le_value

end Rank

/-! ## Looking up -/

theorem percentile_eq_interpolated {sorted : Array Binary64} (percentage : Binary64)
    (hne : sorted ≠ #[]) (hsize : sorted.size ≤ 2 ^ 53) :
    let rank := Rank.ofPercentage percentage (sorted.size - 1)
    ∃ lower upper, sorted[rank.lower]? = some lower ∧ sorted[rank.upper]? = some upper
      ∧ percentile sorted percentage = lower + (upper - lower) * rank.weight := by
  intro rank
  have hpos : 0 < sorted.size := Array.size_pos_iff.mpr hne
  obtain ⟨hle, -, hlast⟩ := Rank.places_adjacent percentage (show sorted.size - 1 < 2 ^ 53 by omega)
  have hupper : rank.upper < sorted.size := hlast.trans_lt (Nat.sub_lt hpos one_pos)
  have hlower : rank.lower < sorted.size := hle.trans_lt hupper
  refine ⟨sorted[rank.lower], sorted[rank.upper], Array.getElem?_eq_getElem hlower,
    Array.getElem?_eq_getElem hupper, ?_⟩
  rw [percentile, Array.getD_eq_getD_getElem?, Array.getD_eq_getD_getElem?,
    Array.getElem?_eq_getElem hlower, Array.getElem?_eq_getElem hupper]
  rfl

/-- A percentile can always be looked up, whatever words the list and the percentage are: the two
places lie in the list, no more than one apart, and are what the position gives as words. For a
number the weight is at least zero and below one, and zero just where the position is whole. -/
theorem percentile_places_exist (sorted : Array Binary64) (percentage : Binary64)
    (hne : sorted ≠ #[]) (hsize : sorted.size ≤ 2 ^ 53) :
    let rank := Rank.ofPercentage percentage (sorted.size - 1)
    let position := Rank.position percentage (sorted.size - 1)
    (rank.lower ≤ rank.upper ∧ rank.upper ≤ rank.lower + 1 ∧ rank.upper ≤ sorted.size - 1)
    ∧ (∃ lower upper, sorted[rank.lower]? = some lower ∧ sorted[rank.upper]? = some upper
      ∧ percentile sorted percentage = lower + (upper - lower) * rank.weight)
    ∧ (Converts Int.floor position rank.lower ∧ Converts Int.ceil position rank.upper)
    ∧ (percentage.isNaN = false → rank.Weighed position) := by
  have hpos : 0 < sorted.size := Array.size_pos_iff.mpr hne
  have hlast : sorted.size - 1 < 2 ^ 53 := by omega
  exact ⟨Rank.places_adjacent percentage hlast, percentile_eq_interpolated percentage hne hsize,
    Rank.places_convert percentage hlast, fun h => Rank.weighed_ofPercentage h hlast⟩

/-- A percentage between two places, in a list with an infinity and a NaN. -/
theorem percentile_places_exist_of_four :
    let sorted : Array Binary64 := #[invalid, -3.25, 2.5, infinity]
    let rank := Rank.ofPercentage 40.0 3
    let position := Rank.position 40.0 3
    sorted ≠ #[] ∧ sorted.size ≤ 2 ^ 53 ∧ (40.0 : Binary64).isNaN = false
    ∧ (rank.lower ≤ rank.upper ∧ rank.upper ≤ rank.lower + 1 ∧ rank.upper ≤ 3)
    ∧ (∃ lower upper, sorted[rank.lower]? = some lower ∧ sorted[rank.upper]? = some upper
      ∧ percentile sorted 40.0 = lower + (upper - lower) * rank.weight)
    ∧ (Converts Int.floor position rank.lower ∧ Converts Int.ceil position rank.upper)
    ∧ rank.Weighed position := by
  intro sorted rank position
  have hne : sorted ≠ #[] := by decide
  have hsize : sorted.size ≤ 2 ^ 53 := by decide
  have hnumber : (40.0 : Binary64).isNaN = false := by decide
  obtain ⟨hplaces, hsamples, hwords, hweight⟩ := percentile_places_exist sorted 40.0 hne hsize
  exact ⟨hne, hsize, hnumber, hplaces, hsamples, hwords, hweight hnumber⟩

end BattleOdds
