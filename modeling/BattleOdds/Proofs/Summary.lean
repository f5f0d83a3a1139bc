import BattleOdds.Proofs.Binary64.Datum
import BattleOdds.Summary

/-!
# Summaries do not depend on the order of samples

The total order tells all words apart: zeros by sign, NaNs by sign and payload. So a list of samples
has one sorted form, whatever the order of the samples is and however they are sorted, and a summary
is computed from that form, its mean included.
-/
namespace BattleOdds

namespace Binary64

/-- Words with the sign set come first, from the greatest magnitude down. -/
theorem toNat_totalKey (x : Binary64) :
    x.totalKey.toNat
      = if 2 ^ 63 ≤ x.bits.toNat then 2 ^ 64 - 1 - x.bits.toNat else 2 ^ 63 + x.bits.toNat := by
  by_cases h : 2 ^ 63 ≤ x.bits.toNat
  · rw [totalKey, if_pos (x.isNegative_iff.mpr h), if_pos h, UInt64.toNat_not]
    rfl
  · have hor := Nat.two_pow_add_eq_or_of_lt (Nat.lt_of_not_le h) 1
    rw [totalKey, if_neg (mt x.isNegative_iff.mp h), if_neg h, UInt64.toNat_or, Nat.lor_comm]
    exact hor.symm

theorem totalKey_injective : Function.Injective totalKey := by
  rintro ⟨v⟩ ⟨w⟩ h
  have hkeys := congrArg UInt64.toNat h
  have hv := v.toNat_lt
  have hw := w.toNat_lt
  rw [toNat_totalKey, toNat_totalKey] at hkeys
  have hbits : v.toNat = w.toNat := by
    split at hkeys <;> split at hkeys <;> simp only at * <;> omega
  rw [UInt64.toNat_inj.mp hbits]

theorem totalLE_iff (x y : Binary64) : totalLE x y = true ↔ x.totalKey ≤ y.totalKey :=
  decide_eq_true_iff

theorem totalLE_trans (x y z : Binary64) (hxy : totalLE x y = true) (hyz : totalLE y z = true) :
    totalLE x z = true := by
  rw [totalLE_iff] at *
  exact UInt64.le_trans hxy hyz

theorem totalLE_total (x y : Binary64) : (totalLE x y || totalLE y x) = true := by
  rw [Bool.or_eq_true, totalLE_iff, totalLE_iff]
  exact UInt64.le_total _ _

theorem totalLE_antisymm {x y : Binary64} (hxy : totalLE x y = true) (hyx : totalLE y x = true) :
    x = y := by
  rw [totalLE_iff] at *
  exact totalKey_injective (UInt64.le_antisymm hxy hyx)

end Binary64

variable {samples others sorted : List Binary64}

theorem sortSamples_perm (samples : List Binary64) : (sortSamples samples).Perm samples :=
  List.mergeSort_perm samples _

theorem pairwise_sortSamples (samples : List Binary64) :
    (sortSamples samples).Pairwise (Binary64.totalLE · ·) :=
  List.pairwise_mergeSort Binary64.totalLE_trans Binary64.totalLE_total samples

/-- There is one way to sort samples. -/
theorem eq_sortSamples (hperm : sorted.Perm samples)
    (hsorted : sorted.Pairwise (Binary64.totalLE · ·)) : sorted = sortSamples samples :=
  List.Perm.eq_of_pairwise (fun _ _ _ _ => Binary64.totalLE_antisymm) hsorted
    (pairwise_sortSamples samples) (hperm.trans (sortSamples_perm samples).symm)

theorem sortSamples_congr (h : samples.Perm others) : sortSamples samples = sortSamples others :=
  eq_sortSamples ((sortSamples_perm samples).trans h) (pairwise_sortSamples samples)

namespace Summary

theorem ofSamples_of_sorted (hperm : sorted.Perm samples)
    (hsorted : sorted.Pairwise (Binary64.totalLE · ·)) (hne : samples ≠ []) :
    ofSamples samples = ofSorted sorted := by
  rw [ofSamples, if_neg (mt List.isEmpty_iff.mp hne), eq_sortSamples hperm hsorted]

theorem ofSamples_congr (h : samples.Perm others) : ofSamples samples = ofSamples others := by
  rw [ofSamples, ofSamples, sortSamples_congr h, h.isEmpty_eq]

/-- Where samples are absent does not matter. -/
theorem ofPresent?_congr {samples others : List (Option Binary64)}
    (h : (samples.filterMap id).Perm (others.filterMap id)) :
    ofPresent? samples = ofPresent? others := by
  rw [ofPresent?, ofPresent?, ofSamples_congr h, h.isEmpty_eq]

end Summary
end BattleOdds
