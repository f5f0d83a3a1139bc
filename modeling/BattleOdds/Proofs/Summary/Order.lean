import BattleOdds.Proofs.Binary64.Order
import BattleOdds.Proofs.Percentile

/-!
# Summaries keep the order of samples

Samples that are row by row up to those of another list are so after both lists are sorted, though
sorting may put other rows beside each other: that is an induction over sorting by insertion. Adding
up from the least to the greatest and dividing by the count keep the order too. So the least and the
greatest sample and the mean of the one list do not exceed those of the other.
-/
namespace BattleOdds

/-! ## Sorting by insertion -/

section Insertion

variable {α : Type*} [LinearOrder α] {x y : α} {xs ys : List α}

/-- Nothing has to be passed to insert what comes first anyway. -/
theorem orderedInsert_eq_cons (h : (x :: xs).Pairwise (· ≤ ·)) :
    xs.orderedInsert (· ≤ ·) x = x :: xs := by
  cases xs with
  | nil => rfl
  | cons z xs => exact List.orderedInsert_cons_of_le _ xs (List.rel_of_pairwise_cons h (by simp))

/-- The induction is on the rows. Where one of the two elements comes first and the other does not,
the head of the one list is inserted instead. -/
theorem forall₂_orderedInsert (h : List.Forall₂ (· ≤ ·) xs ys) (hxs : xs.Pairwise (· ≤ ·))
    (hys : ys.Pairwise (· ≤ ·)) (hxy : x ≤ y) :
    List.Forall₂ (· ≤ ·) (xs.orderedInsert (· ≤ ·) x) (ys.orderedInsert (· ≤ ·) y) := by
  induction h generalizing x y with
  | nil => exact .cons hxy .nil
  | @cons a b xs ys hab hrest ih =>
    have ih' {x y : α} := @ih x y hxs.of_cons hys.of_cons
    by_cases hxa : x ≤ a <;> by_cases hyb : y ≤ b
    · rw [List.orderedInsert_cons_of_le _ _ hxa, List.orderedInsert_cons_of_le _ _ hyb]
      exact .cons hxy (.cons hab hrest)
    · rw [List.orderedInsert_cons_of_le _ _ hxa, List.orderedInsert_of_not_le _ _ hyb,
        ← orderedInsert_eq_cons hxs]
      exact .cons (hxa.trans hab) (ih' (hab.trans (not_le.mp hyb).le))
    · rw [List.orderedInsert_of_not_le _ _ hxa, List.orderedInsert_cons_of_le _ _ hyb,
        ← orderedInsert_eq_cons hys]
      exact .cons ((not_le.mp hxa).le.trans hxy) (ih' (hxy.trans hyb))
    · rw [List.orderedInsert_of_not_le _ _ hxa, List.orderedInsert_of_not_le _ _ hyb]
      exact .cons hab (ih' hxy)

theorem forall₂_insertionSort (h : List.Forall₂ (· ≤ ·) xs ys) :
    List.Forall₂ (· ≤ ·) (xs.insertionSort (· ≤ ·)) (ys.insertionSort (· ≤ ·)) := by
  induction h with
  | nil => exact .nil
  | cons hxy _ ih =>
    exact forall₂_orderedInsert ih (List.pairwise_insertionSort _ _)
      (List.pairwise_insertionSort _ _) hxy

end Insertion

open Binary64

variable {samples others : List Binary64}

/-! ## Sorted samples -/

/-- In value samples are sorted as their values are. -/
theorem map_value_sortSamples (samples : List Binary64) :
    (sortSamples samples).map value = (samples.map value).insertionSort (· ≤ ·) := by
  have hperm : ((sortSamples samples).map value).Perm ((samples.map value).insertionSort (· ≤ ·)) :=
    ((sortSamples_perm samples).map value).trans (List.perm_insertionSort _ _).symm
  have hsorted : ((sortSamples samples).map value).Pairwise (· ≤ ·) :=
    (pairwise_sortSamples samples).map value fun _ _ => value_le_of_totalLE
  exact hperm.eq_of_pairwise (fun _ _ _ _ => le_antisymm) hsorted
    (List.pairwise_insertionSort _ _)

theorem nonNegative_of_forall₂ (h : List.Forall₂ Under samples others) :
    (∀ x ∈ samples, NonNegative x) ∧ ∀ y ∈ others, NonNegative y := by
  have hflip : List.Forall₂ (fun y x => Under x y) others samples := List.Forall₂.flip h
  exact ⟨((List.forall₂_and_left _ _).mp (h.imp fun _ _ hxy => ⟨hxy.nonNegative, hxy⟩)).1,
    ((List.forall₂_and_left _ _).mp (hflip.imp fun _ _ hxy => ⟨hxy.nonNegative_right, hxy⟩)).1⟩

/-- Sorting keeps samples row by row up to others. -/
theorem forall₂_sortSamples (h : List.Forall₂ Under samples others) :
    List.Forall₂ Under (sortSamples samples) (sortSamples others) := by
  have hvalues : List.Forall₂ (· ≤ ·) ((sortSamples samples).map value)
      ((sortSamples others).map value) := by
    rw [map_value_sortSamples, map_value_sortSamples]
    refine forall₂_insertionSort ?_
    rw [List.forall₂_map_left_iff, List.forall₂_map_right_iff]
    exact h.imp fun _ _ hxy => value_le_of_le hxy.le
  rw [List.forall₂_map_left_iff, List.forall₂_map_right_iff, List.forall₂_iff_zip] at hvalues
  obtain ⟨hlength, hzip⟩ := hvalues
  obtain ⟨hsamples, hothers⟩ := nonNegative_of_forall₂ h
  refine List.forall₂_iff_zip.mpr ⟨hlength, fun {x y} hmem => ?_⟩
  obtain ⟨hx, hy⟩ := List.of_mem_zip hmem
  have hx₀ := hsamples x ((sortSamples_perm samples).subset hx)
  have hy₀ := hothers y ((sortSamples_perm others).subset hy)
  exact ⟨hx₀, (le_iff_value hx₀.isNumber hy₀.isNumber).mpr (hzip hmem)⟩

/-! ## Places, sums and means -/

/-- The same place of both lists, or none of either. -/
theorem under_getD (h : List.Forall₂ Under samples others) (i : ℕ) :
    Under (samples.toArray.getD i 0.0) (others.toArray.getD i 0.0) := by
  rw [Array.getD_eq_getD_getElem?, Array.getD_eq_getD_getElem?, List.getElem?_toArray,
    List.getElem?_toArray]
  by_cases hi : i < samples.length
  · have hi' : i < others.length := h.length_eq ▸ hi
    rw [List.getElem?_eq_getElem hi, List.getElem?_eq_getElem hi']
    exact h.get hi hi'
  · have hi' : ¬ i < others.length := h.length_eq ▸ hi
    rw [List.getElem?_eq_none (not_lt.mp hi), List.getElem?_eq_none (not_lt.mp hi')]
    exact .zero

theorem under_sum (h : List.Forall₂ Under samples others) : Under (sum samples) (sum others) := by
  have hstart : Under negativeZero negativeZero := .refl (hasValue_negativeZero.nonNegative le_rfl)
  exact List.rel_foldl (fun _ _ hsum _ _ hxy => hsum.add hxy) hstart h

theorem under_mean (h : List.Forall₂ Under samples others) (hne : samples ≠ [])
    (hlength : samples.length < 2 ^ 53) :
    Under (sum samples / ofNat samples.length) (sum others / ofNat others.length) := by
  have hcount := hasValue_ofNat hlength
  have hpos : 0 < (ofNat samples.length).value := by
    rw [hcount.value_eq]
    exact_mod_cast List.length_pos_iff.mpr hne
  rw [← h.length_eq]
  exact (under_sum h).div (isFinite_ofNat _) hpos

/-! ## Summaries -/

namespace Summary

/-- The least and the greatest sample of a summary and its mean do not exceed those of another. -/
structure Under (s t : Summary) : Prop where
  min_le : s.min ≤ t.min
  mean_le : s.mean ≤ t.mean
  max_le : s.max ≤ t.max

theorem under_ofSorted (h : List.Forall₂ Binary64.Under samples others) (hne : samples ≠ [])
    (hlength : samples.length < 2 ^ 53) : (ofSorted samples).Under (ofSorted others) where
  min_le := (under_getD h 0).le
  mean_le := (under_mean h hne hlength).le
  max_le := by
    have hlast := (under_getD h (samples.length - 1)).le
    simp only [ofSorted, List.size_toArray]
    rwa [← h.length_eq]

theorem under_ofSamples (h : List.Forall₂ Binary64.Under samples others)
    (hlength : samples.length < 2 ^ 53) : (ofSamples samples).Under (ofSamples others) := by
  by_cases hne : samples = []
  · obtain rfl := hne
    obtain rfl := List.forall₂_nil_left_iff.mp h
    exact ⟨by decide, by decide, by decide⟩
  · have hne' : others ≠ [] := by
      rintro rfl
      exact hne (List.forall₂_nil_right_iff.mp h)
    have hperm := sortSamples_perm samples
    have hsorted : sortSamples samples ≠ [] := by
      rwa [ne_eq, ← List.length_eq_zero_iff, hperm.length_eq, List.length_eq_zero_iff]
    rw [ofSamples, ofSamples, if_neg (mt List.isEmpty_iff.mp hne),
      if_neg (mt List.isEmpty_iff.mp hne')]
    exact under_ofSorted (forall₂_sortSamples h) hsorted (hperm.length_eq.trans_lt hlength)

end Summary

end BattleOdds
