import BattleOdds.Batches
import Mathlib

/-!
# The cut into batches

The spans of a cut tile the places from the first to the last: each begins where the one before it
ends. So every place lies in exactly one span, and what is listed span by span is found again at the
place itself.
-/
namespace BattleOdds

namespace Span

/-- The spans follow one another without gap or overlap, from `a` to `b`. -/
def Tiles : (a : Nat) → List Span → (b : Nat) → Prop
  | a, [], b => a = b
  | a, s :: spans, b => s.start = a ∧ a ≤ s.stop ∧ Tiles s.stop spans b

/-- A place lies in a span. -/
def Contains (s : Span) (j : Nat) : Prop := s.start ≤ j ∧ j < s.stop

@[simp] theorem length_consecutive (a : Nat) (sizes : List Nat) :
    (consecutive a sizes).length = sizes.length := by
  induction sizes generalizing a with
  | nil => rfl
  | cons n sizes ih => simp [consecutive, ih]

theorem map_size_consecutive (a : Nat) (sizes : List Nat) :
    (consecutive a sizes).map size = sizes := by
  induction sizes generalizing a with
  | nil => rfl
  | cons n sizes ih => simp [consecutive, size, ih]

theorem tiles_consecutive (a : Nat) (sizes : List Nat) :
    Tiles a (consecutive a sizes) (a + sizes.sum) := by
  induction sizes generalizing a with
  | nil => simp [consecutive, Tiles]
  | cons n sizes ih =>
    refine ⟨rfl, Nat.le_add_right a n, ?_⟩
    rw [List.sum_cons, ← Nat.add_assoc]
    exact ih (a + n)

namespace Tiles

/-- The sizes add up to the distance. -/
theorem sum_size {a b : Nat} {spans : List Span} (h : Tiles a spans b) :
    a + (spans.map size).sum = b := by
  induction spans generalizing a with
  | nil => exact h
  | cons s spans ih =>
    obtain ⟨hstart, hle, htail⟩ := h
    have hrest := ih htail
    simp only [List.map_cons, List.sum_cons, size]
    omega

theorem le_start {a b k : Nat} {spans : List Span} {s : Span} (h : Tiles a spans b)
    (hs : spans[k]? = some s) : a ≤ s.start := by
  induction spans generalizing a k with
  | nil => simp at hs
  | cons t spans ih =>
    cases k with
    | zero =>
      obtain rfl : t = s := by simpa using hs
      exact Nat.le_of_eq h.1.symm
    | succ k => exact Nat.le_trans h.2.1 (ih h.2.2 (by simpa using hs))

/-- Every place lies in one of the spans, -/
theorem exists_contains {a b j : Nat} {spans : List Span} (h : Tiles a spans b) (ha : a ≤ j)
    (hb : j < b) : ∃ (k : Nat) (s : Span), spans[k]? = some s ∧ s.Contains j := by
  induction spans generalizing a with
  | nil =>
    have hab : a = b := h
    omega
  | cons s spans ih =>
    obtain ⟨hstart, -, htail⟩ := h
    by_cases hj : j < s.stop
    · exact ⟨0, s, by simp, by omega, hj⟩
    · obtain ⟨k, t, ht, hcontains⟩ := ih htail (Nat.le_of_not_lt hj)
      exact ⟨k + 1, t, by simpa using ht, hcontains⟩

/-- and in no other. -/
theorem contains_unique {a b j k m : Nat} {spans : List Span} {s t : Span} (h : Tiles a spans b)
    (hs : spans[k]? = some s) (ht : spans[m]? = some t) (hsj : s.Contains j)
    (htj : t.Contains j) : k = m := by
  induction spans generalizing a k m with
  | nil => simp at hs
  | cons u spans ih =>
    -- A span after the first one starts where the first one stops, or later.
    have later {n : Nat} {v : Span} (hv : (u :: spans)[n + 1]? = some v) : u.stop ≤ v.start :=
      h.2.2.le_start (by simpa using hv)
    rcases k with _ | k <;> rcases m with _ | m
    · rfl
    · obtain rfl : u = s := by simpa using hs
      exact absurd (Nat.le_trans (later ht) htj.1) (Nat.not_le_of_lt hsj.2)
    · obtain rfl : u = t := by simpa using ht
      exact absurd (Nat.le_trans (later hs) hsj.1) (Nat.not_le_of_lt htj.2)
    · exact congrArg (· + 1) (ih h.2.2 (by simpa using hs) (by simpa using ht))

/-- Lists of the sizes of the spans, put one after another, keep their rows at the places of the
spans. -/
theorem getElem?_flatten {α : Type} {a b j k : Nat} {spans : List Span} {s : Span}
    {parts : List (List α)} (h : Tiles a spans b) (hparts : parts.map List.length = spans.map size)
    (hs : spans[k]? = some s) (hj : s.Contains j) :
    parts.flatten[j - a]? = (parts[k]?.getD [])[j - s.start]? := by
  induction spans generalizing a k parts with
  | nil => simp at hs
  | cons t spans ih =>
    obtain ⟨hstart, hle, htail⟩ := h
    obtain _ | ⟨part, parts⟩ := parts
    · simp at hparts
    obtain ⟨hlength, hlengths⟩ : part.length = t.stop - t.start
        ∧ parts.map List.length = spans.map size := by simpa [size] using hparts
    rw [List.flatten_cons]
    cases k with
    | zero =>
      obtain rfl : t = s := by simpa using hs
      obtain ⟨hfirst, hlast⟩ := hj
      have hwithin : j - a < part.length := by omega
      rw [List.getElem?_append_left hwithin, hstart]
      rfl
    | succ k =>
      have hs' : spans[k]? = some s := by simpa using hs
      have hstop : t.stop ≤ j := Nat.le_trans (htail.le_start hs') hj.1
      have hpast : part.length ≤ j - a := by omega
      have hplace : j - a - part.length = j - t.stop := by omega
      rw [List.getElem?_append_right hpast, hplace, ih htail hlengths hs']
      rfl

end Tiles
end Span

theorem sum_sizes (q rest parts : Nat) :
    ((List.range parts).map fun i => q + if i < rest then 1 else 0).sum
      = parts * q + min parts rest := by
  induction parts with
  | zero => simp
  | succ parts ih =>
    rw [List.range_succ, List.map_append, List.sum_append, ih, Nat.succ_mul]
    by_cases h : parts < rest
    · simp [h]
      omega
    · simp [h]
      omega

/-- The parts make up the whole. -/
theorem sum_batchSizes {batches : Nat} (total : Nat) (h : 0 < batches) :
    (batchSizes total batches).sum = total := by
  have hsum := sum_sizes (total / min batches total) (total % min batches total) (min batches total)
  have hdiv := Nat.div_add_mod total (min batches total)
  rcases Nat.eq_zero_or_pos total with rfl | htotal
  · simp [batchSizes]
  · have hrest : total % min batches total < min batches total :=
      Nat.mod_lt _ (Nat.lt_min.mpr ⟨h, htotal⟩)
    have hmin := Nat.min_eq_right (Nat.le_of_lt hrest)
    rw [batchSizes, hsum, hmin, hdiv]

theorem length_batchSpans (total batches : Nat) :
    (batchSpans total batches).length = min batches total := by
  simp [batchSpans, batchSizes]

/-- The size of a batch by its index. -/
theorem size_of_getElem?_batchSpans {total batches k : Nat} {span : Span}
    (h : (batchSpans total batches)[k]? = some span) :
    span.size
      = total / min batches total + if k < total % min batches total then 1 else 0 := by
  have hsize : (batchSizes total batches)[k]? = some span.size := by
    rw [← Span.map_size_consecutive 0 (batchSizes total batches), List.getElem?_map]
    exact congrArg (Option.map Span.size) h
  obtain ⟨hk, hsize'⟩ := List.getElem?_eq_some_iff.mp hsize
  rw [← hsize']
  simp only [batchSizes, List.getElem_map, List.getElem_range]

/-- No batch is greater than an earlier one. -/
theorem size_le_of_le {total batches j k : Nat} {early late : Span} (hjk : j ≤ k)
    (hearly : (batchSpans total batches)[j]? = some early)
    (hlate : (batchSpans total batches)[k]? = some late) : late.size ≤ early.size := by
  rw [size_of_getElem?_batchSpans hearly, size_of_getElem?_batchSpans hlate]
  split_ifs <;> omega

theorem tiles_batchSpans {batches : Nat} (total : Nat) (h : 0 < batches) :
    Span.Tiles 0 (batchSpans total batches) total := by
  have htiles := Span.tiles_consecutive 0 (batchSizes total batches)
  rwa [Nat.zero_add, sum_batchSizes total h] at htiles

end BattleOdds
