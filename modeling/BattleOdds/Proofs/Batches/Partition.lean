import BattleOdds.Proofs.Batches

/-!
# The bounds of the batches

Part `k` of a cut begins after `k` parts of the common size and the extra places that these have
taken, one each as long as there are some. In this form the spans of a cut lie between successive
bounds, from which their order and their sizes are read. A loop that counts in words of 64 bits adds
up the same bounds, since none of its sums passes the total.
-/
namespace BattleOdds

variable {total parts batches : ℕ}

/-- Where a part of a cut begins and the part before it ends. -/
def partBound (total parts k : ℕ) : ℕ := k * (total / parts) + min k (total % parts)

/-- The size of a part. -/
def partSize (total parts k : ℕ) : ℕ := total / parts + if k < total % parts then 1 else 0

@[simp] theorem partBound_zero (total parts : ℕ) : partBound total parts 0 = 0 := by
  simp [partBound]

/-- A part adds the common size, and an extra place while there are some. -/
theorem partBound_succ (total parts k : ℕ) :
    partBound total parts (k + 1) = partBound total parts k + partSize total parts k := by
  simp only [partBound, partSize, Nat.succ_mul]
  split_ifs <;> omega

theorem partBound_self (total : ℕ) (h : 0 < parts) : partBound total parts parts = total := by
  have hdiv := Nat.div_add_mod total parts
  have hrest := Nat.mod_lt total h
  rw [partBound]
  omega

theorem partBound_mono (total parts : ℕ) : Monotone (partBound total parts) :=
  monotone_nat_of_le_succ fun k => by rw [partBound_succ]; omega

theorem partBound_le {k : ℕ} (h : 0 < parts) (hk : k ≤ parts) : partBound total parts k ≤ total :=
  (partBound_mono total parts hk).trans_eq (partBound_self total h)

theorem partSize_pos (k : ℕ) (hpos : 0 < parts) (h : parts ≤ total) :
    0 < partSize total parts k := by
  have hbase := Nat.div_pos h hpos
  unfold partSize
  omega

/-- Parts differ by an extra place at most, which the earlier ones take. -/
theorem partSize_le_add_one (total parts j k : ℕ) :
    partSize total parts j ≤ partSize total parts k + 1 := by
  unfold partSize
  split_ifs <;> omega

theorem partSize_antitone (total parts : ℕ) : Antitone (partSize total parts) := by
  intro j k h
  unfold partSize
  split_ifs <;> omega

/-- The places of a part. -/
def partSpan (total parts k : ℕ) : Span :=
  ⟨partBound total parts k, partBound total parts (k + 1)⟩

theorem size_partSpan (total parts k : ℕ) :
    (partSpan total parts k).size = partSize total parts k := by
  simp [partSpan, Span.size, partBound_succ]

theorem consecutive_partSize (total parts i n : ℕ) :
    Span.consecutive (partBound total parts i) ((List.range' i n).map (partSize total parts))
      = (List.range' i n).map (partSpan total parts) := by
  induction n generalizing i with
  | zero => rfl
  | succ n ih =>
    simp only [List.range'_succ, List.map_cons, Span.consecutive, ← partBound_succ, ih]
    rfl

/-- The spans of a cut are those between its bounds. -/
theorem batchSpans_eq_map (total batches : ℕ) :
    batchSpans total batches
      = (List.range (min batches total)).map (partSpan total (min batches total)) := by
  have h := consecutive_partSize total (min batches total) 0 (min batches total)
  rw [partBound_zero, ← List.range_eq_range'] at h
  exact h

/-! ## The cut in words -/

/-- The spans of `n` parts from an index on, added up in words. -/
def wordSpansFrom (base rest index start : UInt64) : ℕ → List (UInt64 × UInt64)
  | 0 => []
  | n + 1 =>
    let size := base + if index < rest then 1 else 0
    (start, start + size) :: wordSpansFrom base rest (index + 1) (start + size) n

/-- The cut of a total, added up in words. -/
def wordSpans (total batches : UInt64) : List (UInt64 × UInt64) :=
  if total = 0 ∨ batches = 0 then []
  else
    let parts := min batches total
    wordSpansFrom (total / parts) (total % parts) 0 0 parts.toNat

def Span.ofWords (w : UInt64 × UInt64) : Span := ⟨w.1.toNat, w.2.toNat⟩

/-- One step of the loop does not overflow as long as the next bound is a word. -/
theorem toNat_add_size {base rest index start : UInt64} {i : ℕ}
    (hbase : base.toNat = total / parts) (hrest : rest.toNat = total % parts)
    (hindex : index.toNat = i) (hstart : start.toNat = partBound total parts i)
    (hword : partBound total parts (i + 1) < 2 ^ 64) :
    (start + (base + if index < rest then 1 else 0)).toNat = partBound total parts (i + 1) := by
  rw [partBound_succ] at hword ⊢
  have hsize : (base + if index < rest then 1 else 0).toNat = partSize total parts i := by
    have hextra : (if index < rest then 1 else 0 : UInt64).toNat
        = if i < total % parts then 1 else 0 := by
      simp only [UInt64.lt_iff_toNat_lt, hindex, hrest]
      split_ifs <;> rfl
    rw [UInt64.toNat_add, hbase, hextra]
    exact Nat.mod_eq_of_lt ((Nat.le_add_left _ _).trans_lt hword)
  rw [UInt64.toNat_add, hstart, hsize, Nat.mod_eq_of_lt hword]

theorem map_wordSpansFrom {base rest index start : UInt64} {i n : ℕ}
    (hbase : base.toNat = total / parts) (hrest : rest.toNat = total % parts)
    (hindex : index.toNat = i) (hstart : start.toNat = partBound total parts i)
    (hpos : 0 < parts) (hparts : parts ≤ total) (hword : total < 2 ^ 64) (hn : i + n = parts) :
    (wordSpansFrom base rest index start n).map Span.ofWords
      = (List.range' i n).map (partSpan total parts) := by
  induction n generalizing index start i with
  | zero => rfl
  | succ n ih =>
    have hbound : partBound total parts (i + 1) ≤ total := partBound_le hpos (by omega)
    have hstop := toNat_add_size hbase hrest hindex hstart (by omega)
    have hnext : (index + 1).toNat = i + 1 := by
      rw [UInt64.toNat_add, hindex, UInt64.toNat_one]
      omega
    have htail := ih hnext hstop (by omega)
    simp only [wordSpansFrom, List.range'_succ, List.map_cons, htail]
    simp [Span.ofWords, partSpan, hstart, hstop]

theorem toNat_min (m n : UInt64) : (min m n).toNat = min m.toNat n.toNat := by
  change (if m ≤ n then m else n).toNat = _
  split_ifs with h <;> rw [UInt64.le_iff_toNat_le] at h <;> omega

/-- The loop in words makes the cut. -/
theorem map_wordSpans (total batches : UInt64) :
    (wordSpans total batches).map Span.ofWords = batchSpans total.toNat batches.toNat := by
  unfold wordSpans
  split_ifs with hnone
  · have hzero : min batches.toNat total.toNat = 0 := by
      rcases hnone with rfl | rfl <;> simp
    simp [batchSpans_eq_map, hzero]
  · have hmin := toNat_min batches total
    have hpos : 0 < (min batches total).toNat := by
      rw [← UInt64.toNat_inj, ← UInt64.toNat_inj, UInt64.toNat_zero] at hnone
      omega
    rw [batchSpans_eq_map, List.range_eq_range', ← hmin]
    exact map_wordSpansFrom (UInt64.toNat_div _ _) (UInt64.toNat_mod _ _) rfl
      (partBound_zero _ _).symm hpos (by omega) total.toNat_lt (Nat.zero_add _)

/-! ## The partition -/

theorem mem_batchSpans {s : Span} (h : s ∈ batchSpans total batches) :
    ∃ k < min batches total, partSpan total (min batches total) k = s := by
  simpa [batchSpans_eq_map] using h

theorem batchSpans_eq_nil_iff (total batches : ℕ) :
    batchSpans total batches = [] ↔ total = 0 ∨ batches = 0 := by
  rw [← List.length_eq_zero_iff, length_batchSpans]
  omega

theorem head?_batchSpans (htotal : 0 < total) (hbatches : 0 < batches) :
    (batchSpans total batches).head?.map Span.start = some 0 := by
  have hparts : 0 < min batches total := by omega
  simp [batchSpans_eq_map, partSpan, List.head?_range, hparts.ne']

theorem getLast?_batchSpans (htotal : 0 < total) (hbatches : 0 < batches) :
    (batchSpans total batches).getLast?.map Span.stop = some total := by
  have hparts : 0 < min batches total := by omega
  have hlast : min batches total - 1 + 1 = min batches total := by omega
  simp [batchSpans_eq_map, partSpan, List.getLast?_range, hparts.ne', hlast,
    partBound_self total hparts]

theorem isChain_batchSpans (total batches : ℕ) :
    (batchSpans total batches).IsChain (fun s t => s.stop = t.start) := by
  rw [batchSpans_eq_map, List.isChain_map, List.isChain_range]
  exact fun k _ => rfl

theorem start_lt_stop_of_mem {s : Span} (h : s ∈ batchSpans total batches) : s.start < s.stop := by
  obtain ⟨k, hk, rfl⟩ := mem_batchSpans h
  have hsize := partSize_pos k (Nat.zero_lt_of_lt hk) (Nat.min_le_right batches total)
  simp only [partSpan, partBound_succ]
  omega

theorem existsUnique_contains (hbatches : 0 < batches) {j : ℕ} (hj : j < total) :
    ∃! k : ℕ, ∃ s, (batchSpans total batches)[k]? = some s ∧ s.Contains j := by
  have htiles : Span.Tiles 0 (batchSpans total batches) total := tiles_batchSpans total hbatches
  obtain ⟨k, s, hs, hcontains⟩ := htiles.exists_contains (Nat.zero_le j) hj
  refine ⟨k, ⟨s, hs, hcontains⟩, ?_⟩
  rintro m ⟨t, ht, hcontains'⟩
  exact htiles.contains_unique ht hs hcontains' hcontains

theorem size_le_size_add_one_of_mem {s t : Span} (hs : s ∈ batchSpans total batches)
    (ht : t ∈ batchSpans total batches) : s.size ≤ t.size + 1 := by
  obtain ⟨j, -, rfl⟩ := mem_batchSpans hs
  obtain ⟨k, -, rfl⟩ := mem_batchSpans ht
  rw [size_partSpan, size_partSpan]
  exact partSize_le_add_one _ _ j k

theorem pairwise_size_batchSpans (total batches : ℕ) :
    (batchSpans total batches).Pairwise (fun s t => t.size ≤ s.size) := by
  rw [batchSpans_eq_map, List.pairwise_map]
  refine List.pairwise_lt_range.imp fun h => ?_
  rw [size_partSpan, size_partSpan]
  exact partSize_antitone _ _ h.le

theorem start_add_size_of_mem {s : Span} (h : s ∈ batchSpans total batches) :
    s.start + s.size = s.stop := by
  obtain ⟨k, -, rfl⟩ := mem_batchSpans h
  rw [size_partSpan]
  exact (partBound_succ _ _ k).symm

theorem stop_le_total_of_mem {s : Span} (h : s ∈ batchSpans total batches) : s.stop ≤ total := by
  obtain ⟨k, hk, rfl⟩ := mem_batchSpans h
  exact partBound_le (Nat.zero_lt_of_lt hk) hk

/-- The cut of a total. There are spans unless there is nothing to cut or to cut it into; they tile
the places, all are non-empty, and each place lies in exactly one. Their sizes differ by one at most
and descend, and the sums that make them up stay below the total, so that a loop which adds them up
in words makes the same cut. -/
theorem batches_partition (total batches : ℕ) :
    let spans := batchSpans total batches
    (spans = [] ↔ total = 0 ∨ batches = 0)
    ∧ (0 < total → 0 < batches →
        spans.length = min batches total
        ∧ spans.head?.map Span.start = some 0 ∧ spans.getLast?.map Span.stop = some total
        ∧ spans.IsChain (fun s t => s.stop = t.start)
        ∧ (∀ s ∈ spans, s.start < s.stop)
        ∧ ∀ j < total, ∃! k : ℕ, ∃ s, spans[k]? = some s ∧ s.Contains j)
    ∧ (∀ s ∈ spans, ∀ t ∈ spans, s.size ≤ t.size + 1)
    ∧ spans.Pairwise (fun s t => t.size ≤ s.size)
    ∧ (∀ s ∈ spans, s.start + s.size = s.stop ∧ s.stop ≤ total)
    ∧ ∀ m n : UInt64, m.toNat = total → n.toNat = batches →
        (wordSpans m n).map Span.ofWords = spans := by
  refine ⟨batchSpans_eq_nil_iff total batches, fun htotal hbatches => ?_, fun s hs t ht => ?_,
    pairwise_size_batchSpans total batches, fun s hs => ?_, ?_⟩
  · exact ⟨length_batchSpans total batches, head?_batchSpans htotal hbatches,
      getLast?_batchSpans htotal hbatches, isChain_batchSpans total batches,
      fun s => start_lt_stop_of_mem, fun j => existsUnique_contains hbatches⟩
  · exact size_le_size_add_one_of_mem hs ht
  · exact ⟨start_add_size_of_mem hs, stop_le_total_of_mem hs⟩
  · rintro m n rfl rfl
    exact map_wordSpans m n

/-- Ten places cut in three, the first span one longer than the others. -/
theorem batches_partition_of_ten :
    (0 < 10 ∧ 0 < 3) ∧ (batchSpans 10 3).length = 3
    ∧ (∃! k : ℕ, ∃ s, (batchSpans 10 3)[k]? = some s ∧ s.Contains 4)
    ∧ (wordSpans 10 3).map Span.ofWords = batchSpans 10 3
    ∧ (batchSpans 10 3).map Span.start = [0, 4, 7] := by
  obtain ⟨-, hcut, -, -, -, hwords⟩ := batches_partition 10 3
  obtain ⟨hlength, -, -, -, -, hcover⟩ := hcut (by decide) (by decide)
  exact ⟨by decide, hlength, hcover 4 (by decide), hwords 10 3 rfl rfl, by decide⟩

end BattleOdds
