import BattleOdds.Proofs.Generator
import BattleOdds.Proofs.Run.Composition

/-!
# Which batches share a generator

The generator of a batch is made from the sum of the seed and the index of the batch, and mixing
keeps sums apart. So two batches draw alike exactly if these sums are equal, and differ from the
first draw on if they are not. Within a run all sums differ. Between runs whose seeds are less than
`batchCount` apart most batches have a twin in the other run, and twins hold the same trials.
-/
namespace BattleOdds

namespace Generator

/-- Generators differ in their next draw. -/
theorem output_injective : Function.Injective output := by
  rintro ⟨v⟩ ⟨w⟩ h
  have hsum : v + stride = w + stride := mix_bijective.injective h
  rw [(add_left_inj stride).mp hsum]

theorem substream_eq_iff (s t i j : UInt64) : substream s i = substream t j ↔ s + i = t + j := by
  constructor
  · intro h
    have hseeds := output_injective (congrArg state h)
    exact congrArg state hseeds
  · intro h
    rw [substream, substream, h]

theorem add_eq_add_iff_modEq (s t i j : UInt64) :
    s + i = t + j ↔ s.toNat + i.toNat ≡ t.toNat + j.toNat [MOD 2 ^ 64] := by
  rw [← UInt64.toNat_inj, UInt64.toNat_add, UInt64.toNat_add, Nat.ModEq]

/-- The generators of the batches of a run, in order. -/
def ofBatches (seed : UInt64) : List Generator :=
  (List.range batchCount).map fun k => substream seed k.toUInt64

theorem mem_ofBatches (seed : UInt64) (g : Generator) :
    g ∈ ofBatches seed ↔ ∃ k < batchCount, substream seed k.toUInt64 = g := by
  simp only [ofBatches, List.mem_map, List.mem_range]

/-- Indices of batches are small, so their sums with seeds that are close wrap alike. -/
theorem substream_shift_iff (seed : UInt64) {k a b : ℕ} (hk : k < batchCount) (ha : a < batchCount)
    (hb : b < batchCount) :
    substream seed a.toUInt64 = substream (seed + k.toUInt64) b.toUInt64 ↔ a = b + k := by
  rw [substream_eq_iff, UInt64.add_assoc, add_right_inj, ← UInt64.toNat_inj, UInt64.toNat_add]
  simp only [batchCount, Nat.toUInt64_eq, UInt64.toNat_ofNat'] at *
  omega

theorem nodup_ofBatches (seed : UInt64) : (ofBatches seed).Nodup := by
  refine List.Nodup.map_on (fun a ha b hb hab => ?_) List.nodup_range
  have hzero : seed = seed + (0 : ℕ).toUInt64 := (UInt64.add_zero seed).symm
  rw [hzero] at hab
  nth_rewrite 1 [← hzero] at hab
  exact (substream_shift_iff seed (by decide) (List.mem_range.mp ha) (List.mem_range.mp hb)).mp hab

/-- Each batch from index `k` on has a twin `k` places before it in the run with the later seed. -/
theorem length_filter_ofBatches (seed : UInt64) {k : ℕ} (hk : k < batchCount) :
    ((ofBatches seed).filter (· ∈ ofBatches (seed + k.toUInt64))).length = batchCount - k := by
  have hshared : ∀ a ∈ List.range batchCount,
      decide (substream seed a.toUInt64 ∈ ofBatches (seed + k.toUInt64)) = decide (k ≤ a) := by
    intro a ha
    have ha' := List.mem_range.mp ha
    rw [decide_eq_decide, mem_ofBatches]
    constructor
    · rintro ⟨b, hb, h⟩
      rw [(substream_shift_iff seed hk ha' hb).mp h.symm]
      exact Nat.le_add_left k b
    · intro hle
      have hb : a - k < batchCount := (Nat.sub_le a k).trans_lt ha'
      have hindex : a = a - k + k := (Nat.sub_add_cancel hle).symm
      exact ⟨a - k, hb, ((substream_shift_iff seed hk ha' hb).mpr hindex).symm⟩
  have hcount : ∀ k < batchCount, (List.range batchCount).countP (fun a => decide (k ≤ a))
      = batchCount - k := by decide
  calc ((ofBatches seed).filter (· ∈ ofBatches (seed + k.toUInt64))).length
    _ = (List.range batchCount).countP
          fun a => decide (substream seed a.toUInt64 ∈ ofBatches (seed + k.toUInt64)) := by
        rw [← List.countP_eq_length_filter]
        exact List.countP_map
    _ = batchCount - k := by
        rw [List.countP_congr fun a ha => by rw [hshared a ha], hcount k hk]

end Generator

namespace Plan

variable (plan : Plan) (r : Request)

/-- The seed of a request shows in its draws only. -/
theorem run_seed (seed : Option UInt64) (count : ℕ) (g : Generator) :
    plan.run { r with seed } count g = plan.run r count g := by
  rw [run_eq, run_eq]
  rfl

theorem batched_seed (named : Option UInt64) (seed : UInt64) :
    plan.batched { r with seed := named } seed = plan.batched r seed := by
  have hbatch : plan.batch { r with seed := named } seed = plan.batch r seed := by
    funext k span
    rw [batch, batch, run_seed]
  rw [batched, batched, hbatch]

/-- Batches with one generator hold the same trials, as far as both reach. -/
theorem column_batched_twin {s t : UInt64} {i j : ℕ} {late early : Span} (hji : j ≤ i)
    (hlate : (batchSpans plan.trials batchCount)[i]? = some late)
    (hearly : (batchSpans plan.trials batchCount)[j]? = some early)
    (hsame : Generator.substream s i.toUInt64 = .substream t j.toUInt64) {n : ℕ}
    (hn : n < late.size) (c : Column) :
    ((plan.batched r s).column c)[late.start + n]?
      = ((plan.batched r t).column c)[early.start + n]? := by
  have hsize := size_le_of_le hji hearly hlate
  have hin (span : Span) (h : n < span.size) : span.Contains (span.start + n) := by
    rw [Span.size] at h
    exact ⟨Nat.le_add_right _ _, by omega⟩
  have hlength :
      n < ((plan.run r late.size (.substream t j.toUInt64)).1.column c).toList.length := by
    rwa [Array.length_toList, (plan.aligned_run r _ _).size_column, size_run]
  rw [plan.column_batched r hlate (hin late hn), hsame,
    plan.column_batched r hearly (hin early (hn.trans_le hsize)), Nat.add_sub_cancel_left,
    Nat.add_sub_cancel_left, ← Array.getElem?_toList, ← Array.getElem?_toList]
  have hrow := List.prefix_iff_getElem?.mp (plan.column_run_prefix r hsize _ c) n hlength
  rw [hrow, List.getElem?_eq_getElem hlength]

end Plan

theorem Request.exists_batched_run {r : Request} (hvalid : r.faults = []) {machine : Machine}
    {workers : UInt64} (hserves : machine.Serves (.batched workers)) (seed : UInt64)
    (prices : Prices) (entropy : UInt64) (moment : Timestamp) :
    ∃ outcome, { r with seed := some seed }.run machine (.batched workers) prices entropy moment
        = .ok outcome
      ∧ outcome.ledger = (Plan.resolve r prices).batched r seed :=
  ⟨_, run_eq_ok (r := { r with seed := some seed }) hvalid hserves prices entropy moment,
    (Plan.resolve r prices).batched_seed r (some seed) seed⟩

/-- Runs with close seeds share batches. Two substreams are one generator exactly if seed and index
have one sum modulo `2 ^ 64`, and else differ in the first draw; so the substreams of a run are
distinct. Of the batches of two runs with seeds `k < 32` apart, all pairs of which the indices are
`k` apart draw from one generator and no others do: the earlier run repeats, in its last `32 - k`
batches, the trials of the first `32 - k` batches of the later one, row by row, whatever workers of
the machine share them. -/
theorem substream_collisions :
    (∀ s t i j : UInt64,
      (Generator.substream s i = .substream t j
        ↔ s.toNat + i.toNat ≡ t.toNat + j.toNat [MOD 2 ^ 64])
      ∧ (Generator.substream s i ≠ .substream t j →
        (Draw.word (.substream s i)).1 ≠ (Draw.word (.substream t j)).1))
    ∧ (∀ seed, (Generator.ofBatches seed).Nodup)
    ∧ ∀ (seed : UInt64) (k : ℕ), 0 < k → k < 32 →
      let later := seed + k.toUInt64
      (∀ a < 32, ∀ b < 32,
        Generator.substream seed a.toUInt64 = .substream later b.toUInt64 ↔ a = b + k)
      ∧ ((Generator.ofBatches seed).filter (· ∈ Generator.ofBatches later)).length = 32 - k
      ∧ ∀ (r : Request) (machine : Machine) (workers workers' : UInt64) (prices : Prices)
          (entropy : UInt64) (moment : Timestamp), r.faults = [] →
        machine.Serves (.batched workers) → machine.Serves (.batched workers') →
        ∃ first second,
          { r with seed := some seed }.run machine (.batched workers) prices entropy moment
            = .ok first
          ∧ { r with seed := some later }.run machine (.batched workers') prices entropy moment
            = .ok second
          ∧ ∀ j, j + k < 32 → ∃ late early,
            (batchSpans r.trials 32)[j + k]? = some late ∧ (batchSpans r.trials 32)[j]? = some early
            ∧ late.size ≤ early.size
            ∧ ∀ n < late.size, ∀ c,
              (first.ledger.column c)[late.start + n]?
                = (second.ledger.column c)[early.start + n]? := by
  refine ⟨fun s t i j => ⟨?_, fun hne heq => hne (Generator.output_injective heq)⟩,
    Generator.nodup_ofBatches, fun seed k _ hk => ?_⟩
  · rw [Generator.substream_eq_iff, Generator.add_eq_add_iff_modEq]
  intro later
  refine ⟨fun a ha b hb => Generator.substream_shift_iff seed hk ha hb,
    Generator.length_filter_ofBatches seed hk,
    fun r machine workers workers' prices entropy moment hvalid hserves hserves' => ?_⟩
  obtain ⟨first, hfirst, hledger⟩ :=
    Request.exists_batched_run hvalid hserves seed prices entropy moment
  obtain ⟨second, hsecond, hledger'⟩ :=
    Request.exists_batched_run hvalid hserves' later prices entropy moment
  refine ⟨first, second, hfirst, hsecond, fun j hj => ?_⟩
  have hmany : 100 ≤ r.trials := hundred_le_clampIterations r.iterations
  have hlength : (batchSpans r.trials 32).length = 32 := by
    rw [length_batchSpans]
    omega
  have hj' : j < 32 := (Nat.le_add_right j k).trans_lt hj
  obtain ⟨late, hlate⟩ : ∃ late, (batchSpans r.trials 32)[j + k]? = some late :=
    ⟨_, List.getElem?_eq_getElem (hlength.symm ▸ hj)⟩
  obtain ⟨early, hearly⟩ : ∃ early, (batchSpans r.trials 32)[j]? = some early :=
    ⟨_, List.getElem?_eq_getElem (hlength.symm ▸ hj')⟩
  have hji : j ≤ j + k := Nat.le_add_right j k
  refine ⟨late, early, hlate, hearly, size_le_of_le hji hearly hlate, fun n hn c => ?_⟩
  have hsame : Generator.substream seed (j + k).toUInt64 = .substream later j.toUInt64 :=
    (Generator.substream_shift_iff seed hk hj hj').mpr rfl
  rw [hledger, hledger']
  exact (Plan.resolve r prices).column_batched_twin r hji hlate hearly hsame hn c

/-- Five ships attack with seed 7 on a pool of four workers, and with seed 10 on the workers that
the machine has: the fourth batch of the first run is the first one of the second. -/
theorem substream_collisions_of_fleet :
    let r : Request :=
      { attacker := { ships := 5 }, defender := { ships := 6 }, action := .naval 5 }
    let machine := Machine.withRoomFor 8
    r.faults = [] ∧ machine.Serves (.batched 4) ∧ machine.Serves (.batched 0)
    ∧ Generator.substream 7 3 = .substream 10 0
    ∧ (Draw.word (.substream 7 3)).1 ≠ (Draw.word (.substream 10 1)).1
    ∧ ((Generator.ofBatches 7).filter (· ∈ Generator.ofBatches 10)).length = 29
    ∧ ∃ first second, { r with seed := some 7 }.run machine (.batched 4) {} 0 default = .ok first
      ∧ { r with seed := some 10 }.run machine (.batched 0) {} 0 default = .ok second
      ∧ ∃ late early, (batchSpans 1000 32)[3]? = some late ∧ (batchSpans 1000 32)[0]? = some early
        ∧ first.ledger.infraDestroyed[late.start]?
          = second.ledger.infraDestroyed[early.start]? := by
  intro r machine
  have hvalid : r.faults = [] := by decide
  have hserves : machine.Serves (.batched 4) := by decide
  have hserves' : machine.Serves (.batched 0) := by decide
  obtain ⟨hpairs, -, hruns⟩ := substream_collisions
  obtain ⟨hshift, hshared, htwins⟩ := hruns 7 3 (by decide) (by decide)
  obtain ⟨first, second, hfirst, hsecond, hrows⟩ :=
    htwins r machine 4 0 {} 0 default hvalid hserves hserves'
  obtain ⟨late, early, hlate, hearly, -, hcells⟩ := hrows 0 (by decide)
  have hsize : 0 < late.size := by
    rw [size_of_getElem?_batchSpans hlate]
    decide
  have hdistinct : Generator.substream 7 3 ≠ .substream 10 1 :=
    fun h => absurd ((hshift 3 (by decide) 1 (by decide)).mp h) (by decide)
  exact ⟨hvalid, hserves, hserves', (hpairs 7 10 3 0).1.mpr (by decide),
    (hpairs 7 10 3 1).2 hdistinct, hshared, first, second, hfirst, hsecond, late, early, hlate,
    hearly, hcells 0 hsize .infraDestroyed⟩

end BattleOdds
