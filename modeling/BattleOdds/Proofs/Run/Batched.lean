import BattleOdds.Proofs.Batches
import BattleOdds.Proofs.Run.Pool

/-!
# Batched runs

A batched run is the concatenation of sequential runs, one for each batch and each from a generator
of its own. Every place of the run lies in one batch, and its row is the row of that batch at the
place counted from where the batch begins. So under either runner every cell of a ledger comes from
the result of a trial, and what every trial of an action yields, every row of a run has.
-/
namespace BattleOdds

theorem hundred_le_clampIterations (requested : Int64) : 100 ≤ clampIterations requested := by
  simp only [clampIterations]
  omega

theorem clampIterations_le (requested : Int64) : clampIterations requested ≤ 20000 := by
  simp only [clampIterations]
  omega

namespace Plan

variable (plan : Plan) (r : Request)

theorem aligned_run (count : Nat) (g : Generator) : (plan.run r count g).1.Aligned := by
  rw [ledger_run]
  exact .ofEntries _

theorem size_run (count : Nat) (g : Generator) : (plan.run r count g).1.size = count := by
  rw [ledger_run, Ledger.size_ofEntries, List.length_map, length_trace]

/-- The ledgers of the batches by their indices. -/
def parts (seed : UInt64) : List Ledger :=
  (batchSpans plan.trials batchCount).mapIdx (plan.batch r seed)

theorem batched_eq_concat (seed : UInt64) : plan.batched r seed = .concat (plan.parts r seed) := rfl

theorem getElem?_parts {seed : UInt64} {k : Nat} {span : Span}
    (hspan : (batchSpans plan.trials batchCount)[k]? = some span) :
    (plan.parts r seed)[k]? = some (plan.run r span.size (.substream seed k.toUInt64)).1 := by
  rw [parts, List.getElem?_mapIdx, hspan]
  rfl

theorem aligned_parts {seed : UInt64} {part : Ledger} (h : part ∈ plan.parts r seed) :
    part.Aligned := by
  obtain ⟨k, hk, rfl⟩ := List.mem_mapIdx.mp h
  exact plan.aligned_run r _ _

/-- The columns of the batches are as long as their spans. -/
theorem map_length_parts (seed : UInt64) (c : Column) :
    ((plan.parts r seed).map fun part => (part.column c).toList).map List.length
      = (batchSpans plan.trials batchCount).map Span.size := by
  apply List.ext_getElem?
  intro k
  rw [List.getElem?_map, List.getElem?_map, List.getElem?_map]
  cases hspan : (batchSpans plan.trials batchCount)[k]? with
  | none => simp [parts, hspan]
  | some span =>
    have hlength : ((plan.run r span.size (.substream seed k.toUInt64)).1.column c).size
        = span.size := by
      rw [(plan.aligned_run r _ _).size_column, size_run]
    simp [plan.getElem?_parts r hspan, hlength]

/-- A row of a batched run is a row of the batch in whose span it lies. -/
theorem column_batched {seed : UInt64} {k j : Nat} {span : Span}
    (hspan : (batchSpans plan.trials batchCount)[k]? = some span) (hj : span.Contains j)
    (c : Column) :
    ((plan.batched r seed).column c)[j]?
      = ((plan.run r span.size (.substream seed k.toUInt64)).1.column c)[j - span.start]? := by
  have htiles := tiles_batchSpans plan.trials (show 0 < batchCount by decide)
  have hrow := htiles.getElem?_flatten (plan.map_length_parts r seed c) hspan hj
  rw [List.getElem?_map, plan.getElem?_parts r hspan] at hrow
  rw [batched_eq_concat, ← Array.getElem?_toList, Ledger.column_concat, ← Array.getElem?_toList]
  exact hrow

theorem aligned_batched (seed : UInt64) : (plan.batched r seed).Aligned :=
  .concat fun _ hpart => plan.aligned_parts r hpart

theorem size_batched (seed : UInt64) : (plan.batched r seed).size = plan.trials := by
  have htiles := tiles_batchSpans plan.trials (show 0 < batchCount by decide)
  calc (plan.batched r seed).size
    _ = ((plan.batched r seed).column .tier).toList.length := rfl
    _ = ((batchSpans plan.trials batchCount).map Span.size).sum := by
        rw [batched_eq_concat, Ledger.column_concat, List.length_flatten, map_length_parts]
    _ = plan.trials := (Nat.zero_add _).symm.trans htiles.sum_size

end Plan

/-! ## The cells of a run -/

section Cells

variable {plan : Plan} {r : Request} {P : TrialResult → Prop}

/-- What every trial yields, every result of a trace has. -/
theorem Plan.of_mem_trace (h : Draw.Yields (plan.trial r) P) {count : ℕ} {g : Generator}
    {result : TrialResult} (hresult : result ∈ plan.trace r count g) : P result :=
  (h.times count g).2 result hresult

theorem Plan.exists_of_mem_column_run (h : Draw.Yields (plan.trial r) P) {count : ℕ}
    {g : Generator} {c : Column} {x : c.Cell} (hx : x ∈ (plan.run r count g).1.column c) :
    ∃ result, P result ∧ (plan.entry result).cell c = x := by
  rw [ledger_run, Ledger.column_ofEntries, List.mem_toArray, List.map_map, List.mem_map] at hx
  obtain ⟨result, hresult, hcell⟩ := hx
  exact ⟨result, of_mem_trace h hresult, hcell⟩

theorem Plan.exists_of_mem_column_batched (h : Draw.Yields (plan.trial r) P) {seed : UInt64}
    {c : Column} {x : c.Cell} (hx : x ∈ (plan.batched r seed).column c) :
    ∃ result, P result ∧ (plan.entry result).cell c = x := by
  rw [← Array.mem_toList_iff, batched_eq_concat, Ledger.column_concat, List.mem_flatten] at hx
  obtain ⟨cells, hcells, hx⟩ := hx
  obtain ⟨part, hpart, rfl⟩ := List.mem_map.mp hcells
  obtain ⟨k, hk, rfl⟩ := List.mem_mapIdx.mp hpart
  exact exists_of_mem_column_run h (Array.mem_toList_iff.mp hx)

namespace Runner

/-- A cell of a run is the cell of a result that has what every trial yields. -/
theorem exists_of_mem_column (runner : Runner) (h : Draw.Yields (plan.trial r) P) {seed : UInt64}
    {c : Column} {x : c.Cell} (hx : x ∈ (runner.run plan r seed).column c) :
    ∃ result, P result ∧ (plan.entry result).cell c = x := by
  cases runner with
  | sequential => exact Plan.exists_of_mem_column_run h hx
  | batched => exact Plan.exists_of_mem_column_batched h hx

theorem aligned_run (runner : Runner) (plan : Plan) (r : Request) (seed : UInt64) :
    (runner.run plan r seed).Aligned := by
  cases runner with
  | sequential => exact plan.aligned_run r _ _
  | batched => exact plan.aligned_batched r seed

theorem size_run (runner : Runner) (plan : Plan) (r : Request) (seed : UInt64) :
    (runner.run plan r seed).size = plan.trials := by
  cases runner with
  | sequential => exact plan.size_run r _ _
  | batched => exact plan.size_batched r seed

/-- All columns have a cell for each trial. -/
theorem size_column_run (runner : Runner) (plan : Plan) (r : Request) (seed : UInt64) (c : Column) :
    ((runner.run plan r seed).column c).size = plan.trials :=
  ((runner.aligned_run plan r seed).size_column c).trans (runner.size_run plan r seed)

end Runner

end Cells

/-! ## The outcome of a run -/

namespace Request

theorem validate_eq_ok_iff {r : Request} : r.validate = .ok () ↔ r.faults = [] := by
  rw [validate]
  cases r.faults <;> simp

/-- What comes of a request that has to be valid: the value, or the first fault. -/
theorem bind_validate {α : Type} (r : Request) (a : α) :
    (do r.validate; return a) = r.validate.map fun _ => a := by
  cases r.validate <;> rfl

theorem prepare_eq (r : Request) (prices : Prices) :
    Plan.prepare r prices = r.validate.map fun _ => .resolve r prices := r.bind_validate _

theorem prepare_eq_ok {r : Request} (h : r.faults = []) (prices : Prices) :
    Plan.prepare r prices = .ok (.resolve r prices) := by
  rw [prepare_eq, validate_eq_ok_iff.mpr h]
  rfl

section Outcomes

variable (r : Request) {machine : Machine} {runner : Runner} (prices : Prices) (entropy : UInt64)
  (moment : Timestamp)

/-- A run can fail in two steps, and nothing of its trials comes before both. -/
theorem run_eq :
    let seed := r.seed.getD entropy
    let ledger := runner.run (.resolve r prices) r seed
    r.run machine runner prices entropy moment
      = r.validate.bind fun _ => (machine.engage runner).map fun _ =>
        ⟨r.report ledger prices seed moment, ledger⟩ := by
  simp only [run, prepare_eq]
  cases r.validate <;> cases machine.engage runner <;> rfl

theorem run_eq_error_iff {e : SimulationError} :
    r.run machine runner prices entropy moment = .error e
      ↔ r.validate = .error e ∨ r.validate = .ok () ∧ machine.engage runner = .error e := by
  rw [run_eq]
  cases r.validate <;> cases machine.engage runner <;> simp [Except.bind, Except.map]

/-- Where the machine has the workers, a run fails as validation does. -/
theorem exists_run_eq (hserves : machine.Serves runner) :
    ∃ outcome, r.run machine runner prices entropy moment = r.validate.map fun _ => outcome := by
  let seed := r.seed.getD entropy
  let ledger := runner.run (.resolve r prices) r seed
  refine ⟨⟨r.report ledger prices seed moment, ledger⟩, ?_⟩
  rw [run_eq, Machine.engage_eq_ok_iff.mpr hserves]
  cases r.validate <;> rfl

end Outcomes

theorem run_eq_ok {r : Request} (h : r.faults = []) {machine : Machine} {runner : Runner}
    (hserves : machine.Serves runner) (prices : Prices) (entropy : UInt64) (moment : Timestamp) :
    let seed := r.seed.getD entropy
    let ledger := runner.run (.resolve r prices) r seed
    r.run machine runner prices entropy moment
      = .ok ⟨r.report ledger prices seed moment, ledger⟩ := by
  intro seed ledger
  rw [run_eq, validate_eq_ok_iff.mpr h, Machine.engage_eq_ok_iff.mpr hserves]
  rfl

/-- What has been run had its workers. -/
theorem serves_of_run_eq_ok {r : Request} {machine : Machine} {runner : Runner} {prices : Prices}
    {entropy : UInt64} {moment : Timestamp} {outcome : Run}
    (hrun : r.run machine runner prices entropy moment = .ok outcome) : machine.Serves runner := by
  rw [← Machine.engage_eq_ok_iff]
  rw [run_eq] at hrun
  cases hengage : machine.engage runner with
  | ok _ => rfl
  | error e => cases hvalid : r.validate <;> simp [hvalid, hengage, Except.bind, Except.map] at hrun

/-- Without workers nothing comes of a run. -/
theorem exists_run_eq_error {r : Request} {machine : Machine} {runner : Runner}
    (hserves : ¬ machine.Serves runner) (prices : Prices) (entropy : UInt64) (moment : Timestamp) :
    ∃ e, r.run machine runner prices entropy moment = .error e := by
  cases hrun : r.run machine runner prices entropy moment with
  | error e => exact ⟨e, rfl⟩
  | ok outcome => exact absurd (serves_of_run_eq_ok hrun) hserves

end Request

/-- A batched run refines the sequential loop. Where the machine has the workers for it, its ledger
is the concatenation of the ledgers that the loop makes for the thirty-two batches, each from its
own generator, and workers arrive at it whatever turns they take; row by row it holds the trial of
the batch in whose span the row lies. Batched or sequential, a run has exactly the trials that its
header tells. -/
theorem batched_run_refines_sequential (r : Request) (prices : Prices) (entropy : UInt64)
    (moment : Timestamp) (hvalid : r.faults = []) :
    let plan := Plan.resolve r prices
    let seed := r.seed.getD entropy
    let spans := batchSpans r.trials 32
    let loop (k : Nat) (span : Span) := (plan.run r span.size (.substream seed k.toUInt64)).1
    let whole := Ledger.concat (spans.mapIdx loop)
    (∀ (machine : Machine) (workers : UInt64), machine.Serves (.batched workers) →
      r.run machine (.batched workers) prices entropy moment
        = .ok ⟨r.report whole prices seed moment, whole⟩)
    ∧ spans.length = 32 ∧ Span.Tiles 0 spans r.trials
    ∧ (∀ c, (whole.column c).toList
        = ((spans.mapIdx loop).map fun part => (part.column c).toList).flatten)
    ∧ (∀ j < r.trials, ∃! k, ∃ span, spans[k]? = some span ∧ span.Contains j ∧
        ∀ c, (whole.column c)[j]? = ((loop k span).column c)[j - span.start]?)
    ∧ (∀ schedule : List Nat,
        (∀ k span, spans[k]? = some span → span.size ≤ schedule.count k) →
        Plan.collect (plan.work r (plan.jobs seed) schedule) = whole)
    ∧ (r.trials = clampIterations r.iterations ∧ 100 ≤ r.trials ∧ r.trials ≤ 20000)
    ∧ ∀ (machine : Machine) (runner : Runner), machine.Serves runner →
        ∃ outcome, r.run machine runner prices entropy moment = .ok outcome
          ∧ (∀ c, (outcome.ledger.column c).size = r.trials)
          ∧ outcome.ledger.size = r.trials ∧ outcome.ledger.tally.total = r.trials
          ∧ outcome.report.header.trials = r.trials
          ∧ outcome.report.header.effectiveSeed = seed := by
  intro plan seed spans loop whole
  have htiles : Span.Tiles 0 spans r.trials := tiles_batchSpans r.trials (by decide)
  have hmany : 100 ≤ r.trials := hundred_le_clampIterations r.iterations
  refine ⟨fun machine workers hserves => Request.run_eq_ok hvalid hserves prices entropy moment, ?_,
    htiles, Ledger.column_concat _, ?_, plan.collect_work r seed,
    ⟨rfl, hmany, clampIterations_le r.iterations⟩, ?_⟩
  · rw [length_batchSpans]
    omega
  · intro j hj
    obtain ⟨k, span, hspan, hcontains⟩ := htiles.exists_contains (Nat.zero_le j) hj
    refine ⟨k, ⟨span, hspan, hcontains, plan.column_batched r hspan hcontains⟩, ?_⟩
    rintro m ⟨other, hother, hj', -⟩
    exact htiles.contains_unique hother hspan hj' hcontains
  · intro machine runner hserves
    have hsize : (runner.run plan r seed).size = r.trials := runner.size_run plan r seed
    have haligned : (runner.run plan r seed).Aligned := runner.aligned_run plan r seed
    exact ⟨_, Request.run_eq_ok hvalid hserves prices entropy moment,
      fun c => (haligned.size_column c).trans hsize, hsize, haligned.total_tally.trans hsize, rfl,
      rfl⟩

/-- Two ships of three attack, with too many trials asked for, on a pool of four workers. -/
theorem batched_run_of_fleet :
    let r : Request :=
      { iterations := 50000, seed := some 7, attacker := { ships := 3 }, action := .naval 2 }
    let machine := Machine.withRoomFor 8
    r.faults = [] ∧ machine.Serves (.batched 4) ∧ (batchSpans 20000 32).length = 32
    ∧ ∃ outcome, r.run machine (.batched 4) {} 0 default = .ok outcome
      ∧ outcome.ledger.size = 20000 := by
  intro r machine
  have hvalid : r.faults = [] := by decide
  have hserves : machine.Serves (.batched 4) := by decide
  have h := batched_run_refines_sequential r {} 0 default hvalid
  obtain ⟨outcome, hrun, -, hsize, -⟩ := h.2.2.2.2.2.2.2 machine (.batched 4) hserves
  exact ⟨hvalid, hserves, h.2.1, outcome, hrun, hsize⟩

end BattleOdds
