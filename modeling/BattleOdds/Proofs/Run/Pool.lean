import BattleOdds.Proofs.Run.Trace

/-!
# Batches on a pool

A machine may have no workers for a run, and then the run fails with the reason. On a pool of
workers the trials of different batches interleave in any order. Each batch has its own generator
and its own ledger, and in each turn some worker draws and records one trial of one batch. The
invariant is where a batch ends up if it goes on alone: no turn changes that. So when all batches
are done, the ledgers that stand at their indices are those of an evaluation one after another.
-/
namespace BattleOdds

namespace Machine

/-- The machine has the workers that a runner needs: none for a sequential run, those at hand, or a
pool that it starts. -/
def Serves (machine : Machine) : Runner → Prop
  | .sequential => True
  | .batched workers => workers = 0 ∨ machine.startPool workers = .ok ()

instance (machine : Machine) : DecidablePred machine.Serves
  | .sequential => inferInstanceAs (Decidable True)
  | .batched workers =>
    inferInstanceAs (Decidable (workers = 0 ∨ machine.startPool workers = .ok ()))

variable {machine : Machine} {runner : Runner}

theorem serves_sequential (machine : Machine) : machine.Serves .sequential := trivial

theorem engage_eq_ok_iff : machine.engage runner = .ok () ↔ machine.Serves runner := by
  cases runner with
  | sequential => exact iff_of_true rfl trivial
  | batched workers =>
    by_cases hzero : workers = 0
    · simp [engage, Serves, hzero]
    · cases hstart : machine.startPool workers <;>
        simp [engage, Serves, hzero, hstart, Except.mapError]

/-- Only a pool that does not start is a reason to fail. -/
theorem engage_eq_error_iff {e : SimulationError} :
    machine.engage runner = .error e ↔ ∃ workers reason, runner = .batched workers ∧ workers ≠ 0
      ∧ machine.startPool workers = .error reason ∧ e = .workerPool reason := by
  cases runner with
  | sequential => simp [engage]
  | batched workers =>
    by_cases hzero : workers = 0
    · simp [engage, hzero]
    · cases hstart : machine.startPool workers <;>
        simp [engage, hzero, hstart, Except.mapError, eq_comm]

end Machine

/-- A batch at work: what it has recorded, its generator and how many trials it has left. -/
structure Job where
  ledger : Ledger
  generator : Generator
  left : Nat

namespace Job

variable (plan : Plan) (r : Request)

/-- One more trial of a batch, unless it is done. -/
def step (job : Job) : Job :=
  match job.left with
  | 0 => job
  | n + 1 =>
    let (result, g) := plan.trial r job.generator
    { ledger := plan.record job.ledger result, generator := g, left := n }

/-- The ledger of a batch when it has gone on to its end. -/
def outcome (job : Job) : Ledger := (plan.extend r job.ledger job.generator job.left).1

theorem outcome_step (job : Job) : (job.step plan r).outcome plan r = job.outcome plan r := by
  obtain ⟨ledger, g, left⟩ := job
  cases left <;> rfl

theorem left_step (job : Job) : (job.step plan r).left = job.left - 1 := by
  obtain ⟨ledger, g, left⟩ := job
  cases left <;> rfl

theorem outcome_of_done {job : Job} (h : job.left = 0) : job.outcome plan r = job.ledger := by
  rw [outcome, h]
  rfl

end Job

namespace Plan

variable (plan : Plan) (r : Request)

/-- The batches of a run before their first turns. -/
def jobs (seed : UInt64) : List Job :=
  (batchSpans plan.trials batchCount).mapIdx fun index span =>
    { ledger := .withCapacity span.size
      generator := .substream seed index.toUInt64
      left := span.size }

/-- The batches after a number of turns. A schedule says which batch each turn is for. -/
def work (jobs : List Job) (schedule : List Nat) : List Job :=
  schedule.foldl (fun jobs batch => jobs.modify batch (Job.step plan r)) jobs

theorem work_cons (jobs : List Job) (batch : Nat) (schedule : List Nat) :
    plan.work r jobs (batch :: schedule)
      = plan.work r (jobs.modify batch (Job.step plan r)) schedule := rfl

/-- No turn changes where the batches end up. -/
theorem map_outcome_work (jobs : List Job) (schedule : List Nat) :
    (plan.work r jobs schedule).map (Job.outcome plan r) = jobs.map (Job.outcome plan r) := by
  induction schedule generalizing jobs with
  | nil => rfl
  | cons batch schedule ih =>
    rw [work_cons, ih]
    apply List.ext_getElem?
    intro k
    rw [List.getElem?_map, List.getElem?_map, List.getElem?_modify]
    by_cases h : batch = k
    · cases jobs[k]? <;> simp [h, Job.outcome_step]
    · cases jobs[k]? <;> simp [h]

/-- A batch has as many trials less to do as it has had turns. -/
theorem left_work (jobs : List Job) (schedule : List Nat) (k : Nat) :
    ((plan.work r jobs schedule)[k]?).map Job.left
      = (jobs[k]?).map fun job => job.left - schedule.count k := by
  induction schedule generalizing jobs with
  | nil => simp [work]
  | cons batch schedule ih =>
    rw [work_cons, ih, List.getElem?_modify]
    by_cases h : batch = k
    · cases jobs[k]? <;> simp [h, Job.left_step]
      omega
    · cases jobs[k]? <;> simp [h]

/-- The ledgers of the batches, merged in the order of their indices. -/
def collect (jobs : List Job) : Ledger := .concat (jobs.map Job.ledger)

theorem map_outcome_jobs (seed : UInt64) :
    (plan.jobs seed).map (Job.outcome plan r)
      = (batchSpans plan.trials batchCount).mapIdx (plan.batch r seed) := by
  apply List.ext_getElem?
  intro k
  rw [jobs, List.getElem?_map, List.getElem?_mapIdx, List.getElem?_mapIdx, Option.map_map]
  rfl

/-- Any schedule that gives each batch as many turns as it has trials ends in the same ledger. -/
theorem collect_work (seed : UInt64) (schedule : List Nat)
    (h : ∀ k span, (batchSpans plan.trials batchCount)[k]? = some span →
      span.size ≤ schedule.count k) :
    collect (plan.work r (plan.jobs seed) schedule) = plan.batched r seed := by
  have hdone : ∀ job ∈ plan.work r (plan.jobs seed) schedule, job.left = 0 := by
    intro job hjob
    obtain ⟨k, hk⟩ := List.getElem?_of_mem hjob
    have hleft := plan.left_work r (plan.jobs seed) schedule k
    rw [hk, jobs, List.getElem?_mapIdx] at hleft
    cases hspan : (batchSpans plan.trials batchCount)[k]? with
    | none => simp [hspan] at hleft
    | some span =>
      have hturns := h k span hspan
      simp [hspan] at hleft
      omega
  have houtcomes : (plan.work r (plan.jobs seed) schedule).map Job.ledger
      = (batchSpans plan.trials batchCount).mapIdx (plan.batch r seed) := by
    rw [← map_outcome_jobs, ← map_outcome_work plan r (plan.jobs seed) schedule]
    apply List.map_congr_left
    intro job hjob
    exact (Job.outcome_of_done plan r (hdone job hjob)).symm
  rw [collect, houtcomes]
  rfl

end Plan
end BattleOdds
