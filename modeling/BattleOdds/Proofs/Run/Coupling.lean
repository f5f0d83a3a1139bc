import BattleOdds.Proofs.Run.Batched
import BattleOdds.Proofs.Trial.Dependence

/-!
# Coupled runs

Two plans whose trials stay in lockstep draw the same words in every place of a run, so their traces
are related trial by trial from any generator on. A sequential run is one trace and a batched run
one for each batch, from the same generators for both plans. So what related results imply for the
cells of a column holds row by row under either runner.
-/
namespace BattleOdds

variable {plan plan' : Plan} {r s : Request} {R : TrialResult → TrialResult → Prop}

/-- From any generator on the traces of two plans are related trial by trial. -/
def Plan.Coupled (R : TrialResult → TrialResult → Prop) (plan plan' : Plan) (r s : Request) :
    Prop :=
  ∀ count g, List.Forall₂ R (plan.trace r count g) (plan'.trace s count g)

theorem Plan.Coupled.of_lockstep (h : Draw.Lockstep R (plan.trial r) (plan'.trial s)) :
    plan.Coupled R plan' r s := fun count g => (h.times count g).1

section Columns

variable {c : Column} {S : c.Cell → c.Cell → Prop}
variable (h : plan.Coupled R plan' r s)
variable (hcell : ∀ x y, R x y → S ((plan.entry x).cell c) ((plan'.entry y).cell c))
include h hcell

namespace Plan

theorem Coupled.column_run (count : ℕ) (g : Generator) :
    List.Forall₂ S ((plan.run r count g).1.column c).toList
      ((plan'.run s count g).1.column c).toList := by
  rw [ledger_run, ledger_run, Ledger.column_ofEntries, Ledger.column_ofEntries, List.map_map,
    List.map_map, List.forall₂_map_left_iff, List.forall₂_map_right_iff]
  exact (h count g).imp hcell

/-- The batches of both runs have the same spans and the same generators. -/
theorem Coupled.column_batched (htrials : plan.trials = plan'.trials) (seed : UInt64) :
    List.Forall₂ S ((plan.batched r seed).column c).toList
      ((plan'.batched s seed).column c).toList := by
  rw [batched_eq_concat, batched_eq_concat, Ledger.column_concat, Ledger.column_concat]
  refine List.rel_flatten ?_
  rw [List.forall₂_map_left_iff, List.forall₂_map_right_iff, parts, parts, ← htrials]
  rw [List.forall₂_iff_get]
  refine ⟨by simp, fun k hk hk' => ?_⟩
  simp only [List.get_eq_getElem, List.getElem_mapIdx]
  exact h.column_run hcell _ _

end Plan

theorem Runner.column_run (runner : Runner) (htrials : plan.trials = plan'.trials)
    (seed : UInt64) :
    List.Forall₂ S ((runner.run plan r seed).column c).toList
      ((runner.run plan' s seed).column c).toList := by
  cases runner with
  | sequential =>
    simp only [Runner.run, Plan.sequential, ← htrials]
    exact h.column_run hcell _ _
  | batched => exact h.column_batched hcell htrials seed

end Columns

section Functions

variable {c : Column} (h : plan.Coupled R plan' r s) (runner : Runner)
variable (htrials : plan.trials = plan'.trials) (seed : UInt64)
include h htrials

/-- Where the cells of one run are a function of those of the other, so is the column. -/
theorem Runner.column_run_map {f : c.Cell → c.Cell}
    (hcell : ∀ x y, R x y → f ((plan.entry x).cell c) = (plan'.entry y).cell c) :
    ((runner.run plan r seed).column c).map f = (runner.run plan' s seed).column c := by
  have hrows : List.Forall₂ (fun a b => f a = b) ((runner.run plan r seed).column c).toList
      ((runner.run plan' s seed).column c).toList :=
    runner.column_run h hcell htrials seed
  have hmap := List.forall₂_map_left_iff.mpr hrows
  rw [List.forall₂_eq_eq_eq, ← Array.toList_map] at hmap
  exact Array.toList_inj.mp hmap

theorem Runner.column_run_eq
    (hcell : ∀ x y, R x y → (plan.entry x).cell c = (plan'.entry y).cell c) :
    (runner.run plan r seed).column c = (runner.run plan' s seed).column c := by
  have hmap := runner.column_run_map (f := id) h htrials seed hcell
  rwa [Array.map_id] at hmap

end Functions

end BattleOdds
