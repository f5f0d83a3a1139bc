import BattleOdds.Proofs.Draw
import BattleOdds.Proofs.Ledger.Assembly
import BattleOdds.Run

/-!
# The trace of a run

A run records the results of its trials in the order in which they are drawn. So its ledger is the
ledger of a trace, the list of these results, and what holds of a run is an induction over its
trace.
-/
namespace BattleOdds

namespace Plan

variable (plan : Plan) (r : Request)

/-- What is recorded of a result. -/
def entry (result : TrialResult) : Entry where
  result := result
  attackerLossesValue := plan.unitValues.lossesValue result.attackerLosses
  defenderLossesValue := plan.unitValues.lossesValue result.defenderLosses
  attackerCosts := plan.attackerCosts
  defenderCosts := plan.defenderCosts

theorem record_eq_push (l : Ledger) (result : TrialResult) :
    plan.record l result = l.push (plan.entry result) := rfl

/-- The results of a number of trials from a generator. -/
def trace (count : Nat) (g : Generator) : List TrialResult := (Draw.times (plan.trial r) count g).1

@[simp] theorem length_trace (count : Nat) (g : Generator) :
    (plan.trace r count g).length = count := Draw.length_times _ count g

theorem trace_succ (count : Nat) (g : Generator) :
    plan.trace r (count + 1) g
      = (plan.trial r g).1 :: plan.trace r count (plan.trial r g).2 := rfl

theorem extend_succ (l : Ledger) (g : Generator) (n : Nat) :
    plan.extend r l g (n + 1)
      = plan.extend r (plan.record l (plan.trial r g).1) (plan.trial r g).2 n := rfl

/-- A run adds the entries of its trace. -/
theorem ledger_extend (l : Ledger) (g : Generator) (n : Nat) :
    (plan.extend r l g n).1 = ((plan.trace r n g).map plan.entry).foldl Ledger.push l := by
  induction n generalizing l g with
  | zero => rfl
  | succ n ih =>
    rw [extend_succ, ih, trace_succ, List.map_cons, List.foldl_cons, record_eq_push]

theorem ledger_run (count : Nat) (g : Generator) :
    (plan.run r count g).1 = .ofEntries ((plan.trace r count g).map plan.entry) :=
  plan.ledger_extend r (.withCapacity count) g count

/-- A run leaves the generator that its trials leave. -/
theorem generator_extend (l : Ledger) (g : Generator) (n : Nat) :
    (plan.extend r l g n).2 = (Draw.times (plan.trial r) n g).2 := by
  induction n generalizing l g with
  | zero => rfl
  | succ n ih => rw [extend_succ, ih, Draw.times_succ]

theorem generator_run (count : Nat) (g : Generator) :
    (plan.run r count g).2 = (Draw.times (plan.trial r) count g).2 :=
  plan.generator_extend r (.withCapacity count) g count

theorem run_eq (count : Nat) (g : Generator) :
    plan.run r count g = (.ofEntries ((plan.trace r count g).map plan.entry),
      (Draw.times (plan.trial r) count g).2) :=
  Prod.ext (plan.ledger_run r count g) (plan.generator_run r count g)

end Plan

end BattleOdds
