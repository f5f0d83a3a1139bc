import BattleOdds.Batches
import BattleOdds.Report
import BattleOdds.Trial.Action

/-!
# Runs

A run prepares a plan from a valid request, tries the action again and again and records each trial.
A sequential run draws all its trials from one generator. A batched run cuts them into `batchCount`
ranges, each with a generator of its own, and appends the ledgers of the ranges in order. For the
ranges it needs workers, which the machine may refuse; then nothing comes of the run.
-/
namespace BattleOdds

/-- What stays the same in every trial of a run. -/
structure Plan where
  trials : Nat
  factors : Factors
  unitValues : UnitValues
  attackerCosts : SideCosts
  defenderCosts : SideCosts
deriving DecidableEq

namespace Plan

/-- The plan of a request at given prices. -/
def resolve (r : Request) (prices : Prices) : Plan where
  trials := r.trials
  factors := .resolve r.context r.defender.isFortified
  unitValues := .atPrices prices
  attackerCosts := r.action.attackerConsumption.costs prices
  defenderCosts := (r.action.defenderConsumption r.defender).costs prices

/-- The plan of a request that has no faults. -/
def prepare (r : Request) (prices : Prices) : Except SimulationError Plan := do
  r.validate
  return resolve r prices

/-- Draws one trial of a request under a plan. -/
def trial (plan : Plan) (r : Request) : Draw TrialResult :=
  r.action.trial r.defender r.context plan.factors

/-- Records a trial at the values and the costs of a plan. -/
def record (plan : Plan) (ledger : Ledger) (result : TrialResult) : Ledger :=
  ledger.record result (plan.unitValues.lossesValue result.attackerLosses)
    (plan.unitValues.lossesValue result.defenderLosses) plan.attackerCosts plan.defenderCosts

/-- Records a number of further trials in a ledger. -/
def extend (plan : Plan) (r : Request) (ledger : Ledger) (g : Generator) : Nat → Ledger × Generator
  | 0 => (ledger, g)
  | n + 1 =>
    let (result, g) := plan.trial r g
    plan.extend r (plan.record ledger result) g n

/-- A number of trials from a generator, and the generator that is left. -/
def run (plan : Plan) (r : Request) (count : Nat) (g : Generator) : Ledger × Generator :=
  plan.extend r (.withCapacity count) g count

/-- The trials of a sequential run. -/
def sequential (plan : Plan) (r : Request) (seed : UInt64) : Ledger :=
  (plan.run r plan.trials (.ofSeed seed)).1

/-- The trials of one batch, drawn from the batch's own generator. -/
def batch (plan : Plan) (r : Request) (seed : UInt64) (index : Nat) (span : Span) : Ledger :=
  (plan.run r span.size (.substream seed index.toUInt64)).1

/-- The trials of a batched run. -/
def batched (plan : Plan) (r : Request) (seed : UInt64) : Ledger :=
  ((batchSpans plan.trials batchCount).mapIdx (plan.batch r seed)).foldl (· ++ ·) .empty

end Plan

/-- How the trials of a run are drawn. -/
inductive Runner
  | sequential
  /-- The batches are shared by a number of workers; 0 stands for those that the machine has. -/
  | batched (workers : UInt64)
deriving DecidableEq

/-- The trials of a run. -/
def Runner.run (runner : Runner) (plan : Plan) (r : Request) (seed : UInt64) : Ledger :=
  match runner with
  | .sequential => plan.sequential r seed
  | .batched _ => plan.batched r seed

/-- The machine that runs are made on. -/
structure Machine where
  /-- Starts a pool of a number of workers, or says in its own words why it cannot. -/
  startPool : UInt64 → Except String Unit

namespace Machine

/-- A machine that has room for so many workers in a pool. -/
def withRoomFor (limit : UInt64) : Machine where
  startPool workers :=
    if workers ≤ limit then .ok ()
    else .error "Resource temporarily unavailable (os error 11)"

/-- Gets a runner its workers. No pool is started for a sequential run, or where the machine is to
use the workers that it has. -/
def engage (machine : Machine) : Runner → Except SimulationError Unit
  | .sequential => .ok ()
  | .batched workers =>
    if workers = 0 then .ok () else (machine.startPool workers).mapError .workerPool

end Machine

/-- The settings of runs, which a user keeps between them. -/
structure Settings where
  prices : Prices := {}
  /-- Whether runs are batched. -/
  parallel : Bool := false
  /-- How many workers share a batched run; 0 leaves it to the machine. -/
  workers : UInt64 := 0
deriving DecidableEq, Inhabited

/-- How trials are run at the settings. -/
def Settings.runner (settings : Settings) : Runner :=
  if settings.parallel then .batched settings.workers else .sequential

/-- The outcome of a run. -/
structure Run where
  report : Report
  ledger : Ledger
deriving DecidableEq

/-- Runs a request on a machine. A request without a seed takes the one that is given. The machine
is asked for workers only where the request is valid. -/
def Request.run (r : Request) (machine : Machine) (runner : Runner) (prices : Prices)
    (entropy : UInt64) (moment : Timestamp) : Except SimulationError Run := do
  let plan ← Plan.prepare r prices
  let seed := r.seed.getD entropy
  machine.engage runner
  let ledger := runner.run plan r seed
  return { report := r.report ledger prices seed moment, ledger }

end BattleOdds
