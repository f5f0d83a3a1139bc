import BattleOdds.Ledger
import BattleOdds.Report.Assumptions
import BattleOdds.Summary
import BattleOdds.Timestamp
import BattleOdds.Whole

/-!
# Reports

A report gives the odds of each tier and summarises every figure of a ledger. The metrics depend on
the ledger alone; the rest of the report says what was asked, when and at which prices.
-/
namespace BattleOdds

/-- The share of the trials in each tier, in percent. -/
structure Odds where
  decisive : Binary64 := 0.0
  moderate : Binary64 := 0.0
  pyrrhic : Binary64 := 0.0
  failure : Binary64 := 0.0
deriving DecidableEq, Inhabited

namespace Odds

/-- A count as a share of a total, in percent. -/
def share (count total : Nat) : Binary64 :=
  Binary64.ofNat count * 100.0 / Binary64.ofNat total

/-- The odds of a tally; those of no trials are all zero. The total counts as a word. -/
def ofTally (t : Tally) : Odds :=
  let total := t.total % wordCount 64
  if total = 0 then {}
  else
    { decisive := share t.decisive total
      moderate := share t.moderate total
      pyrrhic := share t.pyrrhic total
      failure := share t.failure total }

/-- The sum of the four shares. -/
def total (o : Odds) : Binary64 := o.decisive + o.moderate + o.pyrrhic + o.failure

end Odds

/-- Summaries of the units that one side lost. -/
structure LossSummaries where
  soldiers : Summary
  tanks : Summary
  aircraft : Summary
  ships : Summary
deriving DecidableEq

/-- Summaries of what one side used up. -/
structure ConsumptionSummaries where
  gasoline : Summary
  munitions : Summary
deriving DecidableEq

/-- Summaries of what the action cost one side. Infrastructure is not valued. -/
structure CostSummaries where
  consumablesValue : Summary
  unitLossesValue : Summary
  infraValue : Option Summary := none
  totalValue : Summary
deriving DecidableEq

/-- Summaries of all figures of a ledger. -/
structure Metrics where
  attackerLosses : LossSummaries
  defenderLosses : LossSummaries
  infraDestroyed : Summary
  moneyLooted : Option Summary
  moneyDestroyed : Option Summary
  attackerConsumption : ConsumptionSummaries
  defenderConsumption : ConsumptionSummaries
  attackerCosts : CostSummaries
  defenderCosts : CostSummaries
  improvementChance : Option Summary
deriving DecidableEq

namespace SideColumns

def losses (c : SideColumns) : LossSummaries where
  soldiers := .ofSamples c.soldiers.toList
  tanks := .ofSamples c.tanks.toList
  aircraft := .ofSamples c.aircraft.toList
  ships := .ofSamples c.ships.toList

def consumption (c : SideColumns) : ConsumptionSummaries where
  gasoline := .ofSamples c.gasoline.toList
  munitions := .ofSamples c.munitions.toList

def costs (c : SideColumns) : CostSummaries where
  consumablesValue := .ofSamples c.usageValue.toList
  unitLossesValue := .ofSamples c.lossesValue.toList
  totalValue := .ofSamples c.totalValue.toList

end SideColumns

namespace Ledger

/-- Summaries of all figures. -/
def metrics (l : Ledger) : Metrics where
  attackerLosses := l.attacker.losses
  defenderLosses := l.defender.losses
  infraDestroyed := .ofSamples l.infraDestroyed.toList
  moneyLooted := Summary.ofPresent? l.moneyLooted.toList
  moneyDestroyed := Summary.ofPresent? l.moneyDestroyed.toList
  attackerConsumption := l.attacker.consumption
  defenderConsumption := l.defender.consumption
  attackerCosts := l.attacker.costs
  defenderCosts := l.defender.costs
  improvementChance := Summary.ofPresent? l.improvementChance.toList

/-- The odds of each tier. -/
def odds (l : Ledger) : Odds := .ofTally l.tally

end Ledger

/-- What a report was made for. -/
structure ReportHeader where
  trials : Nat
  /-- The seed of the request, if it names one. -/
  seed : Option UInt64
  /-- The seed that the draws started from. -/
  effectiveSeed : UInt64
  action : ActionKind
  generatedAt : String
  prices : Prices
deriving DecidableEq

/-- The answer to a request. -/
structure Report where
  header : ReportHeader
  odds : Odds
  metrics : Metrics
  assumptions : List Assumption
deriving DecidableEq

/-- The report on a finished ledger. -/
def Request.report (r : Request) (ledger : Ledger) (prices : Prices) (effectiveSeed : UInt64)
    (moment : Timestamp) : Report where
  header :=
    { trials := r.trials
      seed := r.seed
      effectiveSeed := effectiveSeed
      action := r.action.kind
      generatedAt := moment.text
      prices := prices }
  odds := ledger.odds
  metrics := ledger.metrics
  assumptions := r.assumptions

end BattleOdds
