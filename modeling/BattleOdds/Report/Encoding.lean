import BattleOdds.Document.Encoding
import BattleOdds.Factors
import BattleOdds.Report

/-!
# Reports as JSON

The JSON value of a report, and those of the factors and the trial results that it rests on.
-/
namespace BattleOdds

open Json

def Factors.toJson (f : Factors) : Json :=
  .record
    [("infra_factor", .figure f.infraFactor), ("loot_factor", .figure f.lootFactor),
      ("attacker_loot_policy", .figure f.attackerLootPolicy),
      ("defender_loot_policy", .figure f.defenderLootPolicy),
      ("attacker_infra_policy", .figure f.attackerInfraPolicy),
      ("defender_infra_policy", .figure f.defenderInfraPolicy),
      ("attacker_blitz", .figure f.attackerBlitz), ("defender_blitz", .figure f.defenderBlitz),
      ("attacker_tank_strength", .figure f.attackerTankStrength),
      ("defender_tank_strength", .figure f.defenderTankStrength),
      ("attacker_casualty", .figure f.attackerCasualty),
      ("defender_casualty", .figure f.defenderCasualty)]

def UnitLosses.toJson (l : UnitLosses) : Json :=
  .record
    [("soldiers", .figure l.soldiers), ("tanks", .figure l.tanks),
      ("aircraft", .figure l.aircraft), ("ships", .figure l.ships)]

def TrialResult.toJson (t : TrialResult) : Json :=
  .record
    [("tier", .integer t.roundsWon), ("attacker_losses", t.attackerLosses.toJson),
      ("defender_losses", t.defenderLosses.toJson), ("infra_destroyed", .figure t.infraDestroyed),
      ("money_looted", optional .figure t.moneyLooted),
      ("money_destroyed", optional .figure t.moneyDestroyed),
      ("improvement_destroy_chance", optional .figure t.improvementChance)]

def Summary.toJson (s : Summary) : Json :=
  .record
    [("min", .figure s.min), ("p5", .figure s.p5), ("p25", .figure s.p25), ("p50", .figure s.p50),
      ("p75", .figure s.p75), ("p95", .figure s.p95), ("mean", .figure s.mean),
      ("max", .figure s.max)]

def Odds.toJson (o : Odds) : Json :=
  .record
    [("IT", .figure o.decisive), ("MS", .figure o.moderate), ("PV", .figure o.pyrrhic),
      ("UF", .figure o.failure)]

def LossSummaries.toJson (l : LossSummaries) : Json :=
  .record
    [("soldiers", l.soldiers.toJson), ("tanks", l.tanks.toJson), ("aircraft", l.aircraft.toJson),
      ("ships", l.ships.toJson)]

def ConsumptionSummaries.toJson (c : ConsumptionSummaries) : Json :=
  .record [("gasoline", c.gasoline.toJson), ("munitions", c.munitions.toJson)]

def CostSummaries.toJson (c : CostSummaries) : Json :=
  .record
    [("consumables_value", c.consumablesValue.toJson),
      ("unit_losses_value", c.unitLossesValue.toJson),
      ("infra_value", optional Summary.toJson c.infraValue),
      ("total_value", c.totalValue.toJson)]

def Metrics.toJson (m : Metrics) : Json :=
  .record
    [("attacker_losses", m.attackerLosses.toJson), ("defender_losses", m.defenderLosses.toJson),
      ("infra_destroyed", m.infraDestroyed.toJson),
      ("money_looted", optional Summary.toJson m.moneyLooted),
      ("money_destroyed", optional Summary.toJson m.moneyDestroyed),
      ("resources_consumed_attacker", m.attackerConsumption.toJson),
      ("resources_consumed_defender", m.defenderConsumption.toJson),
      ("cost_estimates", m.attackerCosts.toJson),
      ("cost_estimates_defender", m.defenderCosts.toJson),
      ("improvement_destroy_chance", optional Summary.toJson m.improvementChance)]

def ReportHeader.toJson (h : ReportHeader) : Json :=
  .record
    [("iterations", .integer h.trials), ("seed", optional whole h.seed),
      ("effective_seed", whole h.effectiveSeed), ("action", tag h.action),
      ("generated_at", .text h.generatedAt), ("prices", h.prices.toJson)]

def Report.toJson (r : Report) : Json :=
  .record
    [("meta", r.header.toJson), ("outcomes", .record [("probabilities", r.odds.toJson)]),
      ("metrics", r.metrics.toJson),
      ("assumptions", .list (r.assumptions.map fun a => .text a.text))]

end BattleOdds
