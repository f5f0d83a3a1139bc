import BattleOdds.Trial

/-!
# Valuation

Gasoline and munitions are used in proportion to the units that take the field, so a run uses the
same amounts in every trial. Lost units are valued at a base cost and the steel or aluminum in them.
-/
namespace BattleOdds

/-- Market prices. -/
structure Prices where
  gasoline : Binary64 := 3000.0
  munitions : Binary64 := 2000.0
  steel : Binary64 := 3500.0
  aluminum : Binary64 := 2500.0
deriving DecidableEq, Inhabited

/-- The four prices. -/
def Prices.figures (p : Prices) : List Binary64 := [p.gasoline, p.munitions, p.steel, p.aluminum]

/-- What one side uses up in a trial. -/
structure Consumption where
  gasoline : Binary64 := 0.0
  munitions : Binary64 := 0.0
deriving DecidableEq, Inhabited

def Consumption.value (c : Consumption) (prices : Prices) : Binary64 :=
  c.gasoline * prices.gasoline + c.munitions * prices.munitions

/-- What it costs to replace a unit of each type. -/
structure UnitValues where
  soldier : Binary64
  tank : Binary64
  aircraft : Binary64
  ship : Binary64
deriving DecidableEq, Inhabited

namespace UnitValues

def atPrices (prices : Prices) : UnitValues where
  soldier := 5.0
  tank := 60.0 + 0.5 * prices.steel
  aircraft := 4000.0 + 5.0 * prices.aluminum
  ship := 50000.0 + 30.0 * prices.steel

/-- What it costs to replace the lost units. -/
def lossesValue (values : UnitValues) (losses : UnitLosses) : Binary64 :=
  losses.soldiers * values.soldier + losses.tanks * values.tank
    + losses.aircraft * values.aircraft + losses.ships * values.ship

end UnitValues

namespace Consumption

/-- Tanks burn gasoline and fire munitions in equal amounts, on top of what soldiers fire. -/
def ground (tanks : UInt64) (soldierMunitions : Binary64) : Consumption :=
  let perTanks := Binary64.ofUInt64 tanks * 0.01
  { gasoline := perTanks, munitions := soldierMunitions + perTanks }

def air (aircraft : UInt64) : Consumption :=
  let amount := Binary64.ofUInt64 aircraft * 0.25
  { gasoline := amount, munitions := amount }

def naval (ships : UInt64) : Consumption where
  gasoline := Binary64.ofUInt64 ships * 2.0
  munitions := Binary64.ofUInt64 ships * 3.0

/-- The munitions that armed soldiers fire. -/
def soldierMunitions (soldiers : UInt64) : Binary64 := Binary64.ofUInt64 soldiers * 0.0002

end Consumption

namespace Action

/-- What the attacker uses up. -/
def attackerConsumption : Action → Consumption
  | .ground soldiers tanks armed =>
    .ground tanks (if armed then Consumption.soldierMunitions soldiers else 0.0)
  | .air aircraft _ => .air aircraft
  | .naval ships => .naval ships

/-- What the defender uses up: it fields all it has of the arm, and its soldiers are armed. -/
def defenderConsumption (action : Action) (defender : Profile) : Consumption :=
  match action with
  | .ground .. => .ground defender.tanks (Consumption.soldierMunitions defender.soldiers)
  | .air .. => .air defender.aircraft
  | .naval .. => .naval defender.ships

end Action

/-- The part of a side's costs that is the same in every trial of a run. -/
structure SideCosts where
  usage : Consumption
  usageValue : Binary64
deriving DecidableEq, Inhabited

/-- The costs of using something up at given prices. -/
def Consumption.costs (usage : Consumption) (prices : Prices) : SideCosts :=
  { usage, usageValue := usage.value prices }

end BattleOdds
