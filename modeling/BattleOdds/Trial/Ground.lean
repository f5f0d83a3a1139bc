import BattleOdds.Factors
import BattleOdds.Trial

/-!
# Ground battles

Each side fields soldiers and tanks. A round rolls all four forces; the side with the greater sum
wins it, and both lose units in proportion to the opposing rolls. After three rounds a winning
attacker damages infrastructure, loots money and may destroy an improvement, and with ground control
its tanks destroy aircraft on the ground.
-/
namespace BattleOdds

/-- The attacker's part in a ground battle. -/
structure GroundOrder where
  soldiers : UInt64
  tanks : UInt64
  armed : Bool
deriving DecidableEq

/-- The strengths that a ground battle rolls, and the soldiers that oppose the attacker. -/
structure GroundForces where
  attackerSoldiers : Binary64
  attackerTanks : Binary64
  defenderSoldiers : Binary64
  defenderTanks : Binary64
  /-- The defending soldiers with one more for every 400 residents of the largest city. -/
  effectiveDefenders : Binary64
deriving DecidableEq

/-- The strength of an attacking soldier, with munitions or without. -/
def soldierStrength (armed : Bool) : Binary64 := if armed then 1.75 else 1.0

/-- The strength of a tank before factors. -/
def tankStrength : Binary64 := 40.0

namespace GroundForces

def muster (order : GroundOrder) (defender : Profile) (factors : Factors) : GroundForces :=
  let effective :=
    Binary64.ofUInt64 defender.soldiers + defender.highestCityPopulation.max 0.0 / 400.0
  { attackerSoldiers := Binary64.ofUInt64 order.soldiers * soldierStrength order.armed
    attackerTanks := Binary64.ofUInt64 order.tanks * tankStrength * factors.attackerTankStrength
    defenderSoldiers := effective * soldierStrength true
    defenderTanks := Binary64.ofUInt64 defender.tanks * tankStrength * factors.defenderTankStrength
    effectiveDefenders := effective }

end GroundForces

/-- The rolls of one round. -/
structure GroundRolls where
  attackerSoldiers : Binary64
  defenderSoldiers : Binary64
  attackerTanks : Binary64
  defenderTanks : Binary64
deriving DecidableEq

/-- Rolls the soldiers of both sides, then the tanks. -/
def GroundForces.roll (forces : GroundForces) : Draw GroundRolls := do
  let attackerSoldiers ← Draw.forceRoll forces.attackerSoldiers
  let defenderSoldiers ← Draw.forceRoll forces.defenderSoldiers
  let attackerTanks ← Draw.forceRoll forces.attackerTanks
  let defenderTanks ← Draw.forceRoll forces.defenderTanks
  return { attackerSoldiers, defenderSoldiers, attackerTanks, defenderTanks }

/-- Losses of one arm per point of the opposing rolls. -/
structure GroundLossRates where
  perSoldierRoll : Binary64
  perTankRoll : Binary64

/-- The loss that a pair of opposing rolls causes. -/
def GroundLossRates.loss (rates : GroundLossRates) (soldierRoll tankRoll : Binary64) : Binary64 :=
  soldierRoll * rates.perSoldierRoll + tankRoll * rates.perTankRoll

def soldierLossRates : GroundLossRates := ⟨0.0084, 0.0092⟩

/-- Tanks are lost at a lower rate by the winner of a round. -/
def tankLossRates (won : Bool) : GroundLossRates :=
  if won then ⟨0.0004060606, 0.00066666666⟩ else ⟨0.00043225806, 0.00070967741⟩

namespace GroundRolls

/-- A round is won by the greater sum; a tie is the defender's. -/
def attackerWon (r : GroundRolls) : Bool :=
  r.defenderSoldiers + r.defenderTanks < r.attackerSoldiers + r.attackerTanks

end GroundRolls

/-- The losses of both sides over the rounds fought so far. -/
structure GroundToll where
  attackerSoldiers : Binary64 := 0.0
  attackerTanks : Binary64 := 0.0
  defenderSoldiers : Binary64 := 0.0
  defenderTanks : Binary64 := 0.0
deriving DecidableEq

/-- Adds the losses of a round. -/
def GroundToll.add (toll : GroundToll) (r : GroundRolls) : GroundToll where
  attackerSoldiers :=
    toll.attackerSoldiers + soldierLossRates.loss r.defenderSoldiers r.defenderTanks
  attackerTanks :=
    toll.attackerTanks + (tankLossRates r.attackerWon).loss r.defenderSoldiers r.defenderTanks
  defenderSoldiers :=
    toll.defenderSoldiers + soldierLossRates.loss r.attackerSoldiers r.attackerTanks
  defenderTanks :=
    toll.defenderTanks + (tankLossRates !r.attackerWon).loss r.attackerSoldiers r.attackerTanks

/-- Defending aircraft destroyed by each attacking tank that holds the ground. -/
def groundControlRate : Nat → Binary64
  | 3 => 0.005025
  | 2 => 0.00335
  | 1 => 0.001675
  | _ => 0.0

/-- What the attackers exert beyond half of the defenders, soldiers and tanks together. -/
def groundPressure (order : GroundOrder) (defender : Profile) (forces : GroundForces) : Binary64 :=
  netForce order.soldiers forces.effectiveDefenders * 0.000606061
    + netForce order.tanks (Binary64.ofUInt64 defender.tanks) * 0.01

/-- The infrastructure destroyed in a battle with some rounds won, for a drawn variance. -/
def groundInfra (order : GroundOrder) (defender : Profile) (forces : GroundForces)
    (factors : Factors) (won : Nat) (variance : Binary64) : Binary64 :=
  let raw := groundPressure order defender forces * variance * tierFraction won
  capped raw (infraCap 0.2 25.0 defender) * factors.infraMultiplier

/-- The most that can be looted from known cash: three quarters of it, and all but a million. -/
def lootCap (cash : Binary64) : Binary64 := (0.75 * cash).min (cash - 1000000.0)

/-- The loot before the defender's cash limits it. -/
def rawLoot (order : GroundOrder) (factors : Factors) (won : Nat) (variance : Binary64) :
    Binary64 :=
  let base := Binary64.ofUInt64 order.soldiers * 1.1 + Binary64.ofUInt64 order.tanks * 25.15
  base * Binary64.ofNat won * variance * factors.lootMultiplier

/-- The money looted in a battle with some rounds won, for a drawn variance. -/
def groundLoot (order : GroundOrder) (defender : Profile) (factors : Factors) (won : Nat)
    (variance : Binary64) : Binary64 :=
  let raw := rawLoot order factors won variance
  let limited := match defender.money with
    | some cash => raw.min (lootCap cash)
    | none => raw
  limited.max 0.0

/-- The losses of both sides, brought into range. -/
def groundLosses (order : GroundOrder) (defender : Profile) (factors : Factors)
    (toll : GroundToll) : UnitLosses × UnitLosses :=
  ({ soldiers := clampLoss (toll.attackerSoldiers * factors.attackerCasualty) order.soldiers
     tanks := clampLoss (toll.attackerTanks * factors.attackerCasualty) order.tanks },
   { soldiers := clampLoss (toll.defenderSoldiers * factors.defenderCasualty) defender.soldiers
     tanks := clampLoss (toll.defenderTanks * factors.defenderCasualty) defender.tanks })

/-- The defending aircraft destroyed on the ground. -/
def groundControlLoss (order : GroundOrder) (defender : Profile) (control : Holder) (won : Nat) :
    Binary64 :=
  match control with
  | .attacker => clampLoss (groundControlRate won * Binary64.ofUInt64 order.tanks) defender.aircraft
  | _ => 0.0

/-- Fights a ground battle: four rolls in each of three rounds, and two more draws, for damage and
for loot, where a round is won. Nothing is drawn when nothing is committed. -/
def groundTrial (order : GroundOrder) (defender : Profile) (context : Context)
    (factors : Factors) : Draw TrialResult := do
  if order.soldiers = 0 ∧ order.tanks = 0 then
    return { moneyLooted := some 0.0, improvementChance := some 0.0 }
  let forces := GroundForces.muster order defender factors
  let rounds ← Draw.times forces.roll roundCount
  let won := rounds.countP GroundRolls.attackerWon
  let (attackerLosses, defenderLosses) :=
    groundLosses order defender factors (rounds.foldl GroundToll.add {})
  let fought : TrialResult :=
    { roundsWon := won, attackerLosses, defenderLosses
      moneyLooted := some 0.0, improvementChance := some 0.0 }
  if won = 0 then return fought
  let damageVariance ← Draw.variance
  let lootVariance ← Draw.within 0.8 1.1
  return { fought with
    defenderLosses := { defenderLosses with
      aircraft := groundControlLoss order defender context.groundControl won }
    infraDestroyed := groundInfra order defender forces factors won damageVariance
    moneyLooted := some (groundLoot order defender factors won lootVariance)
    improvementChance := some (improvementChance 10.0 won context) }

end BattleOdds
