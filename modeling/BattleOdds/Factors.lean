import BattleOdds.Request

/-!
# Factors

The war type, the policies, fortification, blitz and air superiority change a trial by factors only.
`Factors.resolve` derives them once for a whole run; the trials read nothing else of the context but
the holder of ground control and the two policies of the improvement chance.
-/
namespace BattleOdds

/-- The factors of a run. -/
structure Factors where
  infraFactor : Binary64
  lootFactor : Binary64
  attackerLootPolicy : Binary64
  defenderLootPolicy : Binary64
  attackerInfraPolicy : Binary64
  defenderInfraPolicy : Binary64
  attackerBlitz : Binary64
  defenderBlitz : Binary64
  attackerTankStrength : Binary64
  defenderTankStrength : Binary64
  attackerCasualty : Binary64
  defenderCasualty : Binary64
deriving DecidableEq, Inhabited

/-- A pair of factors, on infrastructure damage and on loot. -/
structure WarTypeFactors where
  infra : Binary64
  loot : Binary64
deriving DecidableEq

def WarType.factors : WarType → WarTypeFactors
  | .attrition => ⟨1.0, 0.25⟩
  | .raid => ⟨0.25, 1.0⟩
  | .ordinary => ⟨0.5, 0.5⟩

/-- The factor of the attacker's policy on loot. -/
def WarPolicy.lootBonus : WarPolicy → Binary64
  | .pirate => 1.4
  | _ => 1.0

/-- The factor of the defender's policy on loot. -/
def WarPolicy.lootPenalty : WarPolicy → Binary64
  | .moneybags => 0.6
  | _ => 1.0

/-- The factor of the attacker's policy on infrastructure damage. -/
def WarPolicy.infraBonus : WarPolicy → Binary64
  | .attrition => 1.1
  | _ => 1.0

/-- The factor of the defender's policy on infrastructure damage. -/
def WarPolicy.infraExposure : WarPolicy → Binary64
  | .turtle => 0.9
  | .moneybags | .covert | .arcane => 1.05
  | _ => 1.0

/-- A blitz raises casualties and damage by a tenth. -/
def blitzFactor (blitz : Bool) : Binary64 := if blitz then 1.1 else 1.0

/-- A fortified defender causes a quarter more casualties. -/
def fortificationFactor (fortified : Bool) : Binary64 := if fortified then 1.25 else 1.0

namespace Holder

/-- The strength of the attacker's tanks under a holder of air superiority. -/
def attackerTankStrength : Holder → Binary64
  | .defender => 0.5
  | _ => 1.0

/-- The strength of the defender's tanks under a holder of air superiority. -/
def defenderTankStrength : Holder → Binary64
  | .attacker => 0.5
  | _ => 1.0

end Holder

namespace Factors

/-- The factors of a context, against a defender that is or is not fortified. -/
def resolve (context : Context) (fortified : Bool) : Factors where
  infraFactor := context.warType.factors.infra
  lootFactor := context.warType.factors.loot
  attackerLootPolicy := context.attackerPolicy.lootBonus
  defenderLootPolicy := context.defenderPolicy.lootPenalty
  attackerInfraPolicy := context.attackerPolicy.infraBonus
  defenderInfraPolicy := context.defenderPolicy.infraExposure
  attackerBlitz := blitzFactor context.attackerBlitz
  defenderBlitz := blitzFactor context.defenderBlitz
  attackerTankStrength := context.airSuperiority.attackerTankStrength
  defenderTankStrength := context.airSuperiority.defenderTankStrength
  attackerCasualty := blitzFactor context.defenderBlitz * fortificationFactor fortified
  defenderCasualty := blitzFactor context.attackerBlitz

/-- The factor on all infrastructure that the attacker destroys. -/
def infraMultiplier (f : Factors) : Binary64 :=
  f.infraFactor * f.attackerInfraPolicy * f.defenderInfraPolicy * f.attackerBlitz

/-- The factor on all money that the attacker loots. -/
def lootMultiplier (f : Factors) : Binary64 :=
  f.lootFactor * f.attackerLootPolicy * f.defenderLootPolicy

end Factors

end BattleOdds
