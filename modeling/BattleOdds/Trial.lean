import BattleOdds.Draw
import BattleOdds.Request

/-!
# Trials

A trial fights an action once, in three rounds, and books what both sides lose. The number of rounds
that the attacker wins decides how much of each effect it earns. This module holds the result of a
trial and the rules that ground, air and naval actions share.
-/
namespace BattleOdds

/-- The units of each type that one side loses. Losses are fractional. -/
structure UnitLosses where
  soldiers : Binary64 := 0.0
  tanks : Binary64 := 0.0
  aircraft : Binary64 := 0.0
  ships : Binary64 := 0.0
deriving DecidableEq, Inhabited

/-- What comes of one trial. A figure that the action does not model is absent. -/
structure TrialResult where
  /-- The rounds that the attacker won; a fought trial has at most three. -/
  roundsWon : Nat := 0
  attackerLosses : UnitLosses := {}
  defenderLosses : UnitLosses := {}
  infraDestroyed : Binary64 := 0.0
  moneyLooted : Option Binary64 := none
  moneyDestroyed : Option Binary64 := none
  improvementChance : Option Binary64 := none
deriving DecidableEq, Inhabited

/-- Every action is fought in three rounds. -/
def roundCount : Nat := 3

/-- The share of the full effect that a number of won rounds earns. -/
def tierFraction (won : Nat) : Binary64 := Binary64.ofNat won / Binary64.ofNat roundCount

/-- A loss can be neither negative nor greater than what is there. -/
def clampLoss (loss : Binary64) (available : UInt64) : Binary64 :=
  loss.clamp 0.0 (Binary64.ofUInt64 available)

/-- A pirate or tactician doubles the chance that an improvement of the other side is destroyed. -/
def WarPolicy.raisedChance (policy : WarPolicy) (chance : Binary64) : Binary64 :=
  match policy with
  | .pirate | .tactician => chance * 2.0
  | _ => chance

/-- A guardian halves the chance that an improvement of its own is destroyed. -/
def WarPolicy.loweredChance (policy : WarPolicy) (chance : Binary64) : Binary64 :=
  match policy with
  | .guardian => chance * 0.5
  | _ => chance

/-- The chance in percent that an improvement is destroyed: only where all rounds are won, raised by
the attacker's policy and lowered by the defender's. -/
def improvementChance (base : Binary64) (won : Nat) (context : Context) : Binary64 :=
  if won < roundCount then 0.0
  else
    let raised := context.attackerPolicy.raisedChance base
    (context.defenderPolicy.loweredChance raised).clamp 0.0 100.0

/-- The ceiling of infrastructure damage: a share of the infrastructure of the defender's largest
city, and a flat amount. -/
def infraCap (share flat : Binary64) (defender : Profile) : Binary64 :=
  share * defender.highestCityInfra.max 0.0 + flat

/-- A raw effect brought under its cap and above zero. -/
def capped (raw cap : Binary64) : Binary64 := (raw.min cap).max 0.0

/-- The attackers that are left over once half the defenders of the same arm are set against them.
-/
def netForce (attacking : UInt64) (defending : Binary64) : Binary64 :=
  Binary64.ofUInt64 attacking - 0.5 * defending

end BattleOdds
