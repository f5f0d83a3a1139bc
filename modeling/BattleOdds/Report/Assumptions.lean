import BattleOdds.Request

/-!
# Assumptions

Every report discloses what its figures rest on: six assumptions that always hold, and those that
the request gives rise to.
-/
namespace BattleOdds

/-- An assumption of a report. -/
inductive Assumption
  | threeRounds
  | uniformRolls
  | fixedUsage
  | unitValuation
  | infraNotValued
  | fullDefence
  | cashUnknown
  | groundControl
  | resistance
  | moneyNotModelled
  | incidentalInfra
  | airSuperiority
  | fortified
  | blitz
deriving DecidableEq

namespace Assumption

def text : Assumption → String
  | threeRounds =>
    "Each trial is three micro-rounds; the outcome tier counts rounds won by the attacker."
  | uniformRolls => "Force rolls are uniform between 40% and 100% of each force's strength."
  | fixedUsage => "Gasoline and munitions usage is deterministic per committed or available unit."
  | unitValuation =>
    "Unit losses are valued at base cost plus 24h average steel/aluminum prices."
  | infraNotValued => "Infrastructure value is not estimated."
  | fullDefence => "The defender is assumed to field its full available force."
  | cashUnknown => "Defender cash unknown, loot reflects max potential."
  | groundControl =>
    "Attacker holds ground control; victories also destroy defender aircraft."
  | resistance =>
    "Defender soldiers include one resistance soldier per 400 residents of its largest city."
  | moneyNotModelled => "Money destroyed is unmodeled for this target."
  | incidentalInfra =>
    "Infrastructure damage is incidental (one third) when not targeting infrastructure."
  | airSuperiority => "Air superiority halves opposing tank strength."
  | fortified => "Defender is fortified; attacker casualties are increased by 25%."
  | blitz => "Blitz raises the active side's casualties and infrastructure damage by 10%."

/-- The assumptions of every report. -/
def standing : List Assumption :=
  [threeRounds, uniformRolls, fixedUsage, unitValuation, infraNotValued, fullDefence]

/-- Keeps an assumption under a condition. -/
def onlyIf (condition : Bool) (assumption : Assumption) : List Assumption :=
  if condition then [assumption] else []

end Assumption

namespace Request

open Assumption

/-- The assumptions that the action gives rise to. -/
def actionAssumptions (r : Request) : List Assumption :=
  match r.action with
  | .ground .. =>
    onlyIf r.defender.money.isNone cashUnknown
      ++ onlyIf (r.context.groundControl == .attacker) groundControl ++ [resistance]
  | .air _ target =>
    onlyIf (target == .money) moneyNotModelled ++ onlyIf (target != .infra) incidentalInfra
  | .naval _ => []

/-- The assumptions that the circumstances give rise to. -/
def contextAssumptions (r : Request) : List Assumption :=
  onlyIf (r.context.airSuperiority != .none) airSuperiority
    ++ onlyIf r.defender.isFortified fortified
    ++ onlyIf (r.context.attackerBlitz || r.context.defenderBlitz) blitz

/-- What the report of a request rests on. -/
def assumptions (r : Request) : List Assumption :=
  standing ++ r.actionAssumptions ++ r.contextAssumptions

end Request

end BattleOdds
