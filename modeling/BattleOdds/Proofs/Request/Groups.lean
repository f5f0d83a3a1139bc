import BattleOdds.Factors
import BattleOdds.Proofs.Ledger.Columns

/-!
# Groups of inputs

What a request tells about the war beyond its action and the defender's units falls into nine
groups, by the columns of a ledger that they may touch. Two requests differ in one group only if
putting that group of the second into the first gives the second. What a trial reads of such a pair
is then the same, unless the group is the one that it is read from.
-/
namespace BattleOdds

/-- The inputs of a request by what they act on. -/
inductive InputGroup
  /-- The war type and the two policies that take effect. -/
  | terms
  /-- Whether the defender is fortified or blitzes. -/
  | resistance
  /-- Whether the attacker blitzes. -/
  | blitz
  | cash
  | cityInfra
  | groundControl
  /-- The blockade, the attacker's profile, and what is known of the defender for information. -/
  | idle
  | airSuperiority
  | population
deriving DecidableEq

namespace InputGroup

/-- A request with one group of its inputs replaced by that of another request. -/
def transfer (group : InputGroup) (source r : Request) : Request :=
  match group with
  | .terms =>
    { r with context := { r.context with
        warType := source.context.warType
        attackerPolicy := source.context.attackerPolicy
        defenderPolicy := source.context.defenderPolicy } }
  | .resistance =>
    { r with
      defender := { r.defender with isFortified := source.defender.isFortified }
      context := { r.context with defenderBlitz := source.context.defenderBlitz } }
  | .blitz =>
    { r with context := { r.context with attackerBlitz := source.context.attackerBlitz } }
  | .cash => { r with defender := { r.defender with money := source.defender.money } }
  | .cityInfra =>
    { r with defender := { r.defender with highestCityInfra := source.defender.highestCityInfra } }
  | .groundControl =>
    { r with context := { r.context with groundControl := source.context.groundControl } }
  | .idle =>
    { r with
      attacker := source.attacker
      defender := { r.defender with
        warPolicy := source.defender.warPolicy
        cities := source.defender.cities
        averageInfra := source.defender.averageInfra }
      context := { r.context with navalBlockade := source.context.navalBlockade } }
  | .airSuperiority =>
    { r with context := { r.context with airSuperiority := source.context.airSuperiority } }
  | .population =>
    { r with defender := { r.defender with
        highestCityPopulation := source.defender.highestCityPopulation } }

end InputGroup

/-- A figure that follows from the losses of a side; the others follow from what it uses up. -/
def Figure.ofLosses : Figure → Bool
  | .soldiers | .tanks | .aircraft | .ships | .lossesValue | .totalValue => true
  | .gasoline | .munitions | .usageValue => false

/-- The columns that a group may touch in a run of an action. -/
def InputGroup.touches : InputGroup → ActionKind → Column → Bool
  | .terms, _, .infraDestroyed => true
  | .terms, _, .moneyLooted => true
  | .terms, _, .improvementChance => true
  | .resistance, _, .booked .attacker figure => figure.ofLosses
  | .blitz, _, .booked .defender figure => figure.ofLosses
  | .blitz, _, .infraDestroyed => true
  | .cash, _, .moneyLooted => true
  | .cityInfra, _, .infraDestroyed => true
  | .groundControl, .ground, .booked .defender .aircraft => true
  | .groundControl, .ground, .booked .defender .lossesValue => true
  | .groundControl, .ground, .booked .defender .totalValue => true
  | .airSuperiority, .ground, .booked _ figure => figure.ofLosses
  | .population, .ground, .booked _ figure => figure.ofLosses
  | .airSuperiority, .ground, column => column ≠ .moneyDestroyed
  | .population, .ground, column => column ≠ .moneyDestroyed
  | _, _, _ => false

/-- A group is not the one that touches a column if it does not touch that column. -/
theorem InputGroup.ne_of_touches {group other : InputGroup} {kind : ActionKind} {c : Column}
    (h : group.touches kind c = false) (hother : other.touches kind c = true) : group ≠ other := by
  rintro rfl
  simp [h] at hother

/-- The factors of a run of a request. -/
def Request.factors (r : Request) : Factors := .resolve r.context r.defender.isFortified

/-- Two requests agree in all that a trial reads outside a group. -/
structure SameOutside (group : InputGroup) (r s : Request) : Prop where
  iterations : s.iterations = r.iterations
  seed : s.seed = r.seed
  action : s.action = r.action
  soldiers : s.defender.soldiers = r.defender.soldiers
  tanks : s.defender.tanks = r.defender.tanks
  aircraft : s.defender.aircraft = r.defender.aircraft
  ships : s.defender.ships = r.defender.ships
  infraMultiplier (hterms : group ≠ .terms) (hblitz : group ≠ .blitz) :
    s.factors.infraMultiplier = r.factors.infraMultiplier
  lootMultiplier (h : group ≠ .terms) : s.factors.lootMultiplier = r.factors.lootMultiplier
  attackerPolicy (h : group ≠ .terms) : s.context.attackerPolicy = r.context.attackerPolicy
  defenderPolicy (h : group ≠ .terms) : s.context.defenderPolicy = r.context.defenderPolicy
  attackerCasualty (h : group ≠ .resistance) :
    s.factors.attackerCasualty = r.factors.attackerCasualty
  defenderCasualty (h : group ≠ .blitz) :
    s.factors.defenderCasualty = r.factors.defenderCasualty
  money (h : group ≠ .cash) : s.defender.money = r.defender.money
  highestCityInfra (h : group ≠ .cityInfra) :
    s.defender.highestCityInfra = r.defender.highestCityInfra
  groundControl (h : group ≠ .groundControl) : s.context.groundControl = r.context.groundControl
  attackerTankStrength (h : group ≠ .airSuperiority) :
    s.factors.attackerTankStrength = r.factors.attackerTankStrength
  defenderTankStrength (h : group ≠ .airSuperiority) :
    s.factors.defenderTankStrength = r.factors.defenderTankStrength
  population (h : group ≠ .population) :
    s.defender.highestCityPopulation = r.defender.highestCityPopulation

namespace InputGroup

/-- A transfer changes nothing that is read outside its group. -/
theorem sameOutside_transfer (group : InputGroup) (source r : Request) :
    SameOutside group r (group.transfer source r) := by
  cases group
  all_goals constructor
  all_goals intros
  all_goals first
    | rfl
    | contradiction

/-- Requests that differ in one group agree outside it. -/
theorem sameOutside_of_transfer {group : InputGroup} {r s : Request} (h : group.transfer s r = s) :
    SameOutside group r s := by
  have hsame := group.sameOutside_transfer s r
  rwa [h] at hsame

end InputGroup
end BattleOdds
