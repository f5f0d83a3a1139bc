import BattleOdds.Trial.Ground

/-!
# Duels and actions

Air strikes and naval battles are duels, which set one force against one: in each of three rounds
both sides roll, the greater roll wins, and each side loses in proportion to the other's rolls. A
duel that wins a round goes on to destroy what the action is after. With the battles on the ground
these make up the trials of all actions.
-/
namespace BattleOdds

/-- The rolls of both sides in one round. -/
structure DuelRolls where
  attacker : Binary64
  defender : Binary64
deriving DecidableEq

/-- A round is won by the greater roll; a tie is the defender's. -/
def DuelRolls.attackerWon (r : DuelRolls) : Bool := r.defender < r.attacker

/-- One round of a duel between two strengths. The attacker rolls first. -/
def duelRound (attacker defender : Binary64) : Draw DuelRolls := do
  let attackerRoll ← Draw.forceRoll attacker
  let defenderRoll ← Draw.forceRoll defender
  return ⟨attackerRoll, defenderRoll⟩

/-- Three rounds of a duel between two strengths. -/
def duel (attacker defender : Binary64) : Draw (List DuelRolls) :=
  Draw.times (duelRound attacker defender) roundCount

/-- What one side loses over the rounds, at a rate per point of the rolls against it. -/
def duelToll (roll : DuelRolls → Binary64) (rate : Binary64) (rounds : List DuelRolls) :
    Binary64 :=
  rounds.foldl (fun toll r => toll + roll r * rate) 0.0

/-! ## Air strikes

The aircraft of both sides meet in three rounds. Against aircraft they fight it out; against any
other target the strike is less exposed. A strike that wins a round destroys units of its target, if
its target is a type of unit, and damages infrastructure, in full only where that is the target.
-/

/-- The attacker's part in an air strike. -/
structure AirOrder where
  aircraft : UInt64
  target : AirTarget
deriving DecidableEq

/-- Only a strike on aircraft is a dogfight. -/
def AirTarget.isDogfight : AirTarget → Bool
  | .aircraft => true
  | _ => false

/-- How a strike destroys units of one type. -/
structure AttritionProfile where
  capShare : Binary64
  capFlat : Binary64
  perAircraft : Binary64
deriving DecidableEq

/-- The attrition of a target that is a type of unit. -/
def AirTarget.attrition? : AirTarget → Option AttritionProfile
  | .soldiers => some ⟨0.75, 1000.0, 35.0⟩
  | .tanks => some ⟨0.75, 10.0, 1.25⟩
  | .ships => some ⟨0.5, 4.0, 0.0285⟩
  | .infra | .aircraft | .money => none

/-- The most units that a strike can destroy of those there are. -/
def AttritionProfile.softCap (p : AttritionProfile) (units : UInt64) : Binary64 :=
  p.capShare * Binary64.ofUInt64 units + p.capFlat

/-- The share of the attrition that a number of won rounds earns. -/
def attritionShare : Nat → Binary64
  | 3 => 1.0
  | 2 => 0.7
  | 1 => 0.4
  | _ => 0.0

/-- Aircraft of each side lost per point of the opposing roll. -/
structure AirLossRates where
  attacker : Binary64
  defender : Binary64
deriving DecidableEq

def AirTarget.lossRates (target : AirTarget) : AirLossRates :=
  if target.isDogfight then ⟨0.01, 0.018337⟩ else ⟨0.006, 0.009091⟩

/-- The strength of an aircraft. -/
def aircraftStrength : Binary64 := 3.0

/-- The units of the target that a strike destroys, for a drawn variance. -/
def unitAttrition (order : AirOrder) (defender : Profile) (available : UInt64)
    (profile : AttritionProfile) (factors : Factors) (won : Nat) (variance : Binary64) :
    Binary64 :=
  let raw := netForce order.aircraft (Binary64.ofUInt64 defender.aircraft)
    * profile.perAircraft * variance
  let destroyed :=
    capped (raw.min (Binary64.ofUInt64 available)) (profile.softCap available)
  clampLoss (destroyed * attritionShare won * factors.defenderCasualty) available

/-- The infrastructure that a strike destroys, for a drawn variance: a third where it is not the
target. -/
def airInfra (order : AirOrder) (defender : Profile) (factors : Factors) (won : Nat)
    (variance : Binary64) : Binary64 :=
  let raw := netForce order.aircraft (Binary64.ofUInt64 defender.aircraft) * 0.35353535
    * variance * tierFraction won
  let destroyed := capped raw (infraCap 0.5 100.0 defender) * factors.infraMultiplier
  match order.target with
  | .infra => destroyed
  | _ => destroyed / 3.0

/-- Books the destroyed units of the target. -/
def bookAttrition (target : AirTarget) (losses : UnitLosses) (destroyed : Binary64) : UnitLosses :=
  match target with
  | .soldiers => { losses with soldiers := destroyed }
  | .tanks => { losses with tanks := destroyed }
  | .ships => { losses with ships := destroyed }
  | .infra | .aircraft | .money => losses

/-- The defender's units of the type that is the target. -/
def AirTarget.available (target : AirTarget) (defender : Profile) : UInt64 :=
  match target with
  | .soldiers => defender.soldiers
  | .tanks => defender.tanks
  | .ships => defender.ships
  | .infra | .aircraft | .money => 0

/-- Flies an air strike: two rolls in each of three rounds and, where a round is won, one draw for
the units of the target if it has any, and one for damage. Nothing is drawn when nothing is
committed. -/
def airTrial (order : AirOrder) (defender : Profile) (factors : Factors) : Draw TrialResult := do
  if order.aircraft = 0 then return {}
  let rounds ← duel (Binary64.ofUInt64 order.aircraft * aircraftStrength)
    (Binary64.ofUInt64 defender.aircraft * aircraftStrength)
  let won := rounds.countP DuelRolls.attackerWon
  let rates := order.target.lossRates
  let attackerToll := duelToll DuelRolls.defender rates.attacker rounds
  let defenderToll := duelToll DuelRolls.attacker rates.defender rounds
  let attackerLosses : UnitLosses :=
    { aircraft := clampLoss (attackerToll * factors.attackerCasualty) order.aircraft }
  let fightingLosses : UnitLosses :=
    { aircraft := clampLoss (defenderToll * factors.defenderCasualty) defender.aircraft }
  if won = 0 then
    return { roundsWon := won, attackerLosses, defenderLosses := fightingLosses }
  let defenderLosses ← match order.target.attrition? with
    | some profile => do
      let attritionVariance ← Draw.variance
      let destroyed := unitAttrition order defender (order.target.available defender) profile
        factors won attritionVariance
      pure (bookAttrition order.target fightingLosses destroyed)
    | none => pure fightingLosses
  let damageVariance ← Draw.variance
  return { roundsWon := won, attackerLosses, defenderLosses
           infraDestroyed := airInfra order defender factors won damageVariance }

/-! ## Naval battles

Two fleets meet in three rounds, with the same rate of loss on both sides. An attacker that wins a
round damages infrastructure and may destroy an improvement.
-/

/-- The strength of a ship. -/
def shipStrength : Binary64 := 4.0

/-- Ships lost per point of the opposing roll. -/
def shipLossRate : Binary64 := 0.01375

/-- The infrastructure that a fleet destroys, for a drawn variance. -/
def navalInfra (ships : UInt64) (defender : Profile) (factors : Factors) (won : Nat)
    (variance : Binary64) : Binary64 :=
  let raw := netForce ships (Binary64.ofUInt64 defender.ships) * 2.625
    * variance * tierFraction won
  capped raw (infraCap 0.5 25.0 defender) * factors.infraMultiplier

/-- Fights a naval battle: two rolls in each of three rounds, and a draw for damage where a round is
won. Nothing is drawn when nothing is committed. -/
def navalTrial (ships : UInt64) (defender : Profile) (context : Context) (factors : Factors) :
    Draw TrialResult := do
  if ships = 0 then return { improvementChance := some 0.0 }
  let rounds ← duel (Binary64.ofUInt64 ships * shipStrength)
    (Binary64.ofUInt64 defender.ships * shipStrength)
  let won := rounds.countP DuelRolls.attackerWon
  let attackerToll := duelToll DuelRolls.defender shipLossRate rounds
  let defenderToll := duelToll DuelRolls.attacker shipLossRate rounds
  let fought : TrialResult :=
    { roundsWon := won
      attackerLosses := { ships := clampLoss (attackerToll * factors.attackerCasualty) ships }
      defenderLosses :=
        { ships := clampLoss (defenderToll * factors.defenderCasualty) defender.ships }
      improvementChance := some 0.0 }
  if won = 0 then return fought
  let damageVariance ← Draw.variance
  return { fought with
    infraDestroyed := navalInfra ships defender factors won damageVariance
    improvementChance := some (improvementChance 15.0 won context) }

/-! ## Actions -/

/-- One trial of an action against a defender in a context, under given factors. The attacker's
profile plays no part: what it commits is in the action. -/
def Action.trial (action : Action) (defender : Profile) (context : Context) (factors : Factors) :
    Draw TrialResult :=
  match action with
  | .ground soldiers tanks armed =>
    groundTrial { soldiers, tanks, armed } defender context factors
  | .air aircraft target => airTrial { aircraft, target } defender factors
  | .naval ships => navalTrial ships defender context factors

end BattleOdds
