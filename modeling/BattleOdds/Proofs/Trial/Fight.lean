import BattleOdds.Proofs.Draw
import BattleOdds.Trial.Action

/-!
# Fights and their scores

A trial is a fight that is drawn and a score that is computed. The draws of a fight depend on the
forces alone: three rounds and, where the attacker wins one, the figures of the aftermath. All other
data of a trial, such as its factors, the defender's cash and its infrastructure, enter the score
only. So bounds on a result are bounds on a score, and what the score does not read has no effect.
-/
namespace BattleOdds

variable {ρ ε : Type}

/-- What a trial draws: its rounds and, where one is won, its aftermath. -/
structure Fight (ρ ε : Type) where
  rounds : List ρ
  aftermath : Option ε

namespace Fight

/-- Draws a fight of three rounds. -/
def draw (round : Draw ρ) (attackerWon : ρ → Bool) (aftermath : Draw ε) : Draw (Fight ρ ε) := do
  let rounds ← Draw.times round roundCount
  if rounds.countP attackerWon = 0 then return { rounds, aftermath := none }
  let drawn ← aftermath
  return { rounds, aftermath := some drawn }

/-- The result of a fight, by what a defeat and what a victory result in. -/
def score (defeat : List ρ → TrialResult) (victory : List ρ → ε → TrialResult) (fight : Fight ρ ε) :
    TrialResult :=
  match fight.aftermath with
  | none => defeat fight.rounds
  | some drawn => victory fight.rounds drawn

theorem score_map_draw (round : Draw ρ) (attackerWon : ρ → Bool) (aftermath : Draw ε)
    (defeat : List ρ → TrialResult) (victory : List ρ → ε → TrialResult) :
    score defeat victory <$> draw round attackerWon aftermath = (do
      let rounds ← Draw.times round roundCount
      if rounds.countP attackerWon = 0 then return defeat rounds
      let drawn ← aftermath
      return victory rounds drawn) := by
  rw [draw, map_bind]
  apply bind_congr
  intro rounds
  by_cases h : rounds.countP attackerWon = 0
  · rw [if_pos h, if_pos h]
    rfl
  · rw [if_neg h, if_neg h]
    rfl

/-- The rounds of a fight are drawn first, whatever follows them. -/
theorem rounds_draw (round : Draw ρ) (attackerWon : ρ → Bool) (aftermath : Draw ε) (g : Generator) :
    (draw round attackerWon aftermath g).1.rounds = (Draw.times round roundCount g).1 := by
  have hrest (rounds : List ρ) (g' : Generator) :
      ((if rounds.countP attackerWon = 0 then pure { rounds, aftermath := none }
        else do
          let drawn ← aftermath
          return { rounds, aftermath := some drawn } : Draw (Fight ρ ε)) g').1.rounds = rounds := by
    split <;> rfl
  exact hrest (Draw.times round roundCount g).1 (Draw.times round roundCount g).2

/-- Scores that tell the won rounds after a defeat and after a victory tell them of any fight. -/
theorem roundsWon_score {attackerWon : ρ → Bool} {defeat : List ρ → TrialResult}
    {victory : List ρ → ε → TrialResult}
    (hdefeat : ∀ rounds, (defeat rounds).roundsWon = rounds.countP attackerWon)
    (hvictory : ∀ rounds drawn, (victory rounds drawn).roundsWon = rounds.countP attackerWon)
    (fight : Fight ρ ε) :
    (score defeat victory fight).roundsWon = fight.rounds.countP attackerWon := by
  obtain ⟨rounds, _ | drawn⟩ := fight
  · exact hdefeat rounds
  · exact hvictory rounds drawn

/-- The won rounds are those of the rounds that are drawn first. -/
theorem roundsWon_score_draw {round : Draw ρ} {attackerWon : ρ → Bool} {aftermath : Draw ε}
    {defeat : List ρ → TrialResult} {victory : List ρ → ε → TrialResult}
    (hdefeat : ∀ rounds, (defeat rounds).roundsWon = rounds.countP attackerWon)
    (hvictory : ∀ rounds drawn, (victory rounds drawn).roundsWon = rounds.countP attackerWon)
    (g : Generator) :
    ((score defeat victory <$> draw round attackerWon aftermath) g).1.roundsWon
      = (Draw.times round roundCount g).1.countP attackerWon := by
  calc ((score defeat victory <$> draw round attackerWon aftermath) g).1.roundsWon
    _ = (draw round attackerWon aftermath g).1.rounds.countP attackerWon :=
        roundsWon_score hdefeat hvictory _
    _ = (Draw.times round roundCount g).1.countP attackerWon := by rw [rounds_draw]

/-- Whatever the rounds yield, all rounds of a fight have. -/
theorem yields_draw {round : Draw ρ} {P : ρ → Prop} (hround : Draw.Yields round P)
    (attackerWon : ρ → Bool) (aftermath : Draw ε) :
    Draw.Yields (draw round attackerWon aftermath) fun fight => ∀ r ∈ fight.rounds, P r := by
  refine (hround.times roundCount).bind fun rounds ⟨_, hrounds⟩ => ?_
  by_cases h : rounds.countP attackerWon = 0
  · rw [if_pos h]
    exact .pure hrounds
  · rw [if_neg h]
    exact fun _ => hrounds

/-- Three rounds are fought, and an aftermath is drawn where one of them is won. -/
theorem yields_draw_of_aftermath {round : Draw ρ} {attackerWon : ρ → Bool} {aftermath : Draw ε}
    {Q : ε → Prop} (haftermath : Draw.Yields aftermath Q) :
    Draw.Yields (draw round attackerWon aftermath) fun fight =>
      fight.rounds.length = roundCount
        ∧ ∀ drawn ∈ fight.aftermath, fight.rounds.countP attackerWon ≠ 0 ∧ Q drawn := by
  have hround : Draw.Yields round fun _ => True := fun _ => trivial
  refine (hround.times roundCount).bind fun rounds ⟨hlength, _⟩ => ?_
  by_cases h : rounds.countP attackerWon = 0
  · rw [if_pos h]
    exact .pure ⟨hlength, nofun⟩
  · rw [if_neg h]
    refine haftermath.bind fun drawn hdrawn => .pure ⟨hlength, ?_⟩
    rintro _ ⟨⟩
    exact ⟨h, hdrawn⟩

/-- What holds of all rounds and of what is drawn after a victory decides on the score. -/
theorem yields_score {round : Draw ρ} {attackerWon : ρ → Bool} {aftermath : Draw ε}
    {defeat : List ρ → TrialResult} {victory : List ρ → ε → TrialResult} {P : ρ → Prop}
    {Q : ε → Prop} {R : TrialResult → Prop} (hround : Draw.Yields round P)
    (haftermath : Draw.Yields aftermath Q)
    (hdefeat : ∀ rounds, rounds.length = roundCount → (∀ r ∈ rounds, P r) → R (defeat rounds))
    (hvictory : ∀ rounds drawn, rounds.length = roundCount → (∀ r ∈ rounds, P r) →
      rounds.countP attackerWon ≠ 0 → Q drawn → R (victory rounds drawn)) :
    Draw.Yields (score defeat victory <$> draw round attackerWon aftermath) R := by
  rw [score_map_draw]
  refine (hround.times roundCount).bind fun rounds ⟨hlength, hrounds⟩ => ?_
  by_cases h : rounds.countP attackerWon = 0
  · rw [if_pos h]
    exact .pure (hdefeat rounds hlength hrounds)
  · rw [if_neg h]
    exact haftermath.bind fun drawn hdrawn =>
      .pure (hvictory rounds drawn hlength hrounds h hdrawn)

/-- What holds of a score whatever the rounds are. -/
theorem yields_score_of_aftermath {round : Draw ρ} {attackerWon : ρ → Bool} {aftermath : Draw ε}
    {defeat : List ρ → TrialResult} {victory : List ρ → ε → TrialResult} {Q : ε → Prop}
    {R : TrialResult → Prop} (haftermath : Draw.Yields aftermath Q)
    (hdefeat : ∀ rounds, rounds.length = roundCount → R (defeat rounds))
    (hvictory : ∀ rounds drawn, rounds.length = roundCount → rounds.countP attackerWon ≠ 0 →
      Q drawn → R (victory rounds drawn)) :
    Draw.Yields (score defeat victory <$> draw round attackerWon aftermath) R := by
  have hround : Draw.Yields round fun _ => True := fun _ => trivial
  exact yields_score hround haftermath (fun rounds hlength _ => hdefeat rounds hlength)
    fun rounds drawn hlength _ => hvictory rounds drawn hlength

/-- What holds of a score whatever is drawn. -/
theorem yields_score_of_forall {round : Draw ρ} {attackerWon : ρ → Bool} {aftermath : Draw ε}
    {defeat : List ρ → TrialResult} {victory : List ρ → ε → TrialResult} {R : TrialResult → Prop}
    (hdefeat : ∀ rounds, rounds.length = roundCount → R (defeat rounds))
    (hvictory : ∀ rounds drawn, rounds.length = roundCount → rounds.countP attackerWon ≠ 0 →
      R (victory rounds drawn)) :
    Draw.Yields (score defeat victory <$> draw round attackerWon aftermath) R := by
  have haftermath : Draw.Yields aftermath fun _ => True := fun _ => trivial
  exact yields_score_of_aftermath haftermath hdefeat fun rounds drawn hlength hwon _ =>
    hvictory rounds drawn hlength hwon

end Fight

/-! ## Ground battles -/

/-- The draws of a ground battle; its aftermath are the variances of the damage and of the loot. -/
def GroundForces.fight (forces : GroundForces) : Draw (Fight GroundRolls (Binary64 × Binary64)) :=
  Fight.draw forces.roll GroundRolls.attackerWon do
    let damage ← Draw.variance
    let loot ← Draw.within 0.8 1.1
    return (damage, loot)

section Ground

variable (order : GroundOrder) (defender : Profile) (context : Context) (factors : Factors)

/-- The result of a ground battle before its aftermath. -/
def groundDefeat (rounds : List GroundRolls) : TrialResult :=
  let losses := groundLosses order defender factors (rounds.foldl GroundToll.add {})
  { roundsWon := rounds.countP GroundRolls.attackerWon
    attackerLosses := losses.1
    defenderLosses := losses.2
    moneyLooted := some 0.0
    improvementChance := some 0.0 }

/-- The result of a ground battle with its aftermath. -/
def groundVictory (rounds : List GroundRolls) (variances : Binary64 × Binary64) : TrialResult :=
  let fought := groundDefeat order defender factors rounds
  let won := rounds.countP GroundRolls.attackerWon
  let forces := GroundForces.muster order defender factors
  { fought with
    defenderLosses := { fought.defenderLosses with
      aircraft := groundControlLoss order defender context.groundControl won }
    infraDestroyed := groundInfra order defender forces factors won variances.1
    moneyLooted := some (groundLoot order defender factors won variances.2)
    improvementChance := some (improvementChance 10.0 won context) }

theorem groundTrial_eq_score (h : ¬ (order.soldiers = 0 ∧ order.tanks = 0)) :
    groundTrial order defender context factors
      = Fight.score (groundDefeat order defender factors)
          (groundVictory order defender context factors)
        <$> (GroundForces.muster order defender factors).fight := by
  rw [groundTrial, if_neg h, GroundForces.fight, Fight.score_map_draw]
  rfl

end Ground

/-! ## Air strikes -/

/-- The variance of the attrition, if the target is a type of unit. -/
def AirTarget.attritionDraw (target : AirTarget) : Draw (Option Binary64) :=
  match target.attrition? with
  | some _ => some <$> Draw.variance
  | none => pure none

/-- The draws of an air strike; its aftermath is the variance of the attrition and of the damage. -/
def AirOrder.fight (order : AirOrder) (defending : UInt64) :
    Draw (Fight DuelRolls (Option Binary64 × Binary64)) :=
  Fight.draw (duelRound (Binary64.ofUInt64 order.aircraft * aircraftStrength)
    (Binary64.ofUInt64 defending * aircraftStrength)) DuelRolls.attackerWon do
      let attrition ← order.target.attritionDraw
      let damage ← Draw.variance
      return (attrition, damage)

section Air

variable (order : AirOrder) (defender : Profile) (factors : Factors)

/-- The result of an air strike before its aftermath. -/
def airDefeat (rounds : List DuelRolls) : TrialResult :=
  let rates := order.target.lossRates
  let attackerToll := duelToll DuelRolls.defender rates.attacker rounds
  let defenderToll := duelToll DuelRolls.attacker rates.defender rounds
  { roundsWon := rounds.countP DuelRolls.attackerWon
    attackerLosses :=
      { aircraft := clampLoss (attackerToll * factors.attackerCasualty) order.aircraft }
    defenderLosses :=
      { aircraft := clampLoss (defenderToll * factors.defenderCasualty) defender.aircraft } }

/-- The losses of the defender with those of the units that are the target. -/
def airLosses (rounds : List DuelRolls) (attrition : Option Binary64) : UnitLosses :=
  let fighting := (airDefeat order defender factors rounds).defenderLosses
  match order.target.attrition?, attrition with
  | some profile, some variance =>
    bookAttrition order.target fighting
      (unitAttrition order defender (order.target.available defender) profile factors
        (rounds.countP DuelRolls.attackerWon) variance)
  | _, _ => fighting

/-- The result of an air strike with its aftermath. -/
def airVictory (rounds : List DuelRolls) (variances : Option Binary64 × Binary64) : TrialResult :=
  { airDefeat order defender factors rounds with
    defenderLosses := airLosses order defender factors rounds variances.1
    infraDestroyed :=
      airInfra order defender factors (rounds.countP DuelRolls.attackerWon) variances.2 }

theorem airTrial_eq_score (h : order.aircraft ≠ 0) :
    airTrial order defender factors
      = Fight.score (airDefeat order defender factors) (airVictory order defender factors)
        <$> order.fight defender.aircraft := by
  rw [airTrial, if_neg h, AirOrder.fight, Fight.score_map_draw]
  obtain ⟨aircraft, target⟩ := order
  cases target <;> rfl

end Air

/-! ## Naval battles -/

/-- The draws of a naval battle; its aftermath is the variance of the damage. -/
def navalFight (ships defending : UInt64) : Draw (Fight DuelRolls Binary64) :=
  Fight.draw (duelRound (Binary64.ofUInt64 ships * shipStrength)
    (Binary64.ofUInt64 defending * shipStrength)) DuelRolls.attackerWon Draw.variance

section Naval

variable (ships : UInt64) (defender : Profile) (context : Context) (factors : Factors)

/-- The result of a naval battle before its aftermath. -/
def navalDefeat (rounds : List DuelRolls) : TrialResult :=
  let attackerToll := duelToll DuelRolls.defender shipLossRate rounds
  let defenderToll := duelToll DuelRolls.attacker shipLossRate rounds
  { roundsWon := rounds.countP DuelRolls.attackerWon
    attackerLosses :=
      { ships := clampLoss (attackerToll * factors.attackerCasualty) ships }
    defenderLosses :=
      { ships := clampLoss (defenderToll * factors.defenderCasualty) defender.ships }
    improvementChance := some 0.0 }

/-- The result of a naval battle with its aftermath. -/
def navalVictory (rounds : List DuelRolls) (variance : Binary64) : TrialResult :=
  let won := rounds.countP DuelRolls.attackerWon
  { navalDefeat ships defender factors rounds with
    infraDestroyed := navalInfra ships defender factors won variance
    improvementChance := some (improvementChance 15.0 won context) }

theorem navalTrial_eq_score (h : ships ≠ 0) :
    navalTrial ships defender context factors
      = Fight.score (navalDefeat ships defender factors)
          (navalVictory ships defender context factors)
        <$> navalFight ships defender.ships := by
  rw [navalTrial, if_neg h, navalFight, Fight.score_map_draw]
  rfl

end Naval

end BattleOdds
