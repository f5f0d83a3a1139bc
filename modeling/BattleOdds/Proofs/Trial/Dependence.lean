import BattleOdds.Proofs.Request.Groups
import BattleOdds.Proofs.Trial.Fight

/-!
# What a trial depends on

Two requests that differ in one group of inputs fight the same fight: its draws read the forces
alone, so both trials consume the same draws and leave the same generator behind. The results differ
only in the scores, and there only in what reads the group. Where the group changes the forces
themselves, in a ground battle, nothing is claimed of what follows from the fight.
-/
namespace BattleOdds
open InputGroup (ne_of_touches)

/-! ## Lockstep -/

namespace Draw

variable {α β : Type} {R : α → α → Prop}

/-- From one generator two draws yield related values and leave one generator behind. -/
def Lockstep (R : α → α → Prop) (d d' : Draw α) : Prop :=
  ∀ g, R (d g).1 (d' g).1 ∧ (d g).2 = (d' g).2

theorem Lockstep.pure {a b : α} (h : R a b) : Lockstep R (Pure.pure a) (Pure.pure b) :=
  fun _ => ⟨h, rfl⟩

/-- Related views on one draw. -/
theorem Lockstep.map {f f' : β → α} {P : β → Prop} {d : Draw β} (hd : Yields d P)
    (h : ∀ b, P b → R (f b) (f' b)) : Lockstep R (f <$> d) (f' <$> d) :=
  fun g => ⟨h (d g).1 (hd g), rfl⟩

theorem Lockstep.and_yields {d d' : Draw α} {P : α → Prop} (h : Lockstep R d d')
    (hd' : Yields d' P) : Lockstep (fun a b => R a b ∧ P b) d d' :=
  fun g => ⟨⟨(h g).1, hd' g⟩, (h g).2⟩

/-- Repetitions stay in lockstep: each begins where its counterpart begins. -/
theorem Lockstep.times {d d' : Draw α} (h : Lockstep R d d') (n : ℕ) :
    Lockstep (List.Forall₂ R) (times d n) (times d' n) := by
  induction n with
  | zero => exact .pure .nil
  | succ n ih =>
    intro g
    obtain ⟨hfirst, hg⟩ := h g
    obtain ⟨hrest, hlast⟩ := ih (d g).2
    rw [times_succ, times_succ, ← hg]
    exact ⟨.cons hfirst hrest, hlast⟩

end Draw

namespace Fight

variable {ρ ε : Type} {round : Draw ρ} {attackerWon : ρ → Bool} {aftermath : Draw ε}
variable {defeat defeat' : List ρ → TrialResult} {victory victory' : List ρ → ε → TrialResult}
variable {R : TrialResult → TrialResult → Prop}

/-- Two scores of one fight stay in lockstep if what defeats and what victories result in is related
wherever the rounds are such as can be drawn. -/
theorem lockstep_score {P : ρ → Prop} (hround : Draw.Yields round P)
    (hdefeat : ∀ rounds, (∀ r ∈ rounds, P r) → R (defeat rounds) (defeat' rounds))
    (hvictory : ∀ rounds drawn, (∀ r ∈ rounds, P r) →
      R (victory rounds drawn) (victory' rounds drawn)) :
    Draw.Lockstep R (score defeat victory <$> draw round attackerWon aftermath)
      (score defeat' victory' <$> draw round attackerWon aftermath) := by
  refine .map (yields_draw hround attackerWon aftermath) fun fight hrounds => ?_
  obtain ⟨rounds, _ | drawn⟩ := fight
  · exact hdefeat rounds hrounds
  · exact hvictory rounds drawn hrounds

/-- Scores that are related whatever the rounds are, if what is drawn after a victory is such as can
be drawn. -/
theorem lockstep_score_of_aftermath {Q : ε → Prop} (haftermath : Draw.Yields aftermath Q)
    (hdefeat : ∀ rounds, R (defeat rounds) (defeat' rounds))
    (hvictory : ∀ rounds drawn, rounds.length = roundCount → rounds.countP attackerWon ≠ 0 →
      Q drawn → R (victory rounds drawn) (victory' rounds drawn)) :
    Draw.Lockstep R (score defeat victory <$> draw round attackerWon aftermath)
      (score defeat' victory' <$> draw round attackerWon aftermath) := by
  refine .map (yields_draw_of_aftermath haftermath) fun fight ⟨hlength, haftermath⟩ => ?_
  obtain ⟨rounds, _ | drawn⟩ := fight
  · exact hdefeat rounds
  · obtain ⟨hwon, hdrawn⟩ := haftermath drawn rfl
    exact hvictory rounds drawn hlength hwon hdrawn

/-- Scores that are related whatever the rounds are. -/
theorem lockstep_score_of_forall (hdefeat : ∀ rounds, R (defeat rounds) (defeat' rounds))
    (hvictory : ∀ rounds drawn, R (victory rounds drawn) (victory' rounds drawn)) :
    Draw.Lockstep R (score defeat victory <$> draw round attackerWon aftermath)
      (score defeat' victory' <$> draw round attackerWon aftermath) := by
  have hround : Draw.Yields round fun _ => True := fun _ => trivial
  exact lockstep_score hround (fun rounds _ => hdefeat rounds) fun rounds drawn _ =>
    hvictory rounds drawn

end Fight

/-! ## Agreement of results -/

/-- Two results agree in all that no touched column is made of. -/
structure Agrees (group : InputGroup) (kind : ActionKind) (x y : TrialResult) : Prop where
  roundsWon (h : group.touches kind .tier = false) : x.roundsWon = y.roundsWon
  attackerLosses (h : group.touches kind (.booked .attacker .lossesValue) = false) :
    x.attackerLosses = y.attackerLosses
  defenderLosses (h : group.touches kind (.booked .defender .lossesValue) = false) :
    x.defenderLosses = y.defenderLosses
  defenderForces (h : group.touches kind (.booked .defender .soldiers) = false) :
    x.defenderLosses.soldiers = y.defenderLosses.soldiers
    ∧ x.defenderLosses.tanks = y.defenderLosses.tanks
    ∧ x.defenderLosses.ships = y.defenderLosses.ships
  infraDestroyed (h : group.touches kind .infraDestroyed = false) :
    x.infraDestroyed = y.infraDestroyed
  moneyLooted (h : group.touches kind .moneyLooted = false) : x.moneyLooted = y.moneyLooted
  improvementChance (h : group.touches kind .improvementChance = false) :
    x.improvementChance = y.improvementChance
  moneyDestroyed : x.moneyDestroyed = y.moneyDestroyed

theorem Agrees.refl (group : InputGroup) (kind : ActionKind) (x : TrialResult) :
    Agrees group kind x x where
  roundsWon _ := rfl
  attackerLosses _ := rfl
  defenderLosses _ := rfl
  defenderForces _ := ⟨rfl, rfl, rfl⟩
  infraDestroyed _ := rfl
  moneyLooted _ := rfl
  improvementChance _ := rfl
  moneyDestroyed := rfl

variable {group : InputGroup} {r s : Request}

/-- Results of which all but the losses is the same agree, if the losses of either side are the same
wherever its casualties are: a group that changes the casualties touches what counts the losses. -/
theorem Agrees.of_losses {kind : ActionKind} {x y : TrialResult} (h : SameOutside group r s)
    (hrest : y = { x with attackerLosses := y.attackerLosses, defenderLosses := y.defenderLosses })
    (hattacker : s.factors.attackerCasualty = r.factors.attackerCasualty →
      x.attackerLosses = y.attackerLosses)
    (hdefender : s.factors.defenderCasualty = r.factors.defenderCasualty →
      x.defenderLosses = y.defenderLosses) : Agrees group kind x y := by
  have hlosses (hreach : group ≠ .blitz) : x.defenderLosses = y.defenderLosses :=
    hdefender (h.defenderCasualty hreach)
  exact
    { roundsWon := fun _ => by rw [hrest]
      attackerLosses := fun htouch => hattacker (h.attackerCasualty (ne_of_touches htouch rfl))
      defenderLosses := fun htouch => hlosses (ne_of_touches htouch rfl)
      defenderForces := fun htouch => by
        rw [hlosses (ne_of_touches htouch rfl)]
        exact ⟨rfl, rfl, rfl⟩
      infraDestroyed := fun _ => by rw [hrest]
      moneyLooted := fun _ => by rw [hrest]
      improvementChance := fun _ => by rw [hrest]
      moneyDestroyed := by rw [hrest] }

/-- The chance of an improvement reads the policies alone. -/
theorem improvementChance_congr {c c' : Context} (hattacker : c'.attackerPolicy = c.attackerPolicy)
    (hdefender : c'.defenderPolicy = c.defenderPolicy) (base : Binary64) (won : ℕ) :
    improvementChance base won c = improvementChance base won c' := by
  rw [improvementChance, improvementChance, hattacker, hdefender]

/-- The infrastructure of the largest city is all that the ceiling of the damage reads. -/
theorem infraCap_congr {d d' : Profile} (h : d'.highestCityInfra = d.highestCityInfra)
    (share flat : Binary64) : infraCap share flat d = infraCap share flat d' := by
  rw [infraCap, infraCap, h]

/-! ## Ground battles -/

section Ground

variable (order : GroundOrder)

/-- The forces are made of counts, the residents and the strengths of tanks. -/
theorem muster_eq (h : SameOutside group r s) (hair : group ≠ .airSuperiority)
    (hpopulation : group ≠ .population) :
    GroundForces.muster order s.defender s.factors
      = GroundForces.muster order r.defender r.factors := by
  simp only [GroundForces.muster, h.soldiers, h.tanks, h.population hpopulation,
    h.attackerTankStrength hair, h.defenderTankStrength hair]

theorem agrees_groundDefeat (h : SameOutside group r s) (rounds : List GroundRolls) :
    Agrees group .ground (groundDefeat order r.defender r.factors rounds)
      (groundDefeat order s.defender s.factors rounds) := by
  refine .of_losses h rfl (fun hcasualty => ?_) fun hcasualty => ?_
  · simp only [groundDefeat, groundLosses, hcasualty]
  · simp only [groundDefeat, groundLosses, h.soldiers, h.tanks, hcasualty]

theorem agrees_groundVictory (h : SameOutside group r s) (hair : group ≠ .airSuperiority)
    (hpopulation : group ≠ .population) (rounds : List GroundRolls)
    (variances : Binary64 × Binary64) :
    Agrees group .ground (groundVictory order r.defender r.context r.factors rounds variances)
      (groundVictory order s.defender s.context s.factors rounds variances) := by
  have hdefeat := agrees_groundDefeat order h rounds
  refine
    { roundsWon := fun _ => rfl
      attackerLosses := hdefeat.attackerLosses
      defenderLosses := fun htouch => ?_
      defenderForces := hdefeat.defenderForces
      infraDestroyed := fun htouch => ?_
      moneyLooted := fun htouch => ?_
      improvementChance := fun htouch => ?_
      moneyDestroyed := rfl }
  · have hcontrol := h.groundControl (ne_of_touches htouch rfl)
    simp only [groundVictory, hdefeat.defenderLosses htouch, groundControlLoss, hcontrol,
      h.aircraft]
  · have hcap := h.highestCityInfra (ne_of_touches htouch rfl)
    have hfactor := h.infraMultiplier (ne_of_touches htouch rfl) (ne_of_touches htouch rfl)
    simp only [groundVictory, groundInfra, groundPressure, muster_eq order h hair hpopulation,
      infraCap_congr hcap, hfactor, h.tanks]
  · have hcash := h.money (ne_of_touches htouch rfl)
    have hfactor := h.lootMultiplier (ne_of_touches htouch rfl)
    simp only [groundVictory, groundLoot, rawLoot, hcash, hfactor]
  · have hattacker := h.attackerPolicy (ne_of_touches htouch rfl)
    have hdefender := h.defenderPolicy (ne_of_touches htouch rfl)
    exact congrArg some (improvementChance_congr hattacker hdefender _ _)

theorem lockstep_groundTrial (h : SameOutside group r s) (hair : group ≠ .airSuperiority)
    (hpopulation : group ≠ .population) :
    Draw.Lockstep (Agrees group .ground) (groundTrial order r.defender r.context r.factors)
      (groundTrial order s.defender s.context s.factors) := by
  by_cases hidle : order.soldiers = 0 ∧ order.tanks = 0
  · rw [groundTrial, groundTrial, if_pos hidle, if_pos hidle]
    exact .pure (.refl _ _ _)
  · rw [groundTrial_eq_score _ _ _ _ hidle, groundTrial_eq_score _ _ _ _ hidle,
      muster_eq order h hair hpopulation]
    exact Fight.lockstep_score_of_forall (agrees_groundDefeat order h)
      (agrees_groundVictory order h hair hpopulation)

end Ground

/-! ## Air strikes -/

section Air

variable (order : AirOrder)

theorem agrees_airDefeat (h : SameOutside group r s) (rounds : List DuelRolls) :
    Agrees group .air (airDefeat order r.defender r.factors rounds)
      (airDefeat order s.defender s.factors rounds) := by
  refine .of_losses h rfl (fun hcasualty => ?_) fun hcasualty => ?_
  · simp only [airDefeat, hcasualty]
  · simp only [airDefeat, hcasualty, h.aircraft]

/-- The attrition reads counts and the casualties of the defender. -/
theorem airLosses_eq (h : SameOutside group r s) (hblitz : group ≠ .blitz)
    (rounds : List DuelRolls) (attrition : Option Binary64) :
    airLosses order r.defender r.factors rounds attrition
      = airLosses order s.defender s.factors rounds attrition := by
  have havailable : order.target.available s.defender = order.target.available r.defender := by
    cases order.target with
    | soldiers => exact h.soldiers
    | tanks => exact h.tanks
    | ships => exact h.ships
    | _ => rfl
  simp only [airLosses, airDefeat, unitAttrition, havailable, h.aircraft,
    h.defenderCasualty hblitz]

theorem agrees_airVictory (h : SameOutside group r s) (rounds : List DuelRolls)
    (variances : Option Binary64 × Binary64) :
    Agrees group .air (airVictory order r.defender r.factors rounds variances)
      (airVictory order s.defender s.factors rounds variances) := by
  have hlosses (hreach : group ≠ .blitz) :
      (airVictory order r.defender r.factors rounds variances).defenderLosses
        = (airVictory order s.defender s.factors rounds variances).defenderLosses :=
    airLosses_eq order h hreach rounds variances.1
  refine
    { roundsWon := fun _ => rfl
      attackerLosses := (agrees_airDefeat order h rounds).attackerLosses
      defenderLosses := fun htouch => hlosses (ne_of_touches htouch rfl)
      defenderForces := fun htouch => ?_
      infraDestroyed := fun htouch => ?_
      moneyLooted := fun _ => rfl
      improvementChance := fun _ => rfl
      moneyDestroyed := rfl }
  · rw [hlosses (ne_of_touches htouch rfl)]
    exact ⟨rfl, rfl, rfl⟩
  · have hcap := h.highestCityInfra (ne_of_touches htouch rfl)
    have hfactor := h.infraMultiplier (ne_of_touches htouch rfl) (ne_of_touches htouch rfl)
    simp only [airVictory, airInfra, infraCap_congr hcap, hfactor, h.aircraft]

theorem lockstep_airTrial (h : SameOutside group r s) :
    Draw.Lockstep (Agrees group .air) (airTrial order r.defender r.factors)
      (airTrial order s.defender s.factors) := by
  by_cases hidle : order.aircraft = 0
  · rw [airTrial, airTrial, if_pos hidle, if_pos hidle]
    exact .pure (.refl _ _ _)
  · rw [airTrial_eq_score _ _ _ hidle, airTrial_eq_score _ _ _ hidle, h.aircraft]
    exact Fight.lockstep_score_of_forall (agrees_airDefeat order h) (agrees_airVictory order h)

end Air

/-! ## Naval battles -/

section Naval

variable (ships : UInt64)

theorem agrees_navalDefeat (h : SameOutside group r s) (rounds : List DuelRolls) :
    Agrees group .naval (navalDefeat ships r.defender r.factors rounds)
      (navalDefeat ships s.defender s.factors rounds) := by
  refine .of_losses h rfl (fun hcasualty => ?_) fun hcasualty => ?_
  · simp only [navalDefeat, hcasualty]
  · simp only [navalDefeat, hcasualty, h.ships]

theorem agrees_navalVictory (h : SameOutside group r s) (rounds : List DuelRolls)
    (variance : Binary64) :
    Agrees group .naval (navalVictory ships r.defender r.context r.factors rounds variance)
      (navalVictory ships s.defender s.context s.factors rounds variance) := by
  have hdefeat := agrees_navalDefeat ships h rounds
  refine
    { roundsWon := fun _ => rfl
      attackerLosses := hdefeat.attackerLosses
      defenderLosses := hdefeat.defenderLosses
      defenderForces := hdefeat.defenderForces
      infraDestroyed := fun htouch => ?_
      moneyLooted := fun _ => rfl
      improvementChance := fun htouch => ?_
      moneyDestroyed := rfl }
  · have hcap := h.highestCityInfra (ne_of_touches htouch rfl)
    have hfactor := h.infraMultiplier (ne_of_touches htouch rfl) (ne_of_touches htouch rfl)
    simp only [navalVictory, navalInfra, infraCap_congr hcap, hfactor, h.ships]
  · have hattacker := h.attackerPolicy (ne_of_touches htouch rfl)
    have hdefender := h.defenderPolicy (ne_of_touches htouch rfl)
    exact congrArg some (improvementChance_congr hattacker hdefender _ _)

theorem lockstep_navalTrial (h : SameOutside group r s) :
    Draw.Lockstep (Agrees group .naval) (navalTrial ships r.defender r.context r.factors)
      (navalTrial ships s.defender s.context s.factors) := by
  by_cases hidle : ships = 0
  · rw [navalTrial, navalTrial, if_pos hidle, if_pos hidle]
    exact .pure (.refl _ _ _)
  · rw [navalTrial_eq_score _ _ _ _ hidle, navalTrial_eq_score _ _ _ _ hidle, h.ships]
    exact Fight.lockstep_score_of_forall (agrees_navalDefeat ships h) (agrees_navalVictory ships h)

end Naval

end BattleOdds
