import BattleOdds.Proofs.Trial.Ceilings
import BattleOdds.Proofs.Trial.Dependence

/-!
# Raised factors

What is drawn in a trial does not depend on the factors of casualties and of infrastructure, so
trials under factors that differ in these alone fight one fight. Where the factors are raised,
multiplying by them and clamping keep the order: no unit loss on either side falls, nor does the
destroyed infrastructure. The cap of a strike's attrition comes before the factor, so it is the same
for both.
-/
namespace BattleOdds
open Binary64

/-- The factors of casualties and of infrastructure are raised, those of forces are the same. -/
structure Factors.Raised (f f' : Factors) : Prop where
  positive : f.Positive
  attackerTankStrength : f'.attackerTankStrength = f.attackerTankStrength
  defenderTankStrength : f'.defenderTankStrength = f.defenderTankStrength
  attackerCasualty : Raises f.attackerCasualty f'.attackerCasualty
  defenderCasualty : Raises f.defenderCasualty f'.defenderCasualty
  infraMultiplier : Raises f.infraMultiplier f'.infraMultiplier

/-- No loss of units and no destroyed infrastructure exceeds that of another result. -/
structure TrialResult.Under (x y : TrialResult) : Prop where
  attackerLosses (unit : UnitType) :
    Binary64.Under (x.attackerLosses.of unit) (y.attackerLosses.of unit)
  defenderLosses (unit : UnitType) :
    Binary64.Under (x.defenderLosses.of unit) (y.defenderLosses.of unit)
  infraDestroyed : Binary64.Under x.infraDestroyed y.infraDestroyed

section Order

variable {factors factors' : Factors} {defender : Profile} {context : Context}
variable {x y c d : Binary64}

/-! ## Losses and effects -/

theorem under_clampLoss (h : Under x y) (available : UInt64) :
    Under (clampLoss x available) (clampLoss y available) :=
  ⟨(isLoss_clampLoss h.nonNegative available).small.nonNegative,
    clamp_le_clamp h.le (small_ofUInt64 available).nonNegative.zero_le⟩

theorem under_loss (hx : NonNegative x) (hcd : Raises c d) (available : UInt64) :
    Under (clampLoss (x * c) available) (clampLoss (x * d) available) :=
  under_clampLoss ((Under.refl hx).mul hcd) available

theorem under_capped (raw cap : Binary64) (hcd : Raises c d) :
    Under (capped raw cap * c) (capped raw cap * d) :=
  (Under.refl (nonNegative_max_zero _)).mul hcd

theorem under_idleResult (action : Action) : action.idleResult.Under action.idleResult where
  attackerLosses unit := by
    cases action <;> cases unit <;> exact Under.zero
  defenderLosses unit := by
    cases action <;> cases unit <;> exact Under.zero
  infraDestroyed := by cases action <;> exact Under.zero

/-! ## Ground battles -/

section Ground

variable (order : GroundOrder)

theorem Factors.Raised.muster_eq (h : factors.Raised factors') (defender : Profile) :
    GroundForces.muster order defender factors' = GroundForces.muster order defender factors := by
  simp only [GroundForces.muster, h.attackerTankStrength, h.defenderTankStrength]

theorem under_groundDefeat (h : factors.Raised factors') {rounds : List GroundRolls}
    (hrounds : ∀ r ∈ rounds, r.NonNegative) :
    (groundDefeat order defender factors rounds).Under
      (groundDefeat order defender factors' rounds) where
  attackerLosses unit := by
    have htoll := nonNegative_groundToll hrounds
    cases unit with
    | soldiers => exact under_loss htoll.attackerSoldiers h.attackerCasualty _
    | tanks => exact under_loss htoll.attackerTanks h.attackerCasualty _
    | aircraft => exact Under.zero
    | ships => exact Under.zero
  defenderLosses unit := by
    have htoll := nonNegative_groundToll hrounds
    cases unit with
    | soldiers => exact under_loss htoll.defenderSoldiers h.defenderCasualty _
    | tanks => exact under_loss htoll.defenderTanks h.defenderCasualty _
    | aircraft => exact Under.zero
    | ships => exact Under.zero
  infraDestroyed := Under.zero

theorem under_groundVictory (h : factors.Raised factors') {rounds : List GroundRolls}
    (variances : Binary64 × Binary64) (hrounds : ∀ r ∈ rounds, r.NonNegative) :
    (groundVictory order defender context factors rounds variances).Under
      (groundVictory order defender context factors' rounds variances) := by
  have hdefeat : (groundDefeat order defender factors rounds).Under
      (groundDefeat order defender factors' rounds) := under_groundDefeat order h hrounds
  refine ⟨hdefeat.attackerLosses, fun unit => ?_, ?_⟩
  · cases unit with
    | soldiers => exact hdefeat.defenderLosses .soldiers
    | tanks => exact hdefeat.defenderLosses .tanks
    | aircraft =>
      -- The loss on the ground reads no factor: it is one figure for both.
      have hloss : IsLoss (groundControlLoss order defender context.groundControl
          (rounds.countP GroundRolls.attackerWon)) defender.aircraft :=
        isLoss_groundControlLoss order _
      have hsame := Under.refl hloss.small.nonNegative
      exact hsame
    | ships => exact hdefeat.defenderLosses .ships
  · simp only [groundVictory, groundInfra, h.muster_eq]
    exact under_capped _ _ h.infraMultiplier

theorem lockstep_groundTrial_of_raised (h : factors.Raised factors')
    (hidle : ¬ (order.soldiers = 0 ∧ order.tanks = 0)) :
    Draw.Lockstep TrialResult.Under (groundTrial order defender context factors)
      (groundTrial order defender context factors') := by
  rw [groundTrial_eq_score _ _ _ _ hidle, groundTrial_eq_score _ _ _ _ hidle, h.muster_eq]
  exact Fight.lockstep_score (yields_roll (nonNegative_muster h.positive order defender))
    (fun rounds => under_groundDefeat order h)
    (fun rounds variances => under_groundVictory order h variances)

end Ground

/-! ## Air strikes -/

section Air

variable (order : AirOrder)

theorem under_airDefeat (h : factors.Raised factors') {rounds : List DuelRolls}
    (hrounds : ∀ r ∈ rounds, r.NonNegative) :
    (airDefeat order defender factors rounds).Under
      (airDefeat order defender factors' rounds) where
  attackerLosses unit := by
    cases unit with
    | aircraft =>
      have htoll := nonNegative_duelToll (factor_lossRates order.target).1 fun r hr =>
        (hrounds r hr).defender
      exact under_loss htoll h.attackerCasualty _
    | _ => exact Under.zero
  defenderLosses unit := by
    cases unit with
    | aircraft =>
      have htoll := nonNegative_duelToll (factor_lossRates order.target).2 fun r hr =>
        (hrounds r hr).attacker
      exact under_loss htoll h.defenderCasualty _
    | _ => exact Under.zero
  infraDestroyed := Under.zero

/-- The factor of casualties comes after the cap of the attrition. -/
theorem under_unitAttrition (h : factors.Raised factors') {target : AirTarget}
    {profile : AttritionProfile} (hprofile : target.attrition? = some profile) (available : UInt64)
    (won : ℕ) (variance : Binary64) :
    Under (unitAttrition order defender available profile factors won variance)
      (unitAttrition order defender available profile factors' won variance) := by
  have hdestroyed := small_capped_units hprofile
    (netForce order.aircraft (ofUInt64 defender.aircraft) * profile.perAircraft * variance)
    available
  have hearned := hdestroyed.mul (small_attritionShare won)
  exact under_loss hearned.nonNegative h.defenderCasualty available

theorem under_bookAttrition (target : AirTarget) {losses losses' : UnitLosses}
    (hlosses : ∀ unit, Under (losses.of unit) (losses'.of unit))
    (h : Under x y) (unit : UnitType) :
    Under ((bookAttrition target losses x).of unit)
      ((bookAttrition target losses' y).of unit) := by
  have hsoldiers := hlosses .soldiers
  have htanks := hlosses .tanks
  have haircraft := hlosses .aircraft
  have hships := hlosses .ships
  cases target <;> cases unit <;> assumption

theorem under_airLosses (h : factors.Raised factors') {rounds : List DuelRolls}
    (attrition : Option Binary64) (hrounds : ∀ r ∈ rounds, r.NonNegative) (unit : UnitType) :
    Under ((airLosses order defender factors rounds attrition).of unit)
      ((airLosses order defender factors' rounds attrition).of unit) := by
  have hdefeat : (airDefeat order defender factors rounds).Under
      (airDefeat order defender factors' rounds) := under_airDefeat order h hrounds
  unfold airLosses
  split
  case h_1 profile variance hprofile =>
    exact under_bookAttrition order.target hdefeat.defenderLosses
      (under_unitAttrition order h hprofile _ _ variance) unit
  case h_2 => exact hdefeat.defenderLosses unit

theorem under_airInfra (h : factors.Raised factors') (won : ℕ) (variance : Binary64) :
    Under (airInfra order defender factors won variance)
      (airInfra order defender factors' won variance) := by
  have hthree : Factor 3.0 := .const (by decide)
  unfold airInfra
  split
  · exact under_capped _ _ h.infraMultiplier
  · exact (under_capped _ _ h.infraMultiplier).div hthree.isFinite hthree.value_pos

theorem under_airVictory (h : factors.Raised factors') {rounds : List DuelRolls}
    (variances : Option Binary64 × Binary64) (hrounds : ∀ r ∈ rounds, r.NonNegative) :
    (airVictory order defender factors rounds variances).Under
      (airVictory order defender factors' rounds variances) := by
  have hdefeat : (airDefeat order defender factors rounds).Under
      (airDefeat order defender factors' rounds) := under_airDefeat order h hrounds
  exact ⟨hdefeat.attackerLosses, under_airLosses order h variances.1 hrounds,
    under_airInfra order h _ variances.2⟩

theorem lockstep_airTrial_of_raised (h : factors.Raised factors') (hidle : order.aircraft ≠ 0) :
    Draw.Lockstep TrialResult.Under (airTrial order defender factors)
      (airTrial order defender factors') := by
  have hstrength : Factor aircraftStrength := .const (by decide)
  rw [airTrial_eq_score _ _ _ hidle, airTrial_eq_score _ _ _ hidle]
  exact Fight.lockstep_score
    (yields_duelRound (nonNegative_strength _ hstrength) (nonNegative_strength _ hstrength))
    (fun rounds => under_airDefeat order h)
    (fun rounds variances => under_airVictory order h variances)

end Air

/-! ## Naval battles -/

section Naval

variable (ships : UInt64)

theorem under_navalDefeat (h : factors.Raised factors') {rounds : List DuelRolls}
    (hrounds : ∀ r ∈ rounds, r.NonNegative) :
    (navalDefeat ships defender factors rounds).Under
      (navalDefeat ships defender factors' rounds) where
  attackerLosses unit := by
    cases unit with
    | ships =>
      have hrate : Factor shipLossRate := .const (by decide)
      have htoll := nonNegative_duelToll hrate fun r hr => (hrounds r hr).defender
      exact under_loss htoll h.attackerCasualty _
    | _ => exact Under.zero
  defenderLosses unit := by
    cases unit with
    | ships =>
      have hrate : Factor shipLossRate := .const (by decide)
      have htoll := nonNegative_duelToll hrate fun r hr => (hrounds r hr).attacker
      exact under_loss htoll h.defenderCasualty _
    | _ => exact Under.zero
  infraDestroyed := Under.zero

theorem under_navalVictory (h : factors.Raised factors') {rounds : List DuelRolls}
    (variance : Binary64) (hrounds : ∀ r ∈ rounds, r.NonNegative) :
    (navalVictory ships defender context factors rounds variance).Under
      (navalVictory ships defender context factors' rounds variance) := by
  have hdefeat : (navalDefeat ships defender factors rounds).Under
      (navalDefeat ships defender factors' rounds) := under_navalDefeat ships h hrounds
  exact ⟨hdefeat.attackerLosses, hdefeat.defenderLosses, under_capped _ _ h.infraMultiplier⟩

theorem lockstep_navalTrial_of_raised (h : factors.Raised factors') (hidle : ships ≠ 0) :
    Draw.Lockstep TrialResult.Under (navalTrial ships defender context factors)
      (navalTrial ships defender context factors') := by
  have hstrength : Factor shipStrength := .const (by decide)
  rw [navalTrial_eq_score _ _ _ _ hidle, navalTrial_eq_score _ _ _ _ hidle]
  exact Fight.lockstep_score
    (yields_duelRound (nonNegative_strength _ hstrength) (nonNegative_strength _ hstrength))
    (fun rounds => under_navalDefeat ships h)
    (fun rounds variance => under_navalVictory ships h variance)

end Naval

/-- Raised factors keep the trials of an action in lockstep, each result under the other. -/
theorem lockstep_trial_of_raised (h : factors.Raised factors') (action : Action) :
    Draw.Lockstep TrialResult.Under (action.trial defender context factors)
      (action.trial defender context factors') := by
  by_cases hidle : action.Idle
  · rw [Action.trial_of_idle hidle, Action.trial_of_idle hidle]
    exact .pure (under_idleResult action)
  · cases action with
    | ground soldiers tanks armed =>
      exact lockstep_groundTrial_of_raised ⟨soldiers, tanks, armed⟩ h
        (mt Action.idle_ground.mpr hidle)
    | air aircraft target =>
      exact lockstep_airTrial_of_raised ⟨aircraft, target⟩ h (mt Action.idle_air.mpr hidle)
    | naval ships => exact lockstep_navalTrial_of_raised ships h (mt Action.idle_naval.mpr hidle)

end Order

end BattleOdds
