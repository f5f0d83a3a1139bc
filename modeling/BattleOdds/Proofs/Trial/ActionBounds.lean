import BattleOdds.Proofs.Trial.GroundBounds

/-!
# Bounds on duels and on the trial of any action

The strengths of a duel are counts, so its rolls are finite; only how they add up and what is set
against what needs an argument. The factors of any context are positive, so the bounds on the three
kinds of trial hold for every action against every defender.
-/
namespace BattleOdds
open Binary64

variable {x c : Binary64} {won : ℕ}
variable {factors : Factors} {defender : Profile} {context : Context}

/-- The rolls of a round are non-negative numbers. -/
structure DuelRolls.NonNegative (r : DuelRolls) : Prop where
  attacker : Binary64.NonNegative r.attacker
  defender : Binary64.NonNegative r.defender

theorem yields_duelRound {attacker defender : Binary64} (hattacker : NonNegative attacker)
    (hdefender : NonNegative defender) :
    Draw.Yields (duelRound attacker defender) DuelRolls.NonNegative := by
  refine (Draw.yields_forceRoll hattacker).bind fun _ h₁ => ?_
  refine (Draw.yields_forceRoll hdefender).bind fun _ h₂ => ?_
  exact .pure ⟨h₁, h₂⟩

theorem nonNegative_strength (count : UInt64) (hc : Factor c) :
    NonNegative (ofUInt64 count * c) := (small_ofUInt64 count).nonNegative.mul hc

theorem nonNegative_duelToll {roll : DuelRolls → Binary64} {rate : Binary64}
    {rounds : List DuelRolls} (hrate : Factor rate) (h : ∀ r ∈ rounds, NonNegative (roll r)) :
    NonNegative (duelToll roll rate rounds) := by
  suffices hfrom : ∀ toll, NonNegative toll →
      NonNegative (rounds.foldl (fun toll r => toll + roll r * rate) toll) from
    hfrom 0.0 nonNegative_zero
  induction rounds with
  | nil => exact fun toll htoll => htoll
  | cons r rounds ih =>
    intro toll htoll
    exact ih (fun q hq => h q (List.mem_cons_of_mem r hq)) _
      (htoll.add ((h r List.mem_cons_self).mul hrate))

/-- Losses of one type of unit. -/
def UnitLosses.only (unit : UnitType) (x : Binary64) : UnitLosses :=
  match unit with
  | .soldiers => { soldiers := x }
  | .tanks => { tanks := x }
  | .aircraft => { aircraft := x }
  | .ships => { ships := x }

theorem UnitLosses.of_only (unit other : UnitType) (x : Binary64) :
    (only unit x).of other = if other = unit then x else 0.0 := by
  cases unit <;> cases other <;> rfl

/-- What the rolls of the other side cost is no more than there is. -/
theorem isLoss_duelToll {roll : DuelRolls → Binary64} {rate casualty : Binary64}
    {rounds : List DuelRolls} (hrate : Factor rate) (hcasualty : Factor casualty)
    (h : ∀ r ∈ rounds, NonNegative (roll r)) (available : UInt64) :
    IsLoss (clampLoss (duelToll roll rate rounds * casualty) available) available :=
  isLoss_clampLoss ((nonNegative_duelToll hrate h).mul hcasualty) available

/-- A fight between units of one type that destroys nothing else stays within bounds if either side
loses no more of them than it has. -/
theorem withinBounds_of_only {action : Action} {result : TrialResult} (unit : UnitType) {n : UInt64}
    {x y : Binary64} (hcommitted : action.committed = [(unit, n)]) (hwon : result.roundsWon ≤ 3)
    (hattacker : result.attackerLosses = .only unit x) (hx : IsLoss x n)
    (hdefender : result.defenderLosses = .only unit y) (hy : IsLoss y (defender.count unit))
    (hinfra : result.infraDestroyed = 0.0) (hloot : result.moneyLooted = none)
    (hchance : ∀ c ∈ result.improvementChance, c = 0.0)
    (hdestroyed : result.moneyDestroyed = none) :
    result.WithinBounds action defender where
  roundsWon_le := hwon
  attackerLosses other m h := by
    rw [hcommitted, List.lookup_cons] at h
    rw [hattacker, UnitLosses.of_only]
    by_cases hother : other = unit
    · obtain rfl : n = m := by simpa [hother] using h
      rwa [if_pos hother]
    · rw [beq_false_of_ne hother] at h
      cases h
  uncommitted other h := by
    rw [hcommitted, List.lookup_cons] at h
    rw [hattacker, UnitLosses.of_only]
    by_cases hother : other = unit
    · simp [hother] at h
    · exact if_neg hother
  defenderLosses other := by
    rw [hdefender, UnitLosses.of_only]
    split
    case isTrue hother => exact hother ▸ hy
    case isFalse => exact isLoss_zero _
  infraDestroyed := hinfra ▸ isAmount_zero
  moneyLooted loot h := by cases hloot.symm.trans h
  improvementChance c h := by
    rw [hchance c h]
    decide
  moneyDestroyed := hdestroyed

/-! ## Air strikes -/

theorem factor_lossRates (target : AirTarget) :
    Factor target.lossRates.attacker ∧ Factor target.lossRates.defender := by
  cases target <;> exact ⟨.const (by decide), .const (by decide)⟩

theorem factor_perAircraft {target : AirTarget} {profile : AttritionProfile}
    (h : target.attrition? = some profile) : Factor profile.perAircraft := by
  cases target <;> cases h <;> exact .const (by decide)

theorem small_attritionShare (won : ℕ) : Small 6 (attritionShare won) := by
  unfold attritionShare
  split
  · exact .const (by decide)
  · exact .const (by decide)
  · exact .const (by decide)
  · exact Small.zero

theorem isLoss_unitAttrition (hf : factors.Positive) (order : AirOrder) (available : UInt64)
    {profile : AttritionProfile} (hprofile : Factor profile.perAircraft) (hc : Factor c) :
    IsLoss (unitAttrition order defender available profile factors won c) available := by
  have hnet := (bounded_netForce order.aircraft defender.aircraft).atMost
  have hraw := (hnet.mul hprofile).mul hc
  have hdestroyed : Small 82 (capped ((netForce order.aircraft (ofUInt64 defender.aircraft)
      * profile.perAircraft * c).min (ofUInt64 available)) (profile.softCap available)) :=
    small_capped hraw.min
  have hshare := hdestroyed.mul (small_attritionShare won)
  exact isLoss_clampLoss (hshare.nonNegative.mul hf.defenderCasualty) available

theorem small_airInfra (hf : factors.Positive) (order : AirOrder) (hwon : won ≠ 0)
    (hle : won ≤ 3) (hc : Factor c) : Small 112 (airInfra order defender factors won c) := by
  have hnet := (bounded_netForce order.aircraft defender.aircraft).atMost
  have hrate : Factor 0.35353535 := .const (by decide)
  have hraw := ((hnet.mul hrate).mul hc).mul (factor_tierFraction hwon hle)
  have hdestroyed {cap : Binary64} := (small_capped hraw : Small _ (capped _ cap)).mul
    hf.infraMultiplier
  have hthree : Factor 3.0 := .const (by decide)
  unfold airInfra
  split
  · exact hdestroyed
  · exact hdestroyed.div hthree.isFinite (by decide)

theorem withinBounds_airDefeat (hf : factors.Positive) (order : AirOrder)
    {rounds : List DuelRolls} (hlength : rounds.length = roundCount)
    (hrounds : ∀ r ∈ rounds, r.NonNegative) :
    (airDefeat order defender factors rounds).WithinBounds (.air order.aircraft order.target)
      defender := by
  obtain ⟨hattacker, hdefender⟩ := factor_lossRates order.target
  have hlost := isLoss_duelToll hattacker hf.attackerCasualty
    (fun r hr => (hrounds r hr).defender) order.aircraft
  have hdestroyed := isLoss_duelToll hdefender hf.defenderCasualty
    (fun r hr => (hrounds r hr).attacker) defender.aircraft
  exact withinBounds_of_only .aircraft rfl (countP_le_three hlength _) rfl hlost rfl
    hdestroyed rfl rfl nofun rfl

/-- Only the losses of the units that are the target are replaced, and these fight no duel. -/
theorem isLoss_bookAttrition {target : AirTarget} {losses : UnitLosses} {destroyed : Binary64}
    (hlosses : ∀ unit, IsLoss (losses.of unit) (defender.count unit))
    (h : IsLoss destroyed (target.available defender)) (unit : UnitType) :
    IsLoss ((bookAttrition target losses destroyed).of unit) (defender.count unit) := by
  cases target with
  | soldiers =>
    cases unit with
    | soldiers => exact h
    | tanks => exact hlosses .tanks
    | aircraft => exact hlosses .aircraft
    | ships => exact hlosses .ships
  | tanks =>
    cases unit with
    | soldiers => exact hlosses .soldiers
    | tanks => exact h
    | aircraft => exact hlosses .aircraft
    | ships => exact hlosses .ships
  | ships =>
    cases unit with
    | soldiers => exact hlosses .soldiers
    | tanks => exact hlosses .tanks
    | aircraft => exact hlosses .aircraft
    | ships => exact h
  | _ => exact hlosses unit

theorem isLoss_airLosses (hf : factors.Positive) (order : AirOrder) {rounds : List DuelRolls}
    (hlength : rounds.length = roundCount) (hrounds : ∀ r ∈ rounds, r.NonNegative)
    {attrition : Option Binary64} (hattrition : ∀ c, attrition = some c → Factor c)
    (unit : UnitType) :
    IsLoss ((airLosses order defender factors rounds attrition).of unit) (defender.count unit) := by
  have hdefeat : (airDefeat order defender factors rounds).WithinBounds
      (.air order.aircraft order.target) defender := withinBounds_airDefeat hf order hlength hrounds
  unfold airLosses
  split
  case h_1 profile c hprofile =>
    refine isLoss_bookAttrition hdefeat.defenderLosses ?_ unit
    exact isLoss_unitAttrition hf order _ (factor_perAircraft hprofile) (hattrition c rfl)
  case h_2 => exact hdefeat.defenderLosses unit

theorem withinBounds_airVictory (hf : factors.Positive) (order : AirOrder)
    {rounds : List DuelRolls} {variances : Option Binary64 × Binary64}
    (hlength : rounds.length = roundCount) (hrounds : ∀ r ∈ rounds, r.NonNegative)
    (hwon : rounds.countP DuelRolls.attackerWon ≠ 0)
    (hvariances : (∀ c, variances.1 = some c → Factor c) ∧ Factor variances.2) :
    (airVictory order defender factors rounds variances).WithinBounds
      (.air order.aircraft order.target) defender := by
  have hdefeat : (airDefeat order defender factors rounds).WithinBounds
      (.air order.aircraft order.target) defender := withinBounds_airDefeat hf order hlength hrounds
  have hle := countP_le_three hlength DuelRolls.attackerWon
  exact
    { hdefeat with
      defenderLosses := isLoss_airLosses hf order hlength hrounds hvariances.1
      infraDestroyed := (small_airInfra hf order hwon hle hvariances.2).isAmount }

theorem yields_attritionDraw (target : AirTarget) :
    Draw.Yields target.attritionDraw fun attrition => ∀ c, attrition = some c → Factor c := by
  unfold AirTarget.attritionDraw
  split
  · refine Draw.yields_variance.map fun c hc => ?_
    rintro _ ⟨⟩
    exact hc
  · exact .pure fun c h => by cases h

/-- The variances of the attrition, if there is any, and of the damage are factors. -/
theorem yields_airVariances (target : AirTarget) :
    Draw.Yields (do
      let attrition ← target.attritionDraw
      let damage ← Draw.variance
      return (attrition, damage))
      fun variances => (∀ c, variances.1 = some c → Factor c) ∧ Factor variances.2 :=
  (yields_attritionDraw target).bind fun _ hattrition =>
    Draw.yields_variance.bind fun _ hdamage => .pure ⟨hattrition, hdamage⟩

theorem withinBounds_airTrial (hf : factors.Positive) (order : AirOrder) :
    Draw.Yields (airTrial order defender factors)
      (TrialResult.WithinBounds (.air order.aircraft order.target) defender) := by
  by_cases h : order.aircraft = 0
  · rw [airTrial, if_pos h]
    exact .pure (withinBounds_of_idle _ _ rfl rfl rfl rfl (fun x h => by cases h)
      (fun x h => by cases h) rfl)
  · have hstrength : Factor aircraftStrength := .const (by decide)
    rw [airTrial_eq_score _ _ _ h]
    exact Fight.yields_score
      (yields_duelRound (nonNegative_strength _ hstrength) (nonNegative_strength _ hstrength))
      (yields_airVariances order.target) (fun rounds => withinBounds_airDefeat hf order)
      (fun rounds variances => withinBounds_airVictory hf order)

/-! ## Naval battles -/

theorem small_navalInfra (hf : factors.Positive) (ships : UInt64) (hwon : won ≠ 0)
    (hle : won ≤ 3) (hc : Factor c) : Small 112 (navalInfra ships defender factors won c) := by
  have hnet := (bounded_netForce ships defender.ships).atMost
  have hrate : Factor 2.625 := .const (by decide)
  have hraw := ((hnet.mul hrate).mul hc).mul (factor_tierFraction hwon hle)
  exact (small_capped hraw).mul hf.infraMultiplier

theorem withinBounds_navalDefeat (hf : factors.Positive) (ships : UInt64)
    {rounds : List DuelRolls} (hlength : rounds.length = roundCount)
    (hrounds : ∀ r ∈ rounds, r.NonNegative) :
    (navalDefeat ships defender factors rounds).WithinBounds (.naval ships) defender := by
  have hrate : Factor shipLossRate := .const (by decide)
  have hlost := isLoss_duelToll hrate hf.attackerCasualty
    (fun r hr => (hrounds r hr).defender) ships
  have hdestroyed := isLoss_duelToll hrate hf.defenderCasualty
    (fun r hr => (hrounds r hr).attacker) defender.ships
  refine withinBounds_of_only .ships rfl (countP_le_three hlength _) rfl hlost rfl
    hdestroyed rfl rfl ?_ rfl
  rintro x ⟨⟩
  rfl

theorem withinBounds_navalVictory (hf : factors.Positive) (ships : UInt64)
    {rounds : List DuelRolls} {variance : Binary64} (hlength : rounds.length = roundCount)
    (hrounds : ∀ r ∈ rounds, r.NonNegative) (hwon : rounds.countP DuelRolls.attackerWon ≠ 0)
    (hvariance : Factor variance) :
    (navalVictory ships defender context factors rounds variance).WithinBounds (.naval ships)
      defender := by
  have hdefeat : (navalDefeat ships defender factors rounds).WithinBounds (.naval ships) defender :=
    withinBounds_navalDefeat hf ships hlength hrounds
  have hle := countP_le_three hlength DuelRolls.attackerWon
  refine
    { hdefeat with
      infraDestroyed := (small_navalInfra hf ships hwon hle hvariance).isAmount
      improvementChance := ?_ }
  rintro x ⟨⟩
  exact improvementChance_mem (.const (by decide)) context

theorem withinBounds_navalTrial (hf : factors.Positive) (ships : UInt64) :
    Draw.Yields (navalTrial ships defender context factors)
      (TrialResult.WithinBounds (.naval ships) defender) := by
  by_cases h : ships = 0
  · rw [navalTrial, if_pos h]
    refine .pure (withinBounds_of_idle _ _ rfl rfl rfl rfl (fun x h => by cases h) ?_ rfl)
    rintro x ⟨⟩
    rfl
  · have hstrength : Factor shipStrength := .const (by decide)
    rw [navalTrial_eq_score _ _ _ _ h]
    exact Fight.yields_score
      (yields_duelRound (nonNegative_strength _ hstrength) (nonNegative_strength _ hstrength))
      Draw.yields_variance (fun rounds => withinBounds_navalDefeat hf ships)
      (fun rounds variance => withinBounds_navalVictory hf ships)

/-! ## Actions -/

theorem withinBounds_trial {factors : Factors} (hf : factors.Positive) (action : Action)
    (defender : Profile) (context : Context) :
    Draw.Yields (action.trial defender context factors)
      (TrialResult.WithinBounds action defender) := by
  cases action with
  | ground soldiers tanks armed => exact withinBounds_groundTrial hf ⟨soldiers, tanks, armed⟩
  | air aircraft target => exact withinBounds_airTrial hf ⟨aircraft, target⟩
  | naval ships => exact withinBounds_navalTrial hf ships

/-- A trial stays within its bounds for any action, context, profiles and generator; no figure has
to be a number for it. -/
theorem trial_within_bounds (r : Request) (g : Generator) :
    TrialResult.WithinBounds r.action r.defender
      (r.action.trial r.defender r.context (.resolve r.context r.defender.isFortified) g).1 :=
  withinBounds_trial (Factors.positive_resolve _ _) r.action r.defender r.context g

end BattleOdds
