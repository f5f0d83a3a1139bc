import BattleOdds.Proofs.Trial.Ceilings
import BattleOdds.Proofs.Trial.Dependence

/-!
# War types

The type of a war enters a trial as two factors, one of damage and one of loot, each in the middle
of a chain of rounded products. A raw effect is either not positive, and then there is none, or far
from the least units and from overflow. There a power of two between the factors of two types passes
through policies, blitzes, the cap before it and the division after it, so it is the power of two
between their effects. Only known cash comes after the factor; it keeps the order of the loot.
-/
namespace BattleOdds
open Binary64

/-- The context of a war of another type. -/
def Context.inWar (c : Context) (war : WarType) : Context := { c with warType := war }

/-- A profile whose cash is not known. -/
def Profile.withoutCash (p : Profile) : Profile := { p with money := none }

/-- What the attacker takes of a loot where the cash is known. -/
def lootOf (cash loot : Binary64) : Binary64 := (loot.min (lootCap cash)).max 0.0

section Effects

variable {defender : Profile} {context : Context} {fortified : Bool} {war war' : WarType}
variable {raw cap x y c variance : Binary64} {n won : ℕ}

/-! ## Factors -/

theorem mild_ofNat (hwon : won ≠ 0) (hle : won ≤ 3) : Mild (ofNat won) := by
  interval_cases won
  · exact absurd rfl hwon
  all_goals exact .const (by decide)

theorem Draw.yields_within_mild {lo hi : Binary64} (hlo : Mild lo) (hhi : Mild hi) (hlt : lo < hi) :
    Yields (within lo hi) Mild :=
  (yields_within hlo.nonNegative hhi.isFinite hlt).mono fun _ h =>
    hlo.of_mem hhi ⟨h.1, le_of_lt h.2⟩

theorem Draw.yields_variance_mild : Yields Draw.variance Mild :=
  yields_within_mild (.const (by decide)) (.const (by decide)) (by decide)

/-- The factors of a context in a war of some type. -/
abbrev WarType.resolve (war : WarType) (context : Context) (fortified : Bool) : Factors :=
  .resolve (context.inWar war) fortified

section Multipliers

variable (context fortified)

theorem within_infraMultiplier (war : WarType) :
    Within 48 (war.resolve context fortified).infraMultiplier :=
  (((mild_warFactors war).1.within.mul (mild_infraBonus _).within (by omega)).mul
    (mild_infraExposure _).within (by omega)).mul (mild_blitzFactor _).within (by omega)

theorem within_lootMultiplier (war : WarType) :
    Within 36 (war.resolve context fortified).lootMultiplier :=
  ((mild_warFactors war).2.within.mul (mild_lootBonus _).within (by omega)).mul
    (mild_lootPenalty _).within (by omega)

/-- The policies and the blitz multiply the factors of both types alike. -/
theorem multiple_infraMultiplier (hc : PowerOfTwo c)
    (h : Multiple c war.factors.infra war'.factors.infra) :
    Multiple c (war.resolve context fortified).infraMultiplier
      (war'.resolve context fortified).infraMultiplier := by
  let chain (factor : Binary64) : Binary64 :=
    factor * context.attackerPolicy.infraBonus * context.defenderPolicy.infraExposure
      * blitzFactor context.attackerBlitz
  refine h.map (f := chain) (k := 48) hc (mild_warFactors war).1.within (fun j hj h => ?_)
    (by norm_num)
  exact ((h.mul (mild_infraBonus _).within (by omega)).mul (mild_infraExposure _).within
    (by omega)).mul (mild_blitzFactor _).within (by omega)

theorem multiple_lootMultiplier (hc : PowerOfTwo c)
    (h : Multiple c war.factors.loot war'.factors.loot) :
    Multiple c (war.resolve context fortified).lootMultiplier
      (war'.resolve context fortified).lootMultiplier := by
  let chain (factor : Binary64) : Binary64 :=
    factor * context.attackerPolicy.lootBonus * context.defenderPolicy.lootPenalty
  refine h.map (f := chain) (k := 36) hc (mild_warFactors war).2.within (fun j hj h => ?_)
    (by norm_num)
  exact (h.mul (mild_lootBonus _).within (by omega)).mul (mild_lootPenalty _).within (by omega)

theorem lootMultiplier_le (h : war.factors.loot ≤ war'.factors.loot) :
    (war.resolve context fortified).lootMultiplier
      ≤ (war'.resolve context fortified).lootMultiplier := by
  have hwar : Under war.factors.loot war'.factors.loot :=
    ⟨(mild_warFactors war).2.nonNegative, h⟩
  exact ((hwar.mul (.refl (mild_lootBonus _).toFactor)).mul
    (.refl (mild_lootPenalty _).toFactor)).le

end Multipliers

/-! ## Raw effects -/

theorem settled_netForce (attacking : UInt64) (h : NonNegative x) :
    Settled 117 (netForce attacking x) :=
  (settled_ofUInt64 attacking).sub ((small_ofUInt64 attacking).isFinite (by omega))
    (.factor_mul (.const (by decide)) h) (by omega)

theorem settled_groundPressure (order : GroundOrder) {forces : GroundForces}
    (h : NonNegative forces.effectiveDefenders) :
    Settled 182 (groundPressure order defender forces) := by
  have htanks : NonNegative (ofUInt64 defender.tanks) := (small_ofUInt64 _).nonNegative
  have hfinite : (netForce order.tanks (ofUInt64 defender.tanks) * 0.01).isFinite = true :=
    ((bounded_netForce order.tanks defender.tanks).mul (.const (by decide)) (by omega)).isFinite
      (by omega)
  have hsoldierRate : Mild 0.000606061 := .const (by decide)
  have htankRate : Mild 0.01 := .const (by decide)
  exact ((settled_netForce order.soldiers h).mul hsoldierRate.within (by omega)).add
    ((settled_netForce order.tanks htanks).mul htankRate.within (by omega)) hfinite (by omega)

/-- The loot of a battle with some rounds won before the type of the war has its effect. -/
def warlessLoot (order : GroundOrder) (won : ℕ) (variance : Binary64) : Binary64 :=
  let base := ofUInt64 order.soldiers * 1.1 + ofUInt64 order.tanks * 25.15
  base * ofNat won * variance

theorem settled_warlessLoot (order : GroundOrder) (hwon : won ≠ 0) (hle : won ≤ 3)
    (hvariance : Mild variance) : Settled 153 (warlessLoot order won variance) := by
  have hsoldierRate : Mild 1.1 := .const (by decide)
  have htankRate : Mild 25.15 := .const (by decide)
  have hfinite : (ofUInt64 order.tanks * 25.15).isFinite = true :=
    ((small_ofUInt64 order.tanks).mul htankRate.small (by omega)).isFinite (by omega)
  have hsum := ((settled_ofUInt64 order.soldiers).mul hsoldierRate.within (by omega)).add
    ((settled_ofUInt64 order.tanks).mul htankRate.within (by omega)) hfinite (by omega)
  exact (hsum.mul (mild_ofNat hwon hle).within (by omega)).mul hvariance.within (by omega)

/-- What is capped is nothing or settled: caps have a flat part of one and more. -/
theorem sparse_capped (h : Settled n raw) (hcap : 1.0 ≤ cap) : Sparse n (capped raw cap) := by
  rcases h with h | h
  · exact .inl (capped_of_le h)
  · have hone := value_le_of_le hcap
    rw [hasValue_one.value_eq] at hone
    have hmin := hasValue_min h.isNumber (isNaN_of_le hcap).2
    have hleast : (2 : ℚ) ^ (-n : ℤ) ≤ 1 := zpow_le_one_of_nonpos₀ (by norm_num) (by omega)
    have hwithin : Within n (raw.min cap) := by
      refine ⟨hmin.isNumber, ?_, ?_⟩
      · rw [hmin.value_eq]
        exact le_min h.le_value (hleast.trans hone)
      · rw [hmin.value_eq]
        exact (min_le_left _ _).trans h.value_le
    have hcapped : capped raw cap = raw.min cap := hwithin.max_zero
    exact .inr (hcapped ▸ hwithin)

theorem one_le_infraCap {share flat : Binary64} (hshare : Factor share) (hflat : 1.0 ≤ flat)
    (defender : Profile) : 1.0 ≤ infraCap share flat defender := by
  have hcity : NonNegative (share * defender.highestCityInfra.max 0.0) :=
    .factor_mul hshare (nonNegative_max_zero _)
  have hzero : Under 0.0 (share * defender.highestCityInfra.max 0.0) :=
    ⟨nonNegative_zero, hcity.zero_le⟩
  have hone : Under 1.0 flat := ⟨hasValue_one.nonNegative zero_le_one, hflat⟩
  have hsum : (0.0 : Binary64) + 1.0 = 1.0 := by decide
  exact hsum ▸ (hzero.add hone).le

/-! ## Infrastructure -/

section Infra

variable (context fortified) (hc : PowerOfTwo c)
variable (h : Multiple c war.factors.infra war'.factors.infra)
include hc h

theorem multiple_capped (hraw : Settled n raw) (hcap : 1.0 ≤ cap) (hn : n ≤ 900) :
    Multiple c (capped raw cap * (war.resolve context fortified).infraMultiplier)
      (capped raw cap * (war'.resolve context fortified).infraMultiplier) :=
  (multiple_infraMultiplier context fortified hc h).mul_left hc
    (within_infraMultiplier context fortified _) (within_infraMultiplier context fortified _)
    (sparse_capped hraw hcap) (by omega)

variable (hwon : won ≠ 0) (hle : won ≤ 3) (hvariance : Mild variance)
include hwon hle hvariance

theorem multiple_groundInfra (order : GroundOrder) {forces : GroundForces}
    (hforces : NonNegative forces.effectiveDefenders) :
    Multiple c (groundInfra order defender forces (war.resolve context fortified) won variance)
      (groundInfra order defender forces (war'.resolve context fortified) won variance) := by
  have hpressure : Settled 182 (groundPressure order defender forces) :=
    settled_groundPressure order hforces
  have hraw := (hpressure.mul hvariance.within (by omega)).mul (mild_tierFraction hwon hle).within
    (by omega)
  exact multiple_capped context fortified hc h hraw
    (one_le_infraCap (.const (by decide)) (by decide) defender) (by omega)

theorem multiple_airInfra (order : AirOrder) :
    Multiple c (airInfra order defender (war.resolve context fortified) won variance)
      (airInfra order defender (war'.resolve context fortified) won variance) := by
  have hdefending : NonNegative (ofUInt64 defender.aircraft) := (small_ofUInt64 _).nonNegative
  have hrate : Mild 0.35353535 := .const (by decide)
  have hthree : Mild 3.0 := .const (by decide)
  have hraw := (((settled_netForce order.aircraft hdefending).mul hrate.within (by omega)).mul
    hvariance.within (by omega)).mul (mild_tierFraction hwon hle).within (by omega)
  have hcap : 1.0 ≤ infraCap 0.5 100.0 defender :=
    one_le_infraCap (.const (by decide)) (by decide) defender
  have hfull := multiple_capped context fortified hc h hraw hcap (by omega)
  have hsparse := (sparse_capped hraw hcap).mul
    (within_infraMultiplier context fortified war) (by omega)
  unfold airInfra
  split
  · exact hfull
  · exact hfull.div hc hsparse hthree.within (by decide) (by omega)

theorem multiple_navalInfra (ships : UInt64) :
    Multiple c (navalInfra ships defender (war.resolve context fortified) won variance)
      (navalInfra ships defender (war'.resolve context fortified) won variance) := by
  have hdefending : NonNegative (ofUInt64 defender.ships) := (small_ofUInt64 _).nonNegative
  have hrate : Mild 2.625 := .const (by decide)
  have hraw := (((settled_netForce ships hdefending).mul hrate.within (by omega)).mul
    hvariance.within (by omega)).mul (mild_tierFraction hwon hle).within (by omega)
  exact multiple_capped context fortified hc h hraw
    (one_le_infraCap (.const (by decide)) (by decide) defender) (by omega)

end Infra

/-! ## Loot -/

section Loot

variable (context fortified) (hwon : won ≠ 0) (hle : won ≤ 3) (hvariance : Mild variance)
include hwon hle hvariance

/-- Where the cash is not known nothing comes after the factor. -/
theorem groundLoot_of_none (order : GroundOrder) (hmoney : defender.money = none) :
    groundLoot order defender (war.resolve context fortified) won variance
      = (warlessLoot order won variance).max 0.0
        * (war.resolve context fortified).lootMultiplier := by
  have hloot := settled_warlessLoot order hwon hle hvariance
  have hmultiplier : Within 36 (war.resolve context fortified).lootMultiplier :=
    within_lootMultiplier context fortified war
  unfold groundLoot
  rw [hmoney]
  exact hloot.mul_max_zero hmultiplier (by omega)

/-- Known cash limits the loot that there is where it is not known. -/
theorem groundLoot_of_some (order : GroundOrder) {cash : Binary64}
    (hmoney : defender.money = some cash) :
    groundLoot order defender (war.resolve context fortified) won variance
      = lootOf cash
          (groundLoot order defender.withoutCash (war.resolve context fortified) won variance) := by
  have hraw := (settled_warlessLoot order hwon hle hvariance).mul
    (within_lootMultiplier context fortified war) (by omega)
  have hlimit := max_zero_min_max_zero hraw.atMost.isNumber (lootCap cash)
  unfold groundLoot
  rw [hmoney]
  exact hlimit.symm

theorem multiple_groundLoot (hc : PowerOfTwo c)
    (h : Multiple c war.factors.loot war'.factors.loot) (order : GroundOrder)
    (hmoney : defender.money = none) :
    Multiple c (groundLoot order defender (war.resolve context fortified) won variance)
      (groundLoot order defender (war'.resolve context fortified) won variance) := by
  rw [groundLoot_of_none context fortified hwon hle hvariance order hmoney,
    groundLoot_of_none context fortified hwon hle hvariance order hmoney]
  exact (multiple_lootMultiplier context fortified hc h).mul_left hc
    (within_lootMultiplier context fortified _) (within_lootMultiplier context fortified _)
    (settled_warlessLoot order hwon hle hvariance).sparse_max_zero (by omega)

theorem groundLoot_le_groundLoot (h : war.factors.loot ≤ war'.factors.loot) (order : GroundOrder) :
    groundLoot order defender (war.resolve context fortified) won variance
      ≤ groundLoot order defender (war'.resolve context fortified) won variance := by
  have hless := lootMultiplier_le context fortified h
  have hloot := settled_warlessLoot order hwon hle hvariance
  have hfree : groundLoot order defender.withoutCash (war.resolve context fortified) won variance
      ≤ groundLoot order defender.withoutCash (war'.resolve context fortified) won variance := by
    rw [groundLoot_of_none context fortified hwon hle hvariance order rfl,
      groundLoot_of_none context fortified hwon hle hvariance order rfl]
    have hkept := hloot.atMost.max_zero
    exact hkept.mul_mono (le_refl_of_isNaN hkept.nonNegative.isNumber) hkept
      (within_lootMultiplier context fortified _).small hless
      (within_lootMultiplier context fortified _).small (by omega)
  cases hmoney : defender.money with
  | none =>
    have hdefender : defender.withoutCash = defender := by
      rw [Profile.withoutCash, ← hmoney]
    rwa [hdefender] at hfree
  | some cash =>
    rw [groundLoot_of_some context fortified hwon hle hvariance order hmoney,
      groundLoot_of_some context fortified hwon hle hvariance order hmoney]
    exact max_zero_le_max_zero (min_le_min_of_le hfree _)

end Loot

end Effects

/-! ## Trials -/

/-- Two figures that are both there and are related. -/
def Both (R : Binary64 → Binary64 → Prop) (x y : Option Binary64) : Prop :=
  ∃ a b, x = some a ∧ y = some b ∧ R a b

/-- What the results of one fight in wars of two types have in common: a power of two between the
factors is one between the effects, where no known cash limits them. -/
structure TrialResult.Traded (action : Action) (defender : Profile) (war war' : WarType)
    (x y : TrialResult) : Prop where
  infraDestroyed {c : Binary64} (hc : PowerOfTwo c)
    (h : Multiple c war.factors.infra war'.factors.infra) :
    Multiple c x.infraDestroyed y.infraDestroyed
  moneyLooted {c : Binary64} (hc : PowerOfTwo c)
    (h : Multiple c war.factors.loot war'.factors.loot) (hground : action.kind = .ground)
    (hmoney : defender.money = none) : Both (Multiple c) x.moneyLooted y.moneyLooted
  moneyLooted_le (h : war.factors.loot ≤ war'.factors.loot) (hground : action.kind = .ground) :
    Both (· ≤ ·) x.moneyLooted y.moneyLooted

/-- Results that agree in both effects are traded where there is nothing to trade. -/
theorem TrialResult.Traded.of_zero {action : Action} {defender : Profile} {war war' : WarType}
    {x y : TrialResult} (hx : x.infraDestroyed = 0.0) (hy : y.infraDestroyed = 0.0)
    (hloot : action.kind = .ground → x.moneyLooted = some 0.0 ∧ y.moneyLooted = some 0.0) :
    x.Traded action defender war war' y where
  infraDestroyed hc _ := by
    rw [hx, hy]
    exact .zero hc.factor
  moneyLooted hc _ hground _ :=
    ⟨_, _, (hloot hground).1, (hloot hground).2, .zero hc.factor⟩
  moneyLooted_le _ hground :=
    ⟨_, _, (hloot hground).1, (hloot hground).2, le_refl_of_isNaN hasValue_zero.isNumber⟩

section Trials

variable {defender : Profile} (context : Context) (fortified : Bool) (war war' : WarType)

theorem yields_groundVariances_mild :
    Draw.Yields (do
      let damage ← Draw.variance
      let loot ← Draw.within 0.8 1.1
      return (damage, loot)) fun variances => Mild variances.1 ∧ Mild variances.2 := by
  refine Draw.yields_variance_mild.bind fun damage hdamage => ?_
  have hloot : Draw.Yields (Draw.within 0.8 1.1) Mild :=
    Draw.yields_within_mild (.const (by decide)) (.const (by decide)) (by decide)
  exact hloot.bind fun loot hloot => .pure ⟨hdamage, hloot⟩

/-- Only the variance of the damage meets the factor of the war. -/
theorem yields_airVariances_mild (target : AirTarget) :
    Draw.Yields (do
      let attrition ← target.attritionDraw
      let damage ← Draw.variance
      return (attrition, damage)) fun variances => Mild variances.2 := by
  have hattrition : Draw.Yields target.attritionDraw fun _ => True := fun _ => trivial
  exact hattrition.bind fun _ _ => Draw.yields_variance_mild.bind fun _ hdamage => .pure hdamage

theorem lockstep_groundTrial_inWar (order : GroundOrder)
    (hidle : ¬ (order.soldiers = 0 ∧ order.tanks = 0)) :
    Draw.Lockstep
      (TrialResult.Traded (.ground order.soldiers order.tanks order.armed) defender war war')
      (groundTrial order defender (context.inWar war) (war.resolve context fortified))
      (groundTrial order defender (context.inWar war') (war'.resolve context fortified)) := by
  have hforces : NonNegative
      (GroundForces.muster order defender (war.resolve context fortified)).effectiveDefenders :=
    (nonNegative_muster (Factors.positive_resolve _ _) order defender).effectiveDefenders
  rw [groundTrial_eq_score _ _ _ _ hidle, groundTrial_eq_score _ _ _ _ hidle]
  refine Fight.lockstep_score_of_aftermath yields_groundVariances_mild
    (fun rounds => .of_zero rfl rfl fun _ => ⟨rfl, rfl⟩)
    fun rounds variances hlength hwon hdrawn => ?_
  have hle := countP_le_three hlength GroundRolls.attackerWon
  exact
    { infraDestroyed := fun hc h =>
        multiple_groundInfra context fortified hc h hwon hle hdrawn.1 order hforces
      moneyLooted := fun hc h _ hmoney => ⟨_, _, rfl, rfl,
        multiple_groundLoot context fortified hwon hle hdrawn.2 hc h order hmoney⟩
      moneyLooted_le := fun h _ => ⟨_, _, rfl, rfl,
        groundLoot_le_groundLoot context fortified hwon hle hdrawn.2 h order⟩ }

theorem lockstep_airTrial_inWar (order : AirOrder) (hidle : order.aircraft ≠ 0) :
    Draw.Lockstep (TrialResult.Traded (.air order.aircraft order.target) defender war war')
      (airTrial order defender (war.resolve context fortified))
      (airTrial order defender (war'.resolve context fortified)) := by
  rw [airTrial_eq_score _ _ _ hidle, airTrial_eq_score _ _ _ hidle]
  refine Fight.lockstep_score_of_aftermath (yields_airVariances_mild order.target)
    (fun rounds => .of_zero rfl rfl nofun) fun rounds variances hlength hwon hdamage => ?_
  have hle := countP_le_three hlength DuelRolls.attackerWon
  exact
    { infraDestroyed := fun hc h =>
        multiple_airInfra context fortified hc h hwon hle hdamage order
      moneyLooted := nofun
      moneyLooted_le := nofun }

theorem lockstep_navalTrial_inWar {ships : UInt64} (hidle : ships ≠ 0) :
    Draw.Lockstep (TrialResult.Traded (.naval ships) defender war war')
      (navalTrial ships defender (context.inWar war) (war.resolve context fortified))
      (navalTrial ships defender (context.inWar war') (war'.resolve context fortified)) := by
  rw [navalTrial_eq_score _ _ _ _ hidle, navalTrial_eq_score _ _ _ _ hidle]
  refine Fight.lockstep_score_of_aftermath Draw.yields_variance_mild
    (fun rounds => .of_zero rfl rfl nofun) fun rounds variance hlength hwon hvariance => ?_
  have hle := countP_le_three hlength DuelRolls.attackerWon
  exact
    { infraDestroyed := fun hc h =>
        multiple_navalInfra context fortified hc h hwon hle hvariance ships
      moneyLooted := nofun
      moneyLooted_le := nofun }

/-- The type of the war is no part of the fight, so trials in wars of two types stay in lockstep. -/
theorem lockstep_trial_inWar (action : Action) :
    Draw.Lockstep (TrialResult.Traded action defender war war')
      (action.trial defender (context.inWar war) (war.resolve context fortified))
      (action.trial defender (context.inWar war') (war'.resolve context fortified)) := by
  by_cases hidle : action.Idle
  · rw [Action.trial_of_idle hidle, Action.trial_of_idle hidle]
    have hzero : action.idleResult.infraDestroyed = 0.0 := by cases action <;> rfl
    refine .pure (.of_zero hzero hzero fun hground => ?_)
    cases action with
    | ground soldiers tanks armed => exact ⟨rfl, rfl⟩
    | air aircraft target => cases hground
    | naval ships => cases hground
  · cases action with
    | ground soldiers tanks armed =>
      exact lockstep_groundTrial_inWar context fortified war war' ⟨soldiers, tanks, armed⟩
        (mt Action.idle_ground.mpr hidle)
    | air aircraft target =>
      exact lockstep_airTrial_inWar context fortified war war' ⟨aircraft, target⟩
        (mt Action.idle_air.mpr hidle)
    | naval ships =>
      exact lockstep_navalTrial_inWar context fortified war war' (mt Action.idle_naval.mpr hidle)

/-- Nor is the cash: where it is known it limits the loot of the same fight. -/
theorem lockstep_trial_withoutCash {cash : Binary64} (hmoney : defender.money = some cash)
    (action : Action) :
    Draw.Lockstep (fun x y => x.moneyLooted.map (lootOf cash) = y.moneyLooted)
      (action.trial defender.withoutCash (context.inWar war) (war.resolve context fortified))
      (action.trial defender (context.inWar war) (war.resolve context fortified)) := by
  have hnothing : lootOf cash 0.0 = 0.0 :=
    max_zero_of_le (min_le_of_isNumber_left hasValue_zero.isNumber)
  by_cases hidle : action.Idle
  · rw [Action.trial_of_idle hidle, Action.trial_of_idle hidle]
    refine .pure ?_
    cases action with
    | ground soldiers tanks armed => exact congrArg some hnothing
    | air aircraft target => rfl
    | naval ships => rfl
  · cases action with
    | ground soldiers tanks armed =>
      have hidle := mt Action.idle_ground.mpr hidle
      rw [Action.trial, Action.trial, groundTrial_eq_score _ _ _ _ hidle,
        groundTrial_eq_score _ _ _ _ hidle]
      refine Fight.lockstep_score_of_aftermath yields_groundVariances_mild
        (fun rounds => congrArg some hnothing) fun rounds variances hlength hwon hdrawn => ?_
      have hle := countP_le_three hlength GroundRolls.attackerWon
      exact congrArg some (groundLoot_of_some context fortified hwon hle hdrawn.2 _ hmoney).symm
    | air aircraft target =>
      have hidle := mt Action.idle_air.mpr hidle
      rw [Action.trial, Action.trial, airTrial_eq_score _ _ _ hidle, airTrial_eq_score _ _ _ hidle]
      exact Fight.lockstep_score_of_forall (fun _ => rfl) fun _ _ => rfl
    | naval ships =>
      have hidle := mt Action.idle_naval.mpr hidle
      rw [Action.trial, Action.trial, navalTrial_eq_score _ _ _ _ hidle,
        navalTrial_eq_score _ _ _ _ hidle]
      exact Fight.lockstep_score_of_forall (fun _ => rfl) fun _ _ => rfl

end Trials

end BattleOdds
