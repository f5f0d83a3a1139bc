import BattleOdds.Proofs.Binary64.Order
import BattleOdds.Proofs.Request.Groups
import BattleOdds.Proofs.Trial.Magnitudes
import BattleOdds.Proofs.Trial.Scope

/-!
# Ceilings of effects

What an action can destroy or loot has a ceiling that the defender's data and the factors tell: a
share of the largest city and a flat amount of infrastructure, what is left of the cash, and for the
units that a strike is sent against a part of those there are. A raw effect may be below zero or
above its ceiling; capping and raising to zero come first and the factors last, and both keep the
order. Attackers that are at most half as many as the defenders get nothing through, whatever the
rounds and the variances are.
-/
namespace BattleOdds
open Binary64

/-- At most half as many attack as defend, counted exactly or in figures. -/
def AtMostHalf (attacking defending : UInt64) : Prop :=
  2 * attacking.toNat ≤ defending.toNat ∨ ofUInt64 attacking ≤ 0.5 * ofUInt64 defending

/-- The attackers do not get through: the pressure of a ground battle is not positive, or they are
at most half as many as the defenders of the same arm. -/
def Action.Repelled (action : Action) (defender : Profile) (factors : Factors) : Prop :=
  match action with
  | .ground soldiers tanks armed =>
    let order : GroundOrder := { soldiers, tanks, armed }
    groundPressure order defender (.muster order defender factors) ≤ 0.0
  | .air aircraft _ => AtMostHalf aircraft defender.aircraft
  | .naval ships => AtMostHalf ships defender.ships

/-- The most infrastructure that an action can destroy. -/
def Action.infraCeiling (action : Action) (defender : Profile) (factors : Factors) : Binary64 :=
  let city := defender.highestCityInfra.max 0.0
  match action with
  | .ground .. => (0.2 * city + 25.0) * factors.infraMultiplier
  | .air _ .infra => (0.5 * city + 100.0) * factors.infraMultiplier
  | .air _ _ => (0.5 * city + 100.0) * factors.infraMultiplier / 3.0
  | .naval _ => (0.5 * city + 25.0) * factors.infraMultiplier

/-- The most that can be looted where the cash is known. -/
def lootCeiling (cash : Binary64) : Binary64 := ((0.75 * cash).min (cash - 1000000.0)).max 0.0

/-- The most that a strike can destroy of units of a type, by the rounds that it wins. -/
def AttritionProfile.ceiling (profile : AttritionProfile) (available : UInt64) (factors : Factors)
    (won : ℕ) : Binary64 :=
  let units := ofUInt64 available
  units.min (units.min (profile.softCap available) * attritionShare won * factors.defenderCasualty)

section Ceilings

variable {factors : Factors} {defender : Profile} {context : Context}
variable {raw cap x y c : Binary64} {won : ℕ} {attacking defending : UInt64}

/-! ## Forces that do not get through -/

theorem AtMostHalf.le_half (h : AtMostHalf attacking defending) :
    ofUInt64 attacking ≤ 0.5 * ofUInt64 defending := h.elim ofUInt64_le_half id

theorem AtMostHalf.netForce_le (h : AtMostHalf attacking defending) :
    netForce attacking (ofUInt64 defending) ≤ 0.0 := by
  have hhalf : Small 70 (0.5 * ofUInt64 defending) :=
    (Small.const (by decide)).mul (small_ofUInt64 defending)
  exact sub_le_zero hhalf.atMost hhalf.isFinite h.le_half

/-! ## Capped effects -/

set_option maxRecDepth 4000 in
/-- The factor on infrastructure lies between the products of the least and of the greatest
constants. -/
theorem Factors.factor_infraMultiplier (context : Context) (fortified : Bool) :
    Factor (resolve context fortified).infraMultiplier := by
  have hwar : Raises 0.25 context.warType.factors.infra
      ∧ Raises context.warType.factors.infra 1.0 := by
    cases context.warType <;> exact ⟨.const (by decide), .const (by decide)⟩
  have hbonus : Raises 1.0 context.attackerPolicy.infraBonus
      ∧ Raises context.attackerPolicy.infraBonus 1.1 := by
    cases context.attackerPolicy <;> exact ⟨.const (by decide), .const (by decide)⟩
  have hexposure : Raises 0.9 context.defenderPolicy.infraExposure
      ∧ Raises context.defenderPolicy.infraExposure 1.05 := by
    cases context.defenderPolicy <;> exact ⟨.const (by decide), .const (by decide)⟩
  have hblitz : Raises 1.0 (blitzFactor context.attackerBlitz)
      ∧ Raises (blitzFactor context.attackerBlitz) 1.1 := by
    cases context.attackerBlitz <;> exact ⟨.const (by decide), .const (by decide)⟩
  have hlow := ((hwar.1.under.mul hbonus.1).mul hexposure.1).mul hblitz.1
  have hhigh := ((hwar.2.under.mul hbonus.2).mul hexposure.2).mul hblitz.2
  have hleast : Factor (0.25 * 1.0 * 0.9 * 1.0) := .const (by decide)
  have hgreatest : Factor (1.0 * 1.1 * 1.05 * 1.1) := .const (by decide)
  exact hleast.of_mem hgreatest ⟨hlow.le, hhigh.le⟩

theorem nonNegative_infraCap (hc : Factor c) (hx : NonNegative x) (defender : Profile) :
    NonNegative (infraCap c x defender) :=
  (NonNegative.factor_mul hc (nonNegative_max_zero _)).add hx

theorem capped_le (hcap : NonNegative cap) : capped raw cap ≤ cap := by
  have hmin : raw.min cap ≤ cap := min_le_of_isNumber_right hcap.isNumber
  have hmax := max_zero_of_nonNegative hcap
  exact le_of_le_of_le (max_zero_le_max_zero hmin) (hmax.le ⟨hcap.isNumber, rfl⟩ le_rfl)

theorem capped_of_le (h : raw ≤ 0.0) : capped raw cap = 0.0 :=
  max_zero_of_le (le_of_le_of_le (min_le_of_isNumber_left (isNaN_of_le h).1) h)

/-- Multiplying keeps a capped effect below its multiplied cap. -/
theorem capped_mul_le (hcap : NonNegative cap) (hc : Factor c) : capped raw cap * c ≤ cap * c :=
  (nonNegative_max_zero _).mul_mono (capped_le hcap) hc hc
    (le_refl_of_isNaN hc.nonNegative.isNumber)

theorem capped_mul_of_le (h : raw ≤ 0.0) (hc : Factor c) : capped raw cap * c = 0.0 := by
  rw [capped_of_le h, zero_mul_factor hc]

/-! ## Infrastructure -/

theorem groundInfra_le (hm : Factor factors.infraMultiplier) (order : GroundOrder)
    (forces : GroundForces) :
    groundInfra order defender forces factors won c
      ≤ infraCap 0.2 25.0 defender * factors.infraMultiplier :=
  capped_mul_le (nonNegative_infraCap (.const (by decide)) (.const (by decide)) defender) hm

theorem groundInfra_of_repelled (hm : Factor factors.infraMultiplier) {order : GroundOrder}
    {forces : GroundForces} (h : groundPressure order defender forces ≤ 0.0) (hwon : won ≠ 0)
    (hle : won ≤ 3) (hc : Factor c) : groundInfra order defender forces factors won c = 0.0 :=
  capped_mul_of_le (mul_le_zero (mul_le_zero h hc) (factor_tierFraction hwon hle)) hm

theorem airInfra_le (hm : Factor factors.infraMultiplier) (order : AirOrder) :
    airInfra order defender factors won c
      ≤ (Action.air order.aircraft order.target).infraCeiling defender factors := by
  have hthree : Factor 3.0 := .const (by decide)
  have hcap : NonNegative (infraCap 0.5 100.0 defender) :=
    nonNegative_infraCap (.const (by decide)) (.const (by decide)) defender
  obtain ⟨aircraft, target⟩ := order
  unfold airInfra
  cases target with
  | infra => exact capped_mul_le hcap hm
  | _ =>
    exact ((nonNegative_max_zero _).mul hm).div_mono (capped_mul_le hcap hm) hthree.isFinite
      hthree.value_pos

theorem airInfra_of_repelled (hm : Factor factors.infraMultiplier) {order : AirOrder}
    (h : AtMostHalf order.aircraft defender.aircraft) (hwon : won ≠ 0) (hle : won ≤ 3)
    (hc : Factor c) : airInfra order defender factors won c = 0.0 := by
  have hrate : Factor 0.35353535 := .const (by decide)
  have hraw := mul_le_zero (mul_le_zero (mul_le_zero h.netForce_le hrate) hc)
    (factor_tierFraction hwon hle)
  have hthird : (0.0 : Binary64) / 3.0 = 0.0 := by decide
  unfold airInfra
  dsimp only
  rw [capped_mul_of_le hraw hm]
  split
  · rfl
  · exact hthird

theorem navalInfra_le (hm : Factor factors.infraMultiplier) (ships : UInt64) :
    navalInfra ships defender factors won c
      ≤ infraCap 0.5 25.0 defender * factors.infraMultiplier :=
  capped_mul_le (nonNegative_infraCap (.const (by decide)) (.const (by decide)) defender) hm

theorem navalInfra_of_repelled (hm : Factor factors.infraMultiplier) {ships : UInt64}
    (h : AtMostHalf ships defender.ships) (hwon : won ≠ 0) (hle : won ≤ 3) (hc : Factor c) :
    navalInfra ships defender factors won c = 0.0 :=
  capped_mul_of_le (mul_le_zero (mul_le_zero (mul_le_zero h.netForce_le (.const (by decide))) hc)
    (factor_tierFraction hwon hle)) hm

/-- A ceiling is not negative, so that destroying nothing stays below it. -/
theorem nonNegative_infraCeiling (hm : Factor factors.infraMultiplier) (action : Action) :
    NonNegative (action.infraCeiling defender factors) := by
  have hcap {share flat : Binary64} (hs : Factor share) (hf : NonNegative flat) :=
    (nonNegative_infraCap hs hf defender).mul hm
  have hthree : Factor 3.0 := .const (by decide)
  cases action with
  | ground soldiers tanks armed => exact hcap (.const (by decide)) (.const (by decide))
  | air aircraft target =>
    cases target with
    | infra => exact hcap (.const (by decide)) (.const (by decide))
    | _ =>
      have hfull : NonNegative (infraCap 0.5 100.0 defender * factors.infraMultiplier) :=
        hcap (.const (by decide)) (.const (by decide))
      exact hfull.div hthree.isFinite hthree.value_pos
  | naval ships => exact hcap (.const (by decide)) (.const (by decide))

/-! ## Loot -/

theorem small_million : Small 24 1000000.0 := by
  have hcube : Small 24 (64.0 * 64.0 * (64.0 * 64.0)) :=
    ((Small.const (by decide)).mul (Small.const (by decide))).mul
      ((Small.const (by decide)).mul (Small.const (by decide)))
  exact hcube.of_le (by decide)

theorem isNaN_lootCap (h : c.isNaN = false) : (lootCap c).isNaN = false :=
  (hasValue_min (isNaN_factor_mul (.const (by decide)) h)
    (isNaN_sub h small_million.isFinite)).isNumber

theorem lootCap_le_zero (h : c ≤ 1000000.0) : lootCap c ≤ 0.0 := by
  have hc := (isNaN_of_le h).1
  have hrest : c - 1000000.0 ≤ 0.0 := sub_le_zero small_million.atMost small_million.isFinite h
  exact le_of_le_of_le (min_le_of_isNumber_right (isNaN_of_le hrest).1) hrest

theorem groundLoot_le (order : GroundOrder) {cash : Binary64} (hmoney : defender.money = some cash)
    (hcash : cash.isNaN = false) :
    groundLoot order defender factors won c ≤ lootCeiling cash
      ∧ (cash ≤ 1000000.0 → groundLoot order defender factors won c = 0.0) := by
  have hmin : (rawLoot order factors won c).min (lootCap cash) ≤ lootCap cash :=
    min_le_of_isNumber_right (isNaN_lootCap hcash)
  unfold groundLoot
  rw [hmoney]
  exact ⟨max_zero_le_max_zero hmin,
    fun h => max_zero_of_le (le_of_le_of_le hmin (lootCap_le_zero h))⟩

/-! ## Attrition -/

theorem nonNegative_softCap {target : AirTarget} {profile : AttritionProfile}
    (h : target.attrition? = some profile) (available : UInt64) :
    NonNegative (profile.softCap available) := by
  have hparts : Factor profile.capShare ∧ NonNegative profile.capFlat := by
    cases target <;> cases h <;> exact ⟨.const (by decide), .const (by decide)⟩
  exact (NonNegative.factor_mul hparts.1 (small_ofUInt64 available).nonNegative).add hparts.2

/-- An effect that is brought under two caps stays below both. -/
theorem capped_min_le (hx : NonNegative x) (hcap : NonNegative cap) :
    capped (raw.min x) cap ≤ x.min cap := by
  have hle : raw.min x ≤ x := min_le_of_isNumber_right hx.isNumber
  have hmin := hasValue_min hx.isNumber hcap.isNumber
  have hnonneg : NonNegative (x.min cap) := hmin.nonNegative (le_min hx.le_value hcap.le_value)
  have hraw := hasValue_min (isNaN_of_le hle).1 hcap.isNumber
  have hcapped : (raw.min x).min cap ≤ x.min cap :=
    hraw.le hmin (min_le_min_right _ (value_le_of_le hle))
  have hmax := max_zero_of_nonNegative hnonneg
  exact le_of_le_of_le (max_zero_le_max_zero hcapped) (hmax.le ⟨hnonneg.isNumber, rfl⟩ le_rfl)

theorem clampLoss_le_min (hx : NonNegative x) (h : x ≤ y) (available : UInt64) :
    clampLoss x available ≤ (ofUInt64 available).min y := by
  have hunits := (small_ofUInt64 available).nonNegative
  refine (hasValue_clamp hx.isNumber hunits.zero_le).le
    (hasValue_min hunits.isNumber (isNaN_of_le h).2) ?_
  rw [hasValue_zero.value_eq, max_eq_right (le_min hx.le_value hunits.le_value), min_comm]
  exact min_le_min_left _ (value_le_of_le h)

theorem clampLoss_zero (available : UInt64) : clampLoss 0.0 available = 0.0 := by
  have hunits := (small_ofUInt64 available).nonNegative
  have hlt : ¬ ofUInt64 available < 0.0 := by
    rw [lt_iff_value hunits.isNumber hasValue_zero.isNumber, hasValue_zero.value_eq]
    exact not_lt.mpr hunits.le_value
  rw [clampLoss, clamp, if_neg hlt, ite_self]

theorem small_units_min (hcap : NonNegative cap) (available : UInt64) :
    Small 64 ((ofUInt64 available).min cap) := by
  have hunits := small_ofUInt64 available
  have hmin := hasValue_min hunits.nonNegative.isNumber hcap.isNumber
  exact ⟨hmin.nonNegative (le_min hunits.nonNegative.le_value hcap.le_value), hunits.atMost.min⟩

/-- No strike destroys more than there is or than its cap allows, whatever its raw effect is. -/
theorem capped_units_le {target : AirTarget} {profile : AttritionProfile}
    (h : target.attrition? = some profile) (raw : Binary64) (available : UInt64) :
    capped (raw.min (ofUInt64 available)) (profile.softCap available)
      ≤ (ofUInt64 available).min (profile.softCap available) :=
  capped_min_le (small_ofUInt64 available).nonNegative (nonNegative_softCap h available)

theorem small_capped_units {target : AirTarget} {profile : AttritionProfile}
    (h : target.attrition? = some profile) (raw : Binary64) (available : UInt64) :
    Small 64 (capped (raw.min (ofUInt64 available)) (profile.softCap available)) :=
  (small_units_min (nonNegative_softCap h available) available).of_le
    ⟨(nonNegative_max_zero _).zero_le, capped_units_le h raw available⟩

/-- The ceiling stands in place of the raw attrition, and every later step keeps the order. -/
theorem unitAttrition_le (hf : factors.Positive) (order : AirOrder) {target : AirTarget}
    {profile : AttritionProfile} (hprofile : target.attrition? = some profile)
    (available : UInt64) :
    unitAttrition order defender available profile factors won c
      ≤ profile.ceiling available factors won := by
  have hcap := small_units_min (nonNegative_softCap hprofile available) available
  have hcasualty := hf.defenderCasualty
  have hdestroyed := small_capped_units hprofile
    (netForce order.aircraft (ofUInt64 defender.aircraft) * profile.perAircraft * c) available
  have hle := capped_units_le hprofile
    (netForce order.aircraft (ofUInt64 defender.aircraft) * profile.perAircraft * c) available
  have hshare := small_attritionShare won
  have hearned := hdestroyed.mul_mono hle hcap hshare
    (le_refl_of_isNaN hshare.nonNegative.isNumber) hshare
  have hearned₀ := (hdestroyed.mul hshare).nonNegative
  exact clampLoss_le_min (hearned₀.mul hcasualty)
    (hearned₀.mul_mono hearned hcasualty hcasualty
      (le_refl_of_isNaN hcasualty.nonNegative.isNumber)) available

theorem zero_mul_attritionShare (won : ℕ) : 0.0 * attritionShare won = 0.0 := by
  unfold attritionShare
  split <;> decide

theorem unitAttrition_of_repelled (hf : factors.Positive) {order : AirOrder} {target : AirTarget}
    {profile : AttritionProfile} (hprofile : target.attrition? = some profile)
    (h : AtMostHalf order.aircraft defender.aircraft) (hc : Factor c) (available : UInt64) :
    unitAttrition order defender available profile factors won c = 0.0 := by
  have hraw := mul_le_zero (mul_le_zero h.netForce_le (factor_perAircraft hprofile)) hc
  have hmin := le_of_le_of_le (min_le_of_isNumber_left (y := ofUInt64 available)
    (isNaN_of_le hraw).1) hraw
  unfold unitAttrition
  dsimp only
  rw [capped_of_le hmin, zero_mul_attritionShare, zero_mul_factor hf.defenderCasualty,
    clampLoss_zero]

theorem nonNegative_ceiling (hf : factors.Positive) {target : AirTarget}
    {profile : AttritionProfile} (hprofile : target.attrition? = some profile)
    (available : UInt64) (won : ℕ) : NonNegative (profile.ceiling available factors won) := by
  have hunits := (small_ofUInt64 available).nonNegative
  have hcap := small_units_min (nonNegative_softCap hprofile available) available
  have hearned := (hcap.mul (small_attritionShare won)).nonNegative.mul hf.defenderCasualty
  exact (hasValue_min hunits.isNumber hearned.isNumber).nonNegative
    (le_min hunits.le_value hearned.le_value)

/-! ## Trials -/

/-- The effects of a result stay below their ceilings, and there are none where the attackers do
not get through. -/
structure TrialResult.WithinCeilings (action : Action) (defender : Profile) (factors : Factors)
    (result : TrialResult) : Prop where
  infraDestroyed_le : result.infraDestroyed ≤ action.infraCeiling defender factors
  infraDestroyed_of_failure (h : result.roundsWon = 0) : result.infraDestroyed = 0.0
  infraDestroyed_of_repelled (h : action.Repelled defender factors) : result.infraDestroyed = 0.0
  moneyLooted (h : action.kind = .ground) : ∃ loot, result.moneyLooted = some loot
    ∧ ∀ cash, defender.money = some cash → cash.isNaN = false →
      loot ≤ lootCeiling cash ∧ (cash ≤ 1000000.0 → loot = 0.0)
  attrition {aircraft : UInt64} {target : AirTarget} {unit : UnitType} {profile : AttritionProfile}
    (h : action = .air aircraft target) (hunit : target.unit? = some unit)
    (hprofile : target.attrition? = some profile) :
    result.defenderLosses.of unit
        ≤ profile.ceiling (defender.count unit) factors result.roundsWon
      ∧ (AtMostHalf aircraft defender.aircraft → result.defenderLosses.of unit = 0.0)

/-- Without effects a result stays below all ceilings. -/
theorem withinCeilings_of_zero (hf : factors.Positive) (hm : Factor factors.infraMultiplier)
    (action : Action) {result : TrialResult} (hinfra : result.infraDestroyed = 0.0)
    (hloot : action.kind = .ground → result.moneyLooted = some 0.0)
    (hunits : ∀ aircraft target unit, action = .air aircraft target → target.unit? = some unit →
      result.defenderLosses.of unit = 0.0) : result.WithinCeilings action defender factors where
  infraDestroyed_le := hinfra ▸ (nonNegative_infraCeiling hm action).zero_le
  infraDestroyed_of_failure _ := hinfra
  infraDestroyed_of_repelled _ := hinfra
  moneyLooted h := ⟨0.0, hloot h, fun _ _ _ => ⟨(nonNegative_max_zero _).zero_le, fun _ => rfl⟩⟩
  attrition h hunit hprofile := by
    have hzero := hunits _ _ _ h hunit
    exact ⟨hzero ▸ (nonNegative_ceiling hf hprofile _ _).zero_le, fun _ => hzero⟩

theorem withinCeilings_idleResult (hf : factors.Positive) (hm : Factor factors.infraMultiplier)
    (action : Action) : action.idleResult.WithinCeilings action defender factors := by
  refine withinCeilings_of_zero hf hm action (by cases action <;> rfl) (fun h => ?_) ?_
  · cases action <;> first | rfl | cases h
  · rintro aircraft target unit rfl -
    cases unit <;> rfl

theorem withinCeilings_groundTrial (hf : factors.Positive) (hm : Factor factors.infraMultiplier)
    (order : GroundOrder) (h : ¬ (order.soldiers = 0 ∧ order.tanks = 0)) :
    Draw.Yields (groundTrial order defender context factors)
      (TrialResult.WithinCeilings (.ground order.soldiers order.tanks order.armed) defender
        factors) := by
  rw [groundTrial_eq_score _ _ _ _ h]
  refine Fight.yields_score_of_aftermath yields_groundVariances (fun rounds _ => ?_)
    fun rounds variances hlength hwon hvariances => ?_
  · exact withinCeilings_of_zero hf hm _ rfl (fun _ => rfl) (by rintro _ _ _ ⟨⟩)
  · exact
      { infraDestroyed_le := groundInfra_le hm order _
        infraDestroyed_of_failure := fun hfailure => absurd hfailure hwon
        infraDestroyed_of_repelled := fun hrepelled =>
          groundInfra_of_repelled hm hrepelled hwon (countP_le_three hlength _) hvariances.1
        moneyLooted := fun _ => ⟨_, rfl, fun cash hmoney hcash => groundLoot_le order hmoney hcash⟩
        attrition := by rintro _ _ _ _ ⟨⟩ }

/-- The units that a strike is sent against are lost to attrition alone. -/
theorem of_airLosses_target (order : AirOrder) {unit : UnitType}
    {profile : AttritionProfile} (hunit : order.target.unit? = some unit)
    (hprofile : order.target.attrition? = some profile) (rounds : List DuelRolls)
    (attrition : Option Binary64) :
    (airLosses order defender factors rounds attrition).of unit
      = match attrition with
        | some variance => unitAttrition order defender (defender.count unit) profile factors
            (rounds.countP DuelRolls.attackerWon) variance
        | none => 0.0 := by
  unfold airLosses
  rw [hprofile]
  cases attrition with
  | none =>
    cases htarget : order.target <;> rw [htarget] at hunit <;> cases hunit <;> rfl
  | some variance =>
    cases htarget : order.target <;> rw [htarget] at hunit <;> cases hunit <;> rfl

theorem withinCeilings_airTrial (hf : factors.Positive) (hm : Factor factors.infraMultiplier)
    (order : AirOrder) (h : order.aircraft ≠ 0) :
    Draw.Yields (airTrial order defender factors)
      (TrialResult.WithinCeilings (.air order.aircraft order.target) defender factors) := by
  rw [airTrial_eq_score _ _ _ h]
  refine Fight.yields_score_of_aftermath (yields_airVariances order.target) (fun rounds _ => ?_)
    fun rounds variances hlength hwon hvariances => ?_
  · refine withinCeilings_of_zero hf hm _ rfl (fun hground => by cases hground) ?_
    rintro _ target unit ⟨⟩ hunit
    cases htarget : order.target <;> rw [htarget] at hunit <;> cases hunit <;> rfl
  · refine
      { infraDestroyed_le := airInfra_le hm order
        infraDestroyed_of_failure := fun hfailure => absurd hfailure hwon
        infraDestroyed_of_repelled := fun hrepelled =>
          airInfra_of_repelled hm hrepelled hwon (countP_le_three hlength _) hvariances.2
        moneyLooted := fun hground => by cases hground
        attrition := ?_ }
    rintro _ target unit profile ⟨⟩ hunit hprofile
    have hlosses : (airLosses order defender factors rounds variances.1).of unit = _ :=
      of_airLosses_target order hunit hprofile rounds variances.1
    obtain ⟨_ | variance, damage⟩ := variances
    · exact ⟨hlosses ▸ (nonNegative_ceiling hf hprofile _ _).zero_le, fun _ => hlosses⟩
    · exact ⟨hlosses ▸ unitAttrition_le hf order hprofile _, fun hhalf => hlosses.trans
        (unitAttrition_of_repelled hf hprofile hhalf (hvariances.1 variance rfl) _)⟩

theorem withinCeilings_navalTrial (hf : factors.Positive) (hm : Factor factors.infraMultiplier)
    {ships : UInt64} (h : ships ≠ 0) :
    Draw.Yields (navalTrial ships defender context factors)
      (TrialResult.WithinCeilings (.naval ships) defender factors) := by
  rw [navalTrial_eq_score _ _ _ _ h]
  refine Fight.yields_score_of_aftermath Draw.yields_variance (fun rounds _ => ?_)
    fun rounds variance hlength hwon hvariance => ?_
  · exact withinCeilings_of_zero hf hm _ rfl (fun hground => by cases hground)
      (by rintro _ _ _ ⟨⟩)
  · exact
      { infraDestroyed_le := navalInfra_le hm ships
        infraDestroyed_of_failure := fun hfailure => absurd hfailure hwon
        infraDestroyed_of_repelled := fun hrepelled =>
          navalInfra_of_repelled hm hrepelled hwon (countP_le_three hlength _) hvariance
        moneyLooted := fun hground => by cases hground
        attrition := by rintro _ _ _ _ ⟨⟩ }

theorem withinCeilings_trial (hf : factors.Positive) (hm : Factor factors.infraMultiplier)
    (action : Action) :
    Draw.Yields (action.trial defender context factors)
      (TrialResult.WithinCeilings action defender factors) := by
  by_cases hidle : action.Idle
  · rw [Action.trial_of_idle hidle]
    exact .pure (withinCeilings_idleResult hf hm action)
  · cases action with
    | ground soldiers tanks armed =>
      exact withinCeilings_groundTrial hf hm ⟨soldiers, tanks, armed⟩
        (mt Action.idle_ground.mpr hidle)
    | air aircraft target =>
      exact withinCeilings_airTrial hf hm ⟨aircraft, target⟩ (mt Action.idle_air.mpr hidle)
    | naval ships => exact withinCeilings_navalTrial hf hm (mt Action.idle_naval.mpr hidle)

end Ceilings

/-- Ceilings and gates of effects: no trial of any request destroys, loots or kills beyond the
ceilings of its action under the factors of its context, and where the attackers do not get through
or win no round there is nothing to destroy. -/
theorem trial_within_ceilings (r : Request) (g : Generator) :
    TrialResult.WithinCeilings r.action r.defender r.factors
      (r.action.trial r.defender r.context r.factors g).1 :=
  withinCeilings_trial (Factors.positive_resolve _ _) (Factors.factor_infraMultiplier _ _) r.action
    g

end BattleOdds
