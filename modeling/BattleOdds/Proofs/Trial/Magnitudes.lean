import BattleOdds.Proofs.Trial.ActionBounds
import BattleOdds.Proofs.Trial.Draws

/-!
# How great the figures of a trial are

Bounds on a trial say that its figures are finite. Sums over many trials must be finite too, so here
the figures get bounds that do not depend on the profiles: a loss is at most a count, and an effect
is made of counts and of factors, which leaves it far below the greatest figure.
-/
namespace BattleOdds
open Binary64

variable {factors : Factors} {defender : Profile} {context : Context}

theorem small_hundred : Small 7 100.0 := by
  have hsum : Small 7 (64.0 + 64.0) := (Small.const (by decide)).add (Small.const (by decide))
  exact hsum.of_le (by decide)

/-- No more is lost than there is. -/
theorem IsLoss.small {x : Binary64} {available : UInt64} (h : IsLoss x available) : Small 64 x :=
  (small_ofUInt64 available).of_le ⟨h.zero_le, h.le_available⟩

namespace TrialResult

/-- The effects of a result that no number of units limits are small all the same. -/
structure SmallEffects (result : TrialResult) : Prop where
  infraDestroyed : Small 160 result.infraDestroyed
  moneyLooted (loot : Binary64) (h : result.moneyLooted = some loot) : Small 160 loot

/-- All figures of the result are small, whatever the profiles are. -/
structure Limited (result : TrialResult) : Prop extends SmallEffects result where
  attackerLosses (unit : UnitType) : Small 64 (result.attackerLosses.of unit)
  defenderLosses (unit : UnitType) : Small 64 (result.defenderLosses.of unit)
  improvementChance (chance : Binary64) (h : result.improvementChance = some chance) :
    Small 7 chance
  moneyDestroyed : result.moneyDestroyed = none

/-- Bounds by the profiles are bounds by the greatest profiles. -/
theorem WithinBounds.limited {action : Action} {result : TrialResult}
    (h : result.WithinBounds action defender) (heffects : result.SmallEffects) :
    result.Limited where
  toSmallEffects := heffects
  attackerLosses unit := by
    cases hcommitted : action.committed.lookup unit with
    | none => exact h.uncommitted unit hcommitted ▸ Small.zero
    | some n => exact (h.attackerLosses unit n hcommitted).small
  defenderLosses unit := (h.defenderLosses unit).small
  improvementChance chance hchance := small_hundred.of_le (h.improvementChance chance hchance)
  moneyDestroyed := h.moneyDestroyed

theorem smallEffects_idleResult (action : Action) : action.idleResult.SmallEffects where
  infraDestroyed := by cases action <;> exact Small.zero
  moneyLooted loot h := by
    cases action <;> cases h
    exact Small.zero

end TrialResult

theorem smallEffects_groundTrial (hf : factors.Positive) (order : GroundOrder)
    (h : ¬ (order.soldiers = 0 ∧ order.tanks = 0)) :
    Draw.Yields (groundTrial order defender context factors) TrialResult.SmallEffects := by
  rw [groundTrial_eq_score _ _ _ _ h]
  refine Fight.yields_score_of_aftermath yields_groundVariances (fun rounds _ => ?_)
    fun rounds variances hlength hwon hvariances => ?_
  · refine ⟨Small.zero, ?_⟩
    rintro loot ⟨⟩
    exact Small.zero
  · have hforces := nonNegative_muster hf order defender
    refine ⟨(small_groundInfra hforces hf order hwon (countP_le_three hlength _)
      hvariances.1).mono, ?_⟩
    rintro loot ⟨⟩
    exact (small_groundLoot hf order hvariances.2).mono

theorem smallEffects_airTrial (hf : factors.Positive) (order : AirOrder) (h : order.aircraft ≠ 0) :
    Draw.Yields (airTrial order defender factors) TrialResult.SmallEffects := by
  rw [airTrial_eq_score _ _ _ h]
  refine Fight.yields_score_of_aftermath (yields_airVariances order.target) (fun rounds _ => ?_)
    fun rounds variances hlength hwon hvariances => ?_
  · exact ⟨Small.zero, fun loot hloot => by cases hloot⟩
  · exact ⟨(small_airInfra hf order hwon (countP_le_three hlength _) hvariances.2).mono,
      fun loot hloot => by cases hloot⟩

theorem smallEffects_navalTrial (hf : factors.Positive) {ships : UInt64} (h : ships ≠ 0) :
    Draw.Yields (navalTrial ships defender context factors) TrialResult.SmallEffects := by
  rw [navalTrial_eq_score _ _ _ _ h]
  refine Fight.yields_score_of_aftermath Draw.yields_variance (fun rounds _ => ?_)
    fun rounds variance hlength hwon hvariance => ?_
  · exact ⟨Small.zero, fun loot hloot => by cases hloot⟩
  · exact ⟨(small_navalInfra hf ships hwon (countP_le_three hlength _) hvariance).mono,
      fun loot hloot => by cases hloot⟩

theorem smallEffects_trial (hf : factors.Positive) (action : Action) :
    Draw.Yields (action.trial defender context factors) TrialResult.SmallEffects := by
  by_cases hidle : action.Idle
  · rw [Action.trial_of_idle hidle]
    exact .pure (TrialResult.smallEffects_idleResult action)
  · cases action with
    | ground soldiers tanks armed =>
      exact smallEffects_groundTrial hf ⟨soldiers, tanks, armed⟩ (mt Action.idle_ground.mpr hidle)
    | air aircraft target =>
      exact smallEffects_airTrial hf ⟨aircraft, target⟩ (mt Action.idle_air.mpr hidle)
    | naval ships => exact smallEffects_navalTrial hf (mt Action.idle_naval.mpr hidle)

/-- Every trial under the factors of a context has small figures only. -/
theorem limited_trial (hf : factors.Positive) (action : Action) (defender : Profile)
    (context : Context) :
    Draw.Yields (action.trial defender context factors) TrialResult.Limited := fun g =>
  (withinBounds_trial hf action defender context g).limited (smallEffects_trial hf action g)

end BattleOdds
