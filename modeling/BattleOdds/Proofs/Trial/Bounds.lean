import BattleOdds.Proofs.Binary64.Scaling
import BattleOdds.Proofs.Trial.Fight

/-!
# Bounds on a trial

Whatever the profiles and the generator are, no trial yields a NaN, loses more than there is or
destroys without bound. Rolls and losses are sums and products of non-negative numbers, and these
may grow to an infinity but never to a NaN. What the defenders are set against may be an infinity
too, but it is subtracted, so a raw effect has an upper bound, and capping it makes it finite.
-/
namespace BattleOdds
open Binary64

/-- The units lost of one type. -/
def UnitLosses.of (losses : UnitLosses) : UnitType → Binary64
  | .soldiers => losses.soldiers
  | .tanks => losses.tanks
  | .aircraft => losses.aircraft
  | .ships => losses.ships

/-- A number of lost units, of those that are there. -/
structure IsLoss (x : Binary64) (available : UInt64) : Prop where
  isNumber : x.isNaN = false
  zero_le : 0.0 ≤ x
  le_available : x ≤ ofUInt64 available

/-- An amount that is finite and not negative. -/
structure IsAmount (x : Binary64) : Prop where
  isFinite : x.isFinite = true
  zero_le : 0.0 ≤ x

/-- The result of an action against a defender is within bounds. -/
structure TrialResult.WithinBounds (action : Action) (defender : Profile) (result : TrialResult) :
    Prop where
  roundsWon_le : result.roundsWon ≤ 3
  attackerLosses (unit : UnitType) (n : UInt64) (h : action.committed.lookup unit = some n) :
    IsLoss (result.attackerLosses.of unit) n
  uncommitted (unit : UnitType) (h : action.committed.lookup unit = none) :
    result.attackerLosses.of unit = 0.0
  defenderLosses (unit : UnitType) :
    IsLoss (result.defenderLosses.of unit) (defender.count unit)
  infraDestroyed : IsAmount result.infraDestroyed
  moneyLooted (loot : Binary64) (h : result.moneyLooted = some loot) : IsAmount loot
  improvementChance (chance : Binary64) (h : result.improvementChance = some chance) :
    0.0 ≤ chance ∧ chance ≤ 100.0
  moneyDestroyed : result.moneyDestroyed = none

variable {x y c : Binary64} {n : ℕ} {won : ℕ}

/-! ## Amounts and losses -/

theorem Binary64.Small.isAmount (h : Small n x) (hn : n < 1024 := by norm_num) : IsAmount x :=
  ⟨h.isFinite hn, h.nonNegative.zero_le⟩

theorem isAmount_zero : IsAmount 0.0 := (Small.zero : Small 0 0.0).isAmount

theorem isLoss_zero (available : UInt64) : IsLoss 0.0 available :=
  ⟨by decide, by decide, (small_ofUInt64 available).nonNegative.zero_le⟩

theorem isLoss_clampLoss (hx : NonNegative x) (available : UInt64) :
    IsLoss (clampLoss x available) available := by
  have hrange : (0.0 : Binary64) ≤ ofUInt64 available :=
    (small_ofUInt64 available).nonNegative.zero_le
  obtain ⟨hlo, hhi⟩ := clamp_mem hx.isNumber hrange
  exact ⟨(isNaN_of_le hlo).2, hlo, hhi⟩

theorem small_capped {cap : Binary64} (h : AtMost n x) : Small n (capped x cap) := small_max_min h

/-- A number of won rounds earns a positive share. -/
theorem mild_tierFraction (hwon : won ≠ 0) (hle : won ≤ 3) : Mild (tierFraction won) := by
  interval_cases won
  · exact absurd rfl hwon
  all_goals exact .const (by decide)

theorem factor_tierFraction (hwon : won ≠ 0) (hle : won ≤ 3) : Factor (tierFraction won) :=
  (mild_tierFraction hwon hle).toFactor

theorem nonNegative_raisedChance (policy : WarPolicy) (h : NonNegative x) :
    NonNegative (policy.raisedChance x) := by
  unfold WarPolicy.raisedChance
  split
  · exact h.mul (.const (by decide))
  · exact h.mul (.const (by decide))
  · exact h

theorem nonNegative_loweredChance (policy : WarPolicy) (h : NonNegative x) :
    NonNegative (policy.loweredChance x) := by
  unfold WarPolicy.loweredChance
  split
  · exact h.mul (.const (by decide))
  · exact h

/-- The chance is a percentage for any policies. -/
theorem improvementChance_mem (hc : Factor c) (context : Context) :
    0.0 ≤ improvementChance c won context ∧ improvementChance c won context ≤ 100.0 := by
  unfold improvementChance
  by_cases h : won < roundCount
  · rw [if_pos h]
    decide
  · rw [if_neg h]
    have hchance := nonNegative_loweredChance context.defenderPolicy
      (nonNegative_raisedChance context.attackerPolicy hc.nonNegative)
    exact clamp_mem hchance.isNumber (by decide)

/-! ## Forces set against each other -/

/-- However many defenders there are, no more is left over than attacks. -/
theorem atMost_netForce (attacking : UInt64) (h : NonNegative x) :
    AtMost 64 (netForce attacking x) := by
  have hattacking := small_ofUInt64 attacking
  exact hattacking.atMost.sub hattacking.isFinite (.factor_mul (.const (by decide)) h)

theorem bounded_netForce (attacking defending : UInt64) :
    Bounded 70 (netForce attacking (ofUInt64 defending)) := by
  have hhalf : Factor 0.5 := .const (by decide)
  have hattacking : Small 70 (ofUInt64 attacking) :=
    ⟨(small_ofUInt64 attacking).nonNegative, (small_ofUInt64 attacking).atMost.mono⟩
  exact hattacking.sub (hhalf.small.mul (small_ofUInt64 defending))

/-! ## Factors -/

theorem mild_infraBonus (policy : WarPolicy) : Mild policy.infraBonus := by
  cases policy <;> exact .const (by decide)

theorem mild_infraExposure (policy : WarPolicy) : Mild policy.infraExposure := by
  cases policy <;> exact .const (by decide)

theorem mild_lootBonus (policy : WarPolicy) : Mild policy.lootBonus := by
  cases policy <;> exact .const (by decide)

theorem mild_lootPenalty (policy : WarPolicy) : Mild policy.lootPenalty := by
  cases policy <;> exact .const (by decide)

theorem mild_blitzFactor (blitz : Bool) : Mild (blitzFactor blitz) := by
  cases blitz <;> exact .const (by decide)

theorem mild_warFactors (war : WarType) : Mild war.factors.infra ∧ Mild war.factors.loot := by
  cases war <;> exact ⟨.const (by decide), .const (by decide)⟩

namespace Factors

/-- The factors are positive figures. -/
structure Positive (f : Factors) : Prop where
  attackerTankStrength : Factor f.attackerTankStrength
  defenderTankStrength : Factor f.defenderTankStrength
  attackerCasualty : Factor f.attackerCasualty
  defenderCasualty : Factor f.defenderCasualty
  infraMultiplier : Small 24 f.infraMultiplier
  lootMultiplier : Small 18 f.lootMultiplier

theorem factor_casualty (blitz fortified : Bool) :
    Factor (blitzFactor blitz * fortificationFactor fortified) := by
  cases blitz <;> cases fortified <;> exact .const (by decide)

theorem factor_attackerTankStrength (holder : Holder) : Factor holder.attackerTankStrength := by
  cases holder <;> exact .const (by decide)

theorem factor_defenderTankStrength (holder : Holder) : Factor holder.defenderTankStrength := by
  cases holder <;> exact .const (by decide)

theorem positive_resolve (context : Context) (fortified : Bool) :
    (resolve context fortified).Positive where
  attackerTankStrength := factor_attackerTankStrength _
  defenderTankStrength := factor_defenderTankStrength _
  attackerCasualty := factor_casualty _ _
  defenderCasualty := (mild_blitzFactor _).toFactor
  infraMultiplier :=
    (((mild_warFactors _).1.small.mul (mild_infraBonus _).small).mul
      (mild_infraExposure _).small).mul (mild_blitzFactor _).small
  lootMultiplier :=
    ((mild_warFactors _).2.small.mul (mild_lootBonus _).small).mul (mild_lootPenalty _).small

end Factors

/-! ## The result of a fight -/

theorem countP_le_three {ρ : Type} {rounds : List ρ} (h : rounds.length = roundCount)
    (won : ρ → Bool) : rounds.countP won ≤ 3 :=
  List.countP_le_length.trans_eq h

/-- Where nothing is fought, nothing is lost. -/
theorem withinBounds_of_idle (action : Action) (defender : Profile) {result : TrialResult}
    (hrounds : result.roundsWon = 0) (hattacker : result.attackerLosses = {})
    (hdefender : result.defenderLosses = {}) (hinfra : result.infraDestroyed = 0.0)
    (hloot : ∀ x, result.moneyLooted = some x → x = 0.0)
    (hchance : ∀ x, result.improvementChance = some x → x = 0.0)
    (hdestroyed : result.moneyDestroyed = none) : result.WithinBounds action defender where
  roundsWon_le := by omega
  attackerLosses unit n _ := by
    rw [hattacker]
    cases unit <;> exact isLoss_zero n
  uncommitted unit _ := by
    rw [hattacker]
    cases unit <;> rfl
  defenderLosses unit := by
    rw [hdefender]
    cases unit <;> exact isLoss_zero _
  infraDestroyed := hinfra ▸ isAmount_zero
  moneyLooted x hx := hloot x hx ▸ isAmount_zero
  improvementChance x hx := by
    rw [hchance x hx]
    decide
  moneyDestroyed := hdestroyed

end BattleOdds
