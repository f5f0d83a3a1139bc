import BattleOdds.Proofs.Trial.Bounds

/-!
# Bounds on a ground battle

The defenders of a city may be without bound, since its residents count among them. Their rolls and
the losses that these cause may then be an infinity, and the pressure on the city the negative one;
but the losses are clamped and the damage is raised to zero.
-/
namespace BattleOdds
open Binary64

variable {x y c : Binary64} {won : ℕ}
variable {factors : Factors} {defender : Profile} {context : Context}

/-- The rolls of a round are non-negative numbers. -/
structure GroundRolls.NonNegative (r : GroundRolls) : Prop where
  attackerSoldiers : Binary64.NonNegative r.attackerSoldiers
  defenderSoldiers : Binary64.NonNegative r.defenderSoldiers
  attackerTanks : Binary64.NonNegative r.attackerTanks
  defenderTanks : Binary64.NonNegative r.defenderTanks

/-- The losses so far are non-negative numbers. -/
structure GroundToll.NonNegative (t : GroundToll) : Prop where
  attackerSoldiers : Binary64.NonNegative t.attackerSoldiers
  attackerTanks : Binary64.NonNegative t.attackerTanks
  defenderSoldiers : Binary64.NonNegative t.defenderSoldiers
  defenderTanks : Binary64.NonNegative t.defenderTanks

theorem nonNegative_soldierLoss (hx : NonNegative x) (hy : NonNegative y) :
    NonNegative (soldierLossRates.loss x y) :=
  (hx.mul (.const (by decide))).add (hy.mul (.const (by decide)))

theorem nonNegative_tankLoss (won : Bool) (hx : NonNegative x) (hy : NonNegative y) :
    NonNegative ((tankLossRates won).loss x y) := by
  have hsoldier : Factor (tankLossRates won).perSoldierRoll := by
    cases won <;> exact .const (by decide)
  have htank : Factor (tankLossRates won).perTankRoll := by
    cases won <;> exact .const (by decide)
  exact (hx.mul hsoldier).add (hy.mul htank)

theorem GroundToll.NonNegative.add {t : GroundToll} {r : GroundRolls} (ht : t.NonNegative)
    (hr : r.NonNegative) : (t.add r).NonNegative where
  attackerSoldiers :=
    ht.attackerSoldiers.add (nonNegative_soldierLoss hr.defenderSoldiers hr.defenderTanks)
  attackerTanks :=
    ht.attackerTanks.add (nonNegative_tankLoss _ hr.defenderSoldiers hr.defenderTanks)
  defenderSoldiers :=
    ht.defenderSoldiers.add (nonNegative_soldierLoss hr.attackerSoldiers hr.attackerTanks)
  defenderTanks :=
    ht.defenderTanks.add (nonNegative_tankLoss _ hr.attackerSoldiers hr.attackerTanks)

theorem GroundToll.NonNegative.foldl_add {rounds : List GroundRolls} {t : GroundToll}
    (ht : t.NonNegative) (h : ∀ r ∈ rounds, r.NonNegative) :
    (rounds.foldl GroundToll.add t).NonNegative := by
  induction rounds generalizing t with
  | nil => exact ht
  | cons r rounds ih =>
    exact ih (ht.add (h r List.mem_cons_self)) fun q hq => h q (List.mem_cons_of_mem r hq)

theorem nonNegative_groundToll {rounds : List GroundRolls} (h : ∀ r ∈ rounds, r.NonNegative) :
    (rounds.foldl GroundToll.add {}).NonNegative :=
  .foldl_add ⟨nonNegative_zero, nonNegative_zero, nonNegative_zero, nonNegative_zero⟩ h

/-- The strengths are non-negative numbers. -/
structure GroundForces.NonNegative (forces : GroundForces) : Prop where
  attackerSoldiers : Binary64.NonNegative forces.attackerSoldiers
  attackerTanks : Binary64.NonNegative forces.attackerTanks
  defenderSoldiers : Binary64.NonNegative forces.defenderSoldiers
  defenderTanks : Binary64.NonNegative forces.defenderTanks
  effectiveDefenders : Binary64.NonNegative forces.effectiveDefenders

/-- The residents count among the defenders, without bound; a NaN counts as none. -/
theorem nonNegative_residents (population : Binary64) :
    NonNegative (population.max 0.0 / 400.0) := by
  have hdivisor : (0.0 : Binary64) < 400.0 := by decide
  have hn := (isNaN_of_lt hdivisor).2
  rw [lt_iff_value hasValue_zero.isNumber hn, hasValue_zero.value_eq] at hdivisor
  exact (nonNegative_max_zero _).div (by decide) hdivisor

theorem nonNegative_muster (hf : factors.Positive) (order : GroundOrder) (defender : Profile) :
    (GroundForces.muster order defender factors).NonNegative := by
  have hsoldier (armed : Bool) : Factor (soldierStrength armed) := by
    cases armed <;> exact .const (by decide)
  have htank : Factor tankStrength := .const (by decide)
  have hcount (m : UInt64) : NonNegative (ofUInt64 m) := (small_ofUInt64 m).nonNegative
  have heffective := (hcount defender.soldiers).add
    (nonNegative_residents defender.highestCityPopulation)
  exact
    { attackerSoldiers := (hcount _).mul (hsoldier _)
      attackerTanks := ((hcount _).mul htank).mul hf.attackerTankStrength
      defenderSoldiers := heffective.mul (hsoldier true)
      defenderTanks := ((hcount _).mul htank).mul hf.defenderTankStrength
      effectiveDefenders := heffective }

theorem yields_roll {forces : GroundForces} (h : forces.NonNegative) :
    Draw.Yields forces.roll GroundRolls.NonNegative := by
  refine (Draw.yields_forceRoll h.attackerSoldiers).bind fun _ h₁ => ?_
  refine (Draw.yields_forceRoll h.defenderSoldiers).bind fun _ h₂ => ?_
  refine (Draw.yields_forceRoll h.attackerTanks).bind fun _ h₃ => ?_
  refine (Draw.yields_forceRoll h.defenderTanks).bind fun _ h₄ => ?_
  exact .pure ⟨h₁, h₂, h₃, h₄⟩

/-- The pressure may be without bound below, where the residents are, but not above. -/
theorem atMost_groundPressure {forces : GroundForces} (h : forces.NonNegative)
    (order : GroundOrder) : AtMost 77 (groundPressure order defender forces) := by
  have hsoldiers : AtMost 76 (netForce order.soldiers forces.effectiveDefenders * 0.000606061) :=
    ((atMost_netForce _ h.effectiveDefenders).mul (.const (by decide))).mono
  have htanks : Bounded 76 (netForce order.tanks (ofUInt64 defender.tanks) * 0.01) :=
    (bounded_netForce _ _).mul (.const (by decide))
  exact hsoldiers.add htanks.atMost htanks.isFinite

theorem small_groundInfra {forces : GroundForces} (h : forces.NonNegative)
    (hf : factors.Positive) (order : GroundOrder) (hwon : won ≠ 0) (hle : won ≤ 3)
    (hc : Factor c) : Small 113 (groundInfra order defender forces factors won c) := by
  have hpressure : AtMost 77 (groundPressure order defender forces) := atMost_groundPressure h order
  have hraw := (hpressure.mul hc).mul (factor_tierFraction hwon hle)
  exact (small_capped hraw).mul hf.infraMultiplier

theorem small_groundLoot (hf : factors.Positive) (order : GroundOrder) (hc : Factor c) :
    Small 159 (groundLoot order defender factors won c) := by
  have hsoldiers : Small 70 (ofUInt64 order.soldiers * 1.1) :=
    (small_ofUInt64 _).mul (Small.const (by decide))
  have htanks : Small 70 (ofUInt64 order.tanks * 25.15) :=
    (small_ofUInt64 _).mul (Small.const (by decide))
  have hraw : Small 159 (rawLoot order factors won c) :=
    (((hsoldiers.add htanks).mul (small_ofUInt64 won.toUInt64)).mul hc.small).mul hf.lootMultiplier
  unfold groundLoot
  cases defender.money with
  | none => exact hraw.atMost.max_zero
  | some cash => exact hraw.atMost.min.max_zero

theorem isLoss_groundControlLoss (order : GroundOrder) (control : Holder) :
    IsLoss (groundControlLoss order defender control won) defender.aircraft := by
  have hrate : Small 6 (groundControlRate won) := by
    unfold groundControlRate
    split
    · exact .const (by decide)
    · exact .const (by decide)
    · exact .const (by decide)
    · exact Small.zero
  cases control with
  | attacker =>
    exact isLoss_clampLoss
      (hrate.mul (small_ofUInt64 order.tanks)).nonNegative _
  | _ => exact isLoss_zero _

theorem withinBounds_groundDefeat (hf : factors.Positive) (order : GroundOrder)
    {rounds : List GroundRolls} (hlength : rounds.length = roundCount)
    (hrounds : ∀ r ∈ rounds, r.NonNegative) :
    (groundDefeat order defender factors rounds).WithinBounds
      (.ground order.soldiers order.tanks order.armed) defender := by
  have htoll := nonNegative_groundToll hrounds
  refine
    { roundsWon_le := countP_le_three hlength _
      attackerLosses := ?_
      uncommitted := ?_
      defenderLosses := ?_
      infraDestroyed := isAmount_zero
      moneyLooted := ?_
      improvementChance := ?_
      moneyDestroyed := rfl }
  · intro unit n h
    cases unit with
    | soldiers =>
      obtain rfl : order.soldiers = n := Option.some.inj h
      exact isLoss_clampLoss (htoll.attackerSoldiers.mul hf.attackerCasualty) _
    | tanks =>
      obtain rfl : order.tanks = n := Option.some.inj h
      exact isLoss_clampLoss (htoll.attackerTanks.mul hf.attackerCasualty) _
    | aircraft => cases h
    | ships => cases h
  · intro unit h
    cases unit with
    | soldiers => cases h
    | tanks => cases h
    | aircraft => rfl
    | ships => rfl
  · intro unit
    cases unit with
    | soldiers => exact isLoss_clampLoss (htoll.defenderSoldiers.mul hf.defenderCasualty) _
    | tanks => exact isLoss_clampLoss (htoll.defenderTanks.mul hf.defenderCasualty) _
    | aircraft => exact isLoss_zero _
    | ships => exact isLoss_zero _
  · rintro x ⟨⟩
    exact isAmount_zero
  · rintro x ⟨⟩
    decide

theorem withinBounds_groundVictory (hf : factors.Positive) (order : GroundOrder)
    {rounds : List GroundRolls} {variances : Binary64 × Binary64}
    (hlength : rounds.length = roundCount) (hrounds : ∀ r ∈ rounds, r.NonNegative)
    (hwon : rounds.countP GroundRolls.attackerWon ≠ 0)
    (hvariances : Factor variances.1 ∧ Factor variances.2) :
    (groundVictory order defender context factors rounds variances).WithinBounds
      (.ground order.soldiers order.tanks order.armed) defender := by
  have hdefeat : (groundDefeat order defender factors rounds).WithinBounds
      (.ground order.soldiers order.tanks order.armed) defender :=
    withinBounds_groundDefeat hf order hlength hrounds
  have hle := countP_le_three hlength GroundRolls.attackerWon
  refine
    { roundsWon_le := hdefeat.roundsWon_le
      attackerLosses := hdefeat.attackerLosses
      uncommitted := hdefeat.uncommitted
      defenderLosses := ?_
      infraDestroyed :=
        (small_groundInfra (nonNegative_muster hf order defender) hf order hwon hle
          hvariances.1).isAmount
      moneyLooted := ?_
      improvementChance := ?_
      moneyDestroyed := rfl }
  · intro unit
    cases unit with
    | soldiers => exact hdefeat.defenderLosses .soldiers
    | tanks => exact hdefeat.defenderLosses .tanks
    | aircraft => exact isLoss_groundControlLoss order context.groundControl
    | ships => exact hdefeat.defenderLosses .ships
  · rintro x ⟨⟩
    exact (small_groundLoot hf order hvariances.2).isAmount
  · rintro x ⟨⟩
    exact improvementChance_mem (.const (by decide)) context

/-- The variances of the damage and of the loot are factors. -/
theorem yields_groundVariances :
    Draw.Yields (do
      let damage ← Draw.variance
      let loot ← Draw.within 0.8 1.1
      return (damage, loot)) fun variances => Factor variances.1 ∧ Factor variances.2 := by
  refine Draw.yields_variance.bind fun damage hdamage => ?_
  have hloot : Draw.Yields (Draw.within 0.8 1.1) Factor :=
    Draw.yields_within_factor (.const (by decide)) (.const (by decide)) (by decide)
  exact hloot.bind fun loot hloot => .pure ⟨hdamage, hloot⟩

theorem withinBounds_groundTrial (hf : factors.Positive) (order : GroundOrder) :
    Draw.Yields (groundTrial order defender context factors)
      (TrialResult.WithinBounds (.ground order.soldiers order.tanks order.armed) defender) := by
  by_cases h : order.soldiers = 0 ∧ order.tanks = 0
  · rw [groundTrial, if_pos h]
    refine .pure (withinBounds_of_idle _ _ rfl rfl rfl rfl ?_ ?_ rfl)
    · rintro x ⟨⟩
      rfl
    · rintro x ⟨⟩
      rfl
  · rw [groundTrial_eq_score _ _ _ _ h]
    exact Fight.yields_score (yields_roll (nonNegative_muster hf order defender))
      yields_groundVariances (fun rounds => withinBounds_groundDefeat hf order)
      (fun rounds variances => withinBounds_groundVictory hf order)

end BattleOdds
