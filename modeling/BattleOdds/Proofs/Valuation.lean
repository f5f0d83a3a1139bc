import BattleOdds.Proofs.Ledger.Columns
import BattleOdds.Proofs.Trial.Magnitudes

/-!
# Values at moderate prices

Prices from zero up to `10 ^ 200` are far above any that a market knows and far below the greatest
figure. What units and supplies are worth at such prices is a sum of products of counts, constants
and prices, so it is small, and so is every figure that is recorded of a trial.
-/
namespace BattleOdds
open Binary64

/-- The prices are numbers from zero up to `10 ^ 200`. -/
structure Prices.Moderate (p : Prices) : Prop where
  gasoline : 0.0 ≤ p.gasoline ∧ p.gasoline ≤ 1e200
  munitions : 0.0 ≤ p.munitions ∧ p.munitions ≤ 1e200
  steel : 0.0 ≤ p.steel ∧ p.steel ≤ 1e200
  aluminum : 0.0 ≤ p.aluminum ∧ p.aluminum ≤ 1e200

variable {x : Binary64} {prices : Prices}

/-! ## Constants -/

set_option maxRecDepth 4000 in
theorem small_greatestPrice : Small 665 1e200 := by
  have hvalue : HasValue 1e200 (5883593420661338 * 2 ^ (612 : ℤ)) :=
    hasValue_of_fields (n := 5883593420661338) (e := 612) (if_neg (by decide)) (by decide)
      (by norm_num)
  refine ⟨hvalue.nonNegative (by positivity), hvalue.atMost ?_⟩
  calc (5883593420661338 : ℚ) * 2 ^ (612 : ℤ)
    _ ≤ 2 ^ (53 : ℤ) * 2 ^ (612 : ℤ) := by gcongr; norm_num
    _ = 2 ^ (53 + 612 : ℤ) := (zpow_add₀ (by norm_num) _ _).symm
    _ = 2 ^ 665 := zpow_natCast 2 665

theorem Prices.Moderate.small_of_le (h : 0.0 ≤ x ∧ x ≤ 1e200) : Small 665 x :=
  small_greatestPrice.of_le h

/-- The greatest cost of a unit without its metal. -/
theorem small_fiftyThousand : Small 18 50000.0 := by
  have hproduct : Small 18 (64.0 * 64.0 * 64.0) :=
    ((Small.const (by decide)).mul (Small.const (by decide))).mul (Small.const (by decide))
  exact hproduct.of_le (by decide)

/-! ## Units -/

namespace UnitValues

/-- What units of each type are worth is small. -/
structure Limited (values : UnitValues) : Prop where
  soldier : Small 672 values.soldier
  tank : Small 672 values.tank
  aircraft : Small 672 values.aircraft
  ship : Small 672 values.ship

/-- A cost of a unit and the price of its metal make up what it is worth. -/
theorem small_unitValue {base amount price : Binary64} (hbase : 0.0 ≤ base ∧ base ≤ 50000.0)
    (hamount : Factor amount) (hprice : 0.0 ≤ price ∧ price ≤ 1e200) :
    Small 672 (base + amount * price) := by
  have hmetal : Small 671 (amount * price) :=
    hamount.small.mul (Prices.Moderate.small_of_le hprice)
  have hbase' : Small 671 base := (small_fiftyThousand.of_le hbase).mono
  exact hbase'.add hmetal

theorem limited_atPrices (h : prices.Moderate) : (atPrices prices).Limited where
  soldier := (Factor.const (c := 5.0) (by decide)).small.mono
  tank := small_unitValue (by decide) (.const (by decide)) h.steel
  aircraft := small_unitValue (by decide) (.const (by decide)) h.aluminum
  ship := small_unitValue (by decide) (.const (by decide)) h.steel

theorem Limited.small_lossesValue {values : UnitValues} (h : values.Limited) {losses : UnitLosses}
    (hlosses : ∀ unit, Small 64 (losses.of unit)) : Small 739 (values.lossesValue losses) := by
  have hsoldiers : Small 736 (losses.soldiers * values.soldier) :=
    (hlosses .soldiers).mul h.soldier
  have htanks : Small 736 (losses.tanks * values.tank) := (hlosses .tanks).mul h.tank
  have haircraft : Small 736 (losses.aircraft * values.aircraft) :=
    (hlosses .aircraft).mul h.aircraft
  have hships : Small 736 (losses.ships * values.ship) := (hlosses .ships).mul h.ship
  exact ((hsoldiers.add htanks).add haircraft.mono).add hships.mono

end UnitValues

/-! ## Supplies -/

namespace Consumption

/-- What is used up is made of counts. -/
structure Limited (c : Consumption) : Prop where
  gasoline : Small 71 c.gasoline
  munitions : Small 71 c.munitions

theorem limited_ground (tanks : UInt64) {soldierMunitions : Binary64}
    (h : Small 70 soldierMunitions) : (ground tanks soldierMunitions).Limited := by
  have htanks : Small 70 (ofUInt64 tanks * 0.01) := (small_ofUInt64 _).mul (Small.const (by decide))
  exact ⟨htanks.mono, h.add htanks⟩

theorem limited_air (aircraft : UInt64) : (air aircraft).Limited := by
  have hamount : Small 70 (ofUInt64 aircraft * 0.25) :=
    (small_ofUInt64 _).mul (Small.const (by decide))
  exact ⟨hamount.mono, hamount.mono⟩

theorem limited_naval (ships : UInt64) : (naval ships).Limited := by
  have hgasoline : Small 70 (ofUInt64 ships * 2.0) :=
    (small_ofUInt64 _).mul (.const (by decide))
  have hmunitions : Small 70 (ofUInt64 ships * 3.0) :=
    (small_ofUInt64 _).mul (.const (by decide))
  exact ⟨hgasoline.mono, hmunitions.mono⟩

theorem small_soldierMunitions (soldiers : UInt64) : Small 70 (soldierMunitions soldiers) :=
  (small_ofUInt64 _).mul (Small.const (by decide))

theorem Limited.small_value {c : Consumption} (hc : c.Limited) (h : prices.Moderate) :
    Small 737 (c.value prices) := by
  have hgasoline : Small 736 (c.gasoline * prices.gasoline) :=
    hc.gasoline.mul (Prices.Moderate.small_of_le h.gasoline)
  have hmunitions : Small 736 (c.munitions * prices.munitions) :=
    hc.munitions.mul (Prices.Moderate.small_of_le h.munitions)
  exact hgasoline.add hmunitions

end Consumption

namespace Action

theorem limited_attackerConsumption (action : Action) : action.attackerConsumption.Limited := by
  cases action with
  | ground soldiers tanks armed =>
    refine Consumption.limited_ground tanks ?_
    cases armed with
    | true => exact Consumption.small_soldierMunitions soldiers
    | false => exact Small.zero
  | air aircraft target => exact Consumption.limited_air aircraft
  | naval ships => exact Consumption.limited_naval ships

theorem limited_defenderConsumption (action : Action) (defender : Profile) :
    (action.defenderConsumption defender).Limited := by
  cases action with
  | ground soldiers tanks armed =>
    exact Consumption.limited_ground _ (Consumption.small_soldierMunitions _)
  | air aircraft target => exact Consumption.limited_air _
  | naval ships => exact Consumption.limited_naval _

end Action

end BattleOdds
