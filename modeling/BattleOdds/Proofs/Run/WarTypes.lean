import BattleOdds.Proofs.Request.Validation
import BattleOdds.Proofs.Run.Coupling
import BattleOdds.Proofs.Trial.WarTypes

/-!
# Runs in wars of each type

Runs of one request in wars of the three types stay in lockstep, so their effects are related row by
row: the factors of damage and of loot are powers of two, and so are the ratios of the rows. Cash
that is known limits each row of the loot by itself.
-/
namespace BattleOdds
open Binary64

namespace Request

/-- The request in a war of another type. -/
def inWar (r : Request) (war : WarType) : Request := { r with context := r.context.inWar war }

/-- The request without the defender's cash. -/
def withoutCash (r : Request) : Request := { r with defender := r.defender.withoutCash }

theorem faults_withoutCash {r : Request} (h : r.faults = []) : r.withoutCash.faults = [] := by
  rw [faults_eq_nil_iff, requirements_met_iff] at h ⊢
  refine ⟨fun side figure x hx => ?_, h.2⟩
  cases side with
  | attacker => exact h.1 .attacker figure x hx
  | defender =>
    cases figure with
    | money => cases hx
    | highestCityInfra => exact h.1 .defender .highestCityInfra x hx
    | highestCityPopulation => exact h.1 .defender .highestCityPopulation x hx
    | averageInfra => exact h.1 .defender .averageInfra x hx

end Request

/-- How the runs of a request in wars of each type are related to one another, and to those of the
request without the defender's cash. -/
structure WarTypesTrade (r : Request) (outcome uncapped : WarType → Run) : Prop where
  infra_ordinary : List.Forall₂ (Multiple 2.0) (outcome .ordinary).ledger.infraDestroyed.toList
    (outcome .attrition).ledger.infraDestroyed.toList
  infra_raid : List.Forall₂ (Multiple 4.0) (outcome .raid).ledger.infraDestroyed.toList
    (outcome .attrition).ledger.infraDestroyed.toList
  loot_ordinary (hground : r.action.kind = .ground) (hmoney : r.defender.money = none) :
    List.Forall₂ (Both (Multiple 2.0)) (outcome .ordinary).ledger.moneyLooted.toList
      (outcome .raid).ledger.moneyLooted.toList
  loot_attrition (hground : r.action.kind = .ground) (hmoney : r.defender.money = none) :
    List.Forall₂ (Both (Multiple 4.0)) (outcome .attrition).ledger.moneyLooted.toList
      (outcome .raid).ledger.moneyLooted.toList
  attrition_le_ordinary (hground : r.action.kind = .ground) :
    List.Forall₂ (Both (· ≤ ·)) (outcome .attrition).ledger.moneyLooted.toList
      (outcome .ordinary).ledger.moneyLooted.toList
  ordinary_le_raid (hground : r.action.kind = .ground) :
    List.Forall₂ (Both (· ≤ ·)) (outcome .ordinary).ledger.moneyLooted.toList
      (outcome .raid).ledger.moneyLooted.toList
  loot_of_cash (cash : Binary64) (hmoney : r.defender.money = some cash) (war : WarType) :
    (outcome war).ledger.moneyLooted
      = (uncapped war).ledger.moneyLooted.map (Option.map (lootOf cash))

section Runs

variable (r : Request) (war war' : WarType) (prices : Prices) (runner : Runner) (seed : UInt64)

theorem coupled_inWar :
    (Plan.resolve (r.inWar war) prices).Coupled
      (TrialResult.Traded r.action r.defender war war') (.resolve (r.inWar war') prices)
      (r.inWar war) (r.inWar war') :=
  .of_lockstep (lockstep_trial_inWar r.context r.defender.isFortified war war' r.action)

/-- The trials of the request in a war of some type. -/
def Request.warLedger : Ledger :=
  runner.run (.resolve (r.inWar war) prices) (r.inWar war) seed

theorem forall₂_infraDestroyed_inWar {c : Binary64} (hc : PowerOfTwo c)
    (h : Multiple c war.factors.infra war'.factors.infra) :
    List.Forall₂ (Multiple c) (r.warLedger war prices runner seed).infraDestroyed.toList
      (r.warLedger war' prices runner seed).infraDestroyed.toList :=
  Runner.column_run (c := .infraDestroyed) (S := Multiple c) (coupled_inWar r war war' prices)
    (fun _ _ htraded => htraded.infraDestroyed hc h) runner rfl seed

theorem forall₂_moneyLooted_inWar {R : Binary64 → Binary64 → Prop}
    (h : ∀ x y, TrialResult.Traded r.action r.defender war war' x y →
      Both R x.moneyLooted y.moneyLooted) :
    List.Forall₂ (Both R) (r.warLedger war prices runner seed).moneyLooted.toList
      (r.warLedger war' prices runner seed).moneyLooted.toList :=
  Runner.column_run (c := .moneyLooted) (S := Both R) (coupled_inWar r war war' prices) h runner rfl
    seed

theorem moneyLooted_of_cash {cash : Binary64} (hmoney : r.defender.money = some cash) :
    (r.warLedger war prices runner seed).moneyLooted
      = (r.withoutCash.warLedger war prices runner seed).moneyLooted.map
          (Option.map (lootOf cash)) := by
  have hcoupled : (Plan.resolve (r.withoutCash.inWar war) prices).Coupled
      (fun x y => x.moneyLooted.map (lootOf cash) = y.moneyLooted)
      (.resolve (r.inWar war) prices) (r.withoutCash.inWar war) (r.inWar war) :=
    .of_lockstep (lockstep_trial_withoutCash r.context r.defender.isFortified war hmoney r.action)
  exact (runner.column_run_map (c := .moneyLooted) (f := Option.map (lootOf cash)) hcoupled rfl seed
    fun _ _ h => h).symm

theorem warTypesTrade {outcome uncapped : WarType → Run}
    (houtcome : ∀ war, (outcome war).ledger = r.warLedger war prices runner seed)
    (huncapped : ∀ war, (uncapped war).ledger = r.withoutCash.warLedger war prices runner seed) :
    WarTypesTrade r outcome uncapped := by
  constructor
  case infra_ordinary =>
    rw [houtcome, houtcome]
    exact forall₂_infraDestroyed_inWar r _ _ prices runner seed powerOfTwo_two multiple_two_half
  case infra_raid =>
    rw [houtcome, houtcome]
    exact forall₂_infraDestroyed_inWar r _ _ prices runner seed powerOfTwo_four
      multiple_four_quarter
  case loot_ordinary =>
    intro hground hmoney
    rw [houtcome, houtcome]
    exact forall₂_moneyLooted_inWar r _ _ prices runner seed fun x y htraded =>
      htraded.moneyLooted powerOfTwo_two multiple_two_half hground hmoney
  case loot_attrition =>
    intro hground hmoney
    rw [houtcome, houtcome]
    exact forall₂_moneyLooted_inWar r _ _ prices runner seed fun x y htraded =>
      htraded.moneyLooted powerOfTwo_four multiple_four_quarter hground hmoney
  case attrition_le_ordinary =>
    intro hground
    rw [houtcome, houtcome]
    exact forall₂_moneyLooted_inWar r _ _ prices runner seed fun x y htraded =>
      htraded.moneyLooted_le (by decide) hground
  case ordinary_le_raid =>
    intro hground
    rw [houtcome, houtcome]
    exact forall₂_moneyLooted_inWar r _ _ prices runner seed fun x y htraded =>
      htraded.moneyLooted_le (by decide) hground
  case loot_of_cash =>
    intro cash hmoney war
    rw [houtcome, huncapped]
    exact moneyLooted_of_cash r war prices runner seed hmoney

end Runs

/-- The type of a war scales damage and loot exactly. In every trial of a run the infrastructure
destroyed in a war of attrition is twice that in an ordinary war and four times that in a raid; the
loot of a raid is twice that in an ordinary war and four times that in a war of attrition as long as
the cash is not known. Where it is, it limits the loot of each trial by itself and keeps the order.
-/
theorem war_types_trade (r : Request) (machine : Machine) (runner : Runner) (prices : Prices)
    (entropy : UInt64) (moment : Timestamp) (hserves : machine.Serves runner)
    (hvalid : r.faults = []) :
    ∃ outcome uncapped : WarType → Run,
      (∀ war, (r.inWar war).run machine runner prices entropy moment = .ok (outcome war))
      ∧ (∀ war,
        (r.withoutCash.inWar war).run machine runner prices entropy moment = .ok (uncapped war))
      ∧ WarTypesTrade r outcome uncapped := by
  have hwar (war : WarType) : (r.inWar war).faults = [] := hvalid
  have hcash : r.withoutCash.faults = [] := Request.faults_withoutCash hvalid
  have hwithout (war : WarType) : (r.withoutCash.inWar war).faults = [] := hcash
  exact ⟨_, _, fun war => Request.run_eq_ok (hwar war) hserves prices entropy moment,
    fun war => Request.run_eq_ok (hwithout war) hserves prices entropy moment,
    warTypesTrade r prices runner (r.seed.getD entropy) (fun _ => rfl) fun _ => rfl⟩

/-- A ground battle against a defender whose cash is known. -/
theorem war_types_trade_of_city :
    let r : Request :=
      { seed := some 11
        attacker := { soldiers := 200, tanks := 4 }
        defender :=
          { soldiers := 60, tanks := 3, money := some 1000500.0, highestCityInfra := 1200.0 }
        context := { attackerPolicy := .pirate, attackerBlitz := true }
        action := .ground 200 4 true }
    let machine := Machine.withRoomFor 8
    machine.Serves (.batched 4) ∧ r.faults = [] ∧ ∃ outcome uncapped : WarType → Run,
      (∀ war, (r.inWar war).run machine (.batched 4) {} 0 default = .ok (outcome war))
      ∧ List.Forall₂ (Multiple 4.0) (outcome .raid).ledger.infraDestroyed.toList
        (outcome .attrition).ledger.infraDestroyed.toList
      ∧ List.Forall₂ (Both (· ≤ ·)) (outcome .ordinary).ledger.moneyLooted.toList
        (outcome .raid).ledger.moneyLooted.toList
      ∧ (outcome .raid).ledger.moneyLooted
        = (uncapped .raid).ledger.moneyLooted.map (Option.map (lootOf 1000500.0)) := by
  intro r machine
  have hserves : machine.Serves (.batched 4) := by decide
  have hvalid : r.faults = [] := by decide
  obtain ⟨outcome, uncapped, hrun, -, htrade⟩ :=
    war_types_trade r machine (.batched 4) {} 0 default hserves hvalid
  exact ⟨hserves, hvalid, outcome, uncapped, hrun, htrade.infra_raid, htrade.ordinary_le_raid rfl,
    htrade.loot_of_cash _ rfl .raid⟩

end BattleOdds
