import BattleOdds.Proofs.Run.Batched
import BattleOdds.Proofs.Trial.Scope

/-!
# Which figures a report has

An optional figure is present in all trials of a run or in none, as its action models it or not, and
its distribution is in the report in the first case only. The columns of units that an action cannot
cost a side are zero throughout.
-/
namespace BattleOdds

/-- There is a distribution where a sample is present. -/
theorem Summary.isSome_ofPresent?_iff (samples : List (Option Binary64)) :
    (ofPresent? samples).isSome = true ↔ ∃ x, some x ∈ samples := by
  have hmem (x : Binary64) : x ∈ samples.filterMap id ↔ some x ∈ samples := by
    simp [List.mem_filterMap]
  simp only [← hmem, ← List.isEmpty_eq_false_iff_exists_mem, ofPresent?]
  cases (samples.filterMap id).isEmpty <;> simp

/-- Where all samples are present or absent alike, so is their distribution. -/
theorem Summary.isSome_ofPresent?_of_forall {samples : List (Option Binary64)} {p : Prop}
    (hne : samples ≠ []) (h : ∀ x ∈ samples, x.isSome = true ↔ p) :
    (ofPresent? samples).isSome = true ↔ p := by
  rw [isSome_ofPresent?_iff]
  constructor
  · rintro ⟨x, hx⟩
    exact (h (some x) hx).mp rfl
  · intro hp
    obtain ⟨sample, hsample⟩ := List.exists_mem_of_ne_nil samples hne
    obtain ⟨x, rfl⟩ := Option.isSome_iff_exists.mp ((h sample hsample).mpr hp)
    exact ⟨x, hsample⟩

/-- The column of a type of unit. -/
def UnitType.figure : UnitType → Figure
  | .soldiers => .soldiers
  | .tanks => .tanks
  | .aircraft => .aircraft
  | .ships => .ships

theorem Plan.cell_losses (plan : Plan) (result : TrialResult) (side : Side) (unit : UnitType) :
    (plan.entry result).cell (.booked side unit.figure) = (result.losses side).of unit := by
  cases side <;> cases unit <;> rfl

/-- The optional distributions are those of what an action of a kind models. -/
structure Metrics.Models (m : Metrics) (kind : ActionKind) : Prop where
  moneyLooted : m.moneyLooted.isSome = true ↔ kind = .ground
  improvementChance : m.improvementChance.isSome = true ↔ kind ≠ .air
  moneyDestroyed : m.moneyDestroyed = none
  infraValue : m.attackerCosts.infraValue = none ∧ m.defenderCosts.infraValue = none

section Run

variable (runner : Runner) (plan : Plan) (r : Request) (seed : UInt64)

theorem yields_withinScope :
    Draw.Yields (plan.trial r) (TrialResult.WithinScope r.action r.context.groundControl) :=
  withinScope_trial r.action r.defender r.context plan.factors

/-- Units that are never exposed are never lost. -/
theorem eq_zero_of_mem_losses {side : Side} {unit : UnitType}
    (h : ∀ won, r.action.exposes r.context.groundControl won side unit = false) {x : Binary64}
    (hx : x ∈ (runner.run plan r seed).column (.booked side unit.figure)) : x = 0.0 := by
  obtain ⟨result, hscope, hcell⟩ := runner.exists_of_mem_column (yields_withinScope plan r) hx
  rw [← hcell, plan.cell_losses]
  exact hscope.losses side unit (h _)

theorem isSome_moneyLooted_of_mem {x : Option Binary64}
    (hx : x ∈ (runner.run plan r seed).moneyLooted) :
    x.isSome = true ↔ r.action.kind = .ground := by
  obtain ⟨result, hscope, rfl⟩ := runner.exists_of_mem_column (yields_withinScope plan r)
    (c := .moneyLooted) hx
  exact hscope.isSome_moneyLooted

theorem isSome_improvementChance_of_mem {x : Option Binary64}
    (hx : x ∈ (runner.run plan r seed).improvementChance) :
    x.isSome = true ↔ r.action.kind ≠ .air := by
  obtain ⟨result, hscope, rfl⟩ := runner.exists_of_mem_column (yields_withinScope plan r)
    (c := .improvementChance) hx
  exact hscope.isSome_improvementChance

theorem eq_none_of_mem_moneyDestroyed {x : Option Binary64}
    (hx : x ∈ (runner.run plan r seed).moneyDestroyed) : x = none := by
  obtain ⟨result, hscope, rfl⟩ := runner.exists_of_mem_column (yields_withinScope plan r)
    (c := .moneyDestroyed) hx
  exact hscope.moneyDestroyed

/-- A run that has trials is reported with what its action models. -/
theorem models_run (h : 0 < plan.trials) :
    (runner.run plan r seed).metrics.Models r.action.kind := by
  have hne (c : Column) : ((runner.run plan r seed).column c).toList ≠ [] := by
    rw [Ne, ← List.length_eq_zero_iff, Array.length_toList, runner.size_column_run]
    exact h.ne'
  refine
    { moneyLooted := Summary.isSome_ofPresent?_of_forall (hne .moneyLooted) fun x hx =>
        isSome_moneyLooted_of_mem runner plan r seed (Array.mem_toList_iff.mp hx)
      improvementChance := Summary.isSome_ofPresent?_of_forall (hne .improvementChance) fun x hx =>
        isSome_improvementChance_of_mem runner plan r seed (Array.mem_toList_iff.mp hx)
      moneyDestroyed := ?_
      infraValue := ⟨rfl, rfl⟩ }
  have habsent : ¬ (Summary.ofPresent? (runner.run plan r seed).moneyDestroyed.toList).isSome := by
    rw [Summary.isSome_ofPresent?_iff]
    rintro ⟨x, hx⟩
    cases eq_none_of_mem_moneyDestroyed runner plan r seed (Array.mem_toList_iff.mp hx)
  exact Option.not_isSome_iff_eq_none.mp habsent

end Run

/-- An action touches what is in its scope. Whatever is drawn, and under any factors, a trial costs
each side units only of the types that its action exposes at the rounds that were won, books loot
only in ground battles and a chance against improvements only outside air strikes, and has no effect
without a won round. So the report of a run has the distributions of what the action models and no
others, and units that are never exposed are lost in no trial. -/
theorem effects_within_scope :
    (∀ (action : Action) (defender : Profile) (context : Context) (factors : Factors)
        (g : Generator),
      (action.trial defender context factors g).1.WithinScope action context.groundControl)
    ∧ ∀ (r : Request) (machine : Machine) (runner : Runner) (prices : Prices) (entropy : UInt64)
        (moment : Timestamp), r.faults = [] → machine.Serves runner →
      ∃ outcome, r.run machine runner prices entropy moment = .ok outcome
        ∧ (outcome.report.metrics.moneyLooted.isSome = true ↔ r.action.kind = .ground)
        ∧ (outcome.report.metrics.improvementChance.isSome = true ↔ r.action.kind ≠ .air)
        ∧ outcome.report.metrics.moneyDestroyed = none
        ∧ outcome.report.metrics.attackerCosts.infraValue = none
        ∧ outcome.report.metrics.defenderCosts.infraValue = none
        ∧ ∀ side unit, (∀ won, r.action.exposes r.context.groundControl won side unit = false) →
          ∀ x ∈ (outcome.ledger.side side).column unit.figure, x = 0.0 := by
  refine ⟨withinScope_trial, fun r machine runner prices entropy moment hvalid hserves => ?_⟩
  have hmany : 100 ≤ r.trials := hundred_le_clampIterations r.iterations
  have hmodels : (runner.run (.resolve r prices) r (r.seed.getD entropy)).metrics.Models
      r.action.kind := models_run runner _ r _ (Nat.lt_of_lt_of_le (by decide) hmany)
  exact ⟨_, Request.run_eq_ok hvalid hserves prices entropy moment, hmodels.moneyLooted,
    hmodels.improvementChance, hmodels.moneyDestroyed, hmodels.infraValue.1, hmodels.infraValue.2,
    fun side unit h x => eq_zero_of_mem_losses runner _ r _ h⟩

/-- A strike on tanks loses no ships and loots nothing. -/
theorem effects_within_scope_of_strike :
    let r : Request :=
      { attacker := { aircraft := 90, ships := 2 }
        defender := { tanks := 40, aircraft := 30, ships := 8, money := some 9000000.0 }
        context := { groundControl := .attacker }
        action := .air 90 .tanks }
    let machine := Machine.withRoomFor 8
    r.faults = [] ∧ machine.Serves (.batched 4)
    ∧ (∀ won, r.action.exposes r.context.groundControl won .defender .ships = false)
    ∧ ∃ outcome, r.run machine (.batched 4) {} 5 default = .ok outcome
      ∧ outcome.report.metrics.moneyLooted = none
      ∧ ∀ x ∈ outcome.ledger.defender.ships, x = 0.0 := by
  intro r machine
  have hvalid : r.faults = [] := by decide
  have hserves : machine.Serves (.batched 4) := by decide
  have hnever (won : ℕ) : r.action.exposes r.context.groundControl won .defender .ships = false :=
    decide_eq_false fun h : AirTarget.tanks.unit? = some .ships ∧ won ≠ 0 => by cases h.1
  obtain ⟨outcome, hrun, hloot, -, -, -, -, hzero⟩ :=
    effects_within_scope.2 r machine (.batched 4) {} 5 default hvalid hserves
  exact ⟨hvalid, hserves, hnever, outcome, hrun,
    Option.not_isSome_iff_eq_none.mp fun h => absurd (hloot.mp h) (by decide),
    hzero .defender .ships hnever⟩

end BattleOdds
