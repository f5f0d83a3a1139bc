import BattleOdds.Proofs.Report.Amounts
import BattleOdds.Proofs.Run.Coupling
import BattleOdds.Proofs.Summary.Order
import BattleOdds.Proofs.Trial.Order

/-!
# Escalation

Fortification and blitzes raise factors and are read nowhere else in a trial. So a request and its
escalation stay in lockstep through a whole run, and no figure of the one exceeds that of the other
in any trial. Sorting, adding up and dividing keep that order, which carries it into the report.
What units are worth has to be finite for it: nothing lost at an infinite value is not a number.
-/
namespace BattleOdds
open Binary64

/-! ## Escalated requests -/

/-- A request with a fortified defender or with blitzes in addition to its own. -/
def Request.escalate (r : Request) (fortified defenderBlitz attackerBlitz : Bool) : Request :=
  { r with
    defender := { r.defender with isFortified := r.defender.isFortified || fortified }
    context := { r.context with
      defenderBlitz := r.context.defenderBlitz || defenderBlitz
      attackerBlitz := r.context.attackerBlitz || attackerBlitz } }

section Escalation

variable (r : Request) (fortified defenderBlitz attackerBlitz : Bool)

theorem raises_blitzFactor (blitz more : Bool) :
    Raises (blitzFactor blitz) (blitzFactor (blitz || more)) := by
  cases blitz <;> cases more <;> exact .const (by decide)

theorem raises_fortificationFactor (fortified more : Bool) :
    Raises (fortificationFactor fortified) (fortificationFactor (fortified || more)) := by
  cases fortified <;> cases more <;> exact .const (by decide)

theorem raised_escalate :
    r.factors.Raised (r.escalate fortified defenderBlitz attackerBlitz).factors where
  positive := Factors.positive_resolve _ _
  attackerTankStrength := rfl
  defenderTankStrength := rfl
  attackerCasualty := by
    have hblitz := raises_blitzFactor r.context.defenderBlitz defenderBlitz
    have hfortified := raises_fortificationFactor r.defender.isFortified fortified
    exact ⟨Factors.factor_casualty _ _, Factors.factor_casualty _ _,
      (hblitz.under.mul hfortified).le⟩
  defenderCasualty := raises_blitzFactor _ _
  infraMultiplier := by
    have hterms : NonNegative (r.context.warType.factors.infra
        * r.context.attackerPolicy.infraBonus * r.context.defenderPolicy.infraExposure) :=
      ((mild_warFactors _).1.nonNegative.mul (mild_infraBonus _).toFactor).mul
        (mild_infraExposure _).toFactor
    have hblitz := raises_blitzFactor r.context.attackerBlitz attackerBlitz
    exact ⟨Factors.factor_infraMultiplier _ _, Factors.factor_infraMultiplier _ _,
      ((Under.refl hterms).mul hblitz).le⟩

/-- Nothing but the factors of a trial is escalated. -/
theorem trial_escalate (prices : Prices) :
    (Plan.resolve (r.escalate fortified defenderBlitz attackerBlitz) prices).trial
        (r.escalate fortified defenderBlitz attackerBlitz)
      = r.action.trial r.defender r.context
        (r.escalate fortified defenderBlitz attackerBlitz).factors := by
  obtain ⟨_, _, _, _, _, action⟩ := r
  cases action <;> rfl

theorem entry_escalate (prices : Prices) :
    (Plan.resolve (r.escalate fortified defenderBlitz attackerBlitz) prices).entry
      = (Plan.resolve r prices).entry := by
  obtain ⟨_, _, _, _, _, action⟩ := r
  cases action <;> rfl

/-- The trials of a request and of its escalation, the latter with small figures. -/
theorem coupled_escalate (prices : Prices) :
    (Plan.resolve r prices).Coupled (fun x y => x.Under y ∧ y.Limited)
      (.resolve (r.escalate fortified defenderBlitz attackerBlitz) prices) r
      (r.escalate fortified defenderBlitz attackerBlitz) := by
  have hraised := raised_escalate r fortified defenderBlitz attackerBlitz
  have hpositive := Factors.positive_resolve
    (r.escalate fortified defenderBlitz attackerBlitz).context
    (r.escalate fortified defenderBlitz attackerBlitz).defender.isFortified
  refine .of_lockstep ?_
  rw [trial_escalate]
  exact (lockstep_trial_of_raised hraised r.action).and_yields
    (limited_trial hpositive r.action r.defender r.context)

end Escalation

/-! ## Figures -/

/-- Prices from zero on, none of them nor the value of any unit infinite. -/
structure Prices.Sound (p : Prices) : Prop where
  figures : ∀ price ∈ p.figures, 0.0 ≤ price ∧ price.isFinite = true
  tank : (UnitValues.atPrices p).tank.isFinite = true
  aircraft : (UnitValues.atPrices p).aircraft.isFinite = true
  ship : (UnitValues.atPrices p).ship.isFinite = true

/-- A figure that follows from prices; the others are counts and amounts. -/
def Figure.ofPrices : Figure → Bool
  | .usageValue | .lossesValue | .totalValue => true
  | _ => false

section Figures

variable {prices : Prices} {r : Request} {x y : TrialResult}

theorem TrialResult.Under.losses (h : x.Under y) (side : Side) (unit : UnitType) :
    Binary64.Under ((x.losses side).of unit) ((y.losses side).of unit) := by
  cases side with
  | attacker => exact h.attackerLosses unit
  | defender => exact h.defenderLosses unit

theorem Prices.Sound.nonNegative (h : prices.Sound) {price : Binary64}
    (hprice : price ∈ prices.figures) : NonNegative price :=
  nonNegative_zero.of_le (h.figures price hprice).1

/-- A greater loss of finitely many units is worth more. -/
theorem under_lossesValue (hp : prices.Sound) {losses losses' : UnitLosses}
    (h : ∀ unit, Under (losses.of unit) (losses'.of unit))
    (hfinite : ∀ unit, (losses'.of unit).isFinite = true) :
    Under ((UnitValues.atPrices prices).lossesValue losses)
      ((UnitValues.atPrices prices).lossesValue losses') := by
  have hsteel : NonNegative prices.steel := hp.nonNegative (by simp [Prices.figures])
  have haluminum : NonNegative prices.aluminum := hp.nonNegative (by simp [Prices.figures])
  have hsoldier : Factor (UnitValues.atPrices prices).soldier := .const (c := 5.0) (by decide)
  have htank : NonNegative (UnitValues.atPrices prices).tank :=
    .add (.const (by decide)) (.factor_mul (.const (by decide)) hsteel)
  have haircraft : NonNegative (UnitValues.atPrices prices).aircraft :=
    .add (.const (by decide)) (.factor_mul (.const (by decide)) haluminum)
  have hship : NonNegative (UnitValues.atPrices prices).ship :=
    .add (.const (by decide)) (.factor_mul (.const (by decide)) hsteel)
  have hsoldiers := (h .soldiers).mul_of_isFinite (hfinite .soldiers) hsoldier.nonNegative
    hsoldier.isFinite
  have htanks := (h .tanks).mul_of_isFinite (hfinite .tanks) htank hp.tank
  have hflying := (h .aircraft).mul_of_isFinite (hfinite .aircraft) haircraft hp.aircraft
  have hships := (h .ships).mul_of_isFinite (hfinite .ships) hship hp.ship
  exact ((hsoldiers.add htanks).add hflying).add hships

theorem nonNegative_usageValue (hp : prices.Sound) {usage : Consumption} (h : usage.Limited) :
    NonNegative (usage.value prices) := by
  have hgasoline : prices.gasoline ∈ prices.figures := by simp [Prices.figures]
  have hmunitions : prices.munitions ∈ prices.figures := by simp [Prices.figures]
  exact (h.gasoline.nonNegative.mul_of_isFinite h.gasoline.isFinite (hp.nonNegative hgasoline)
      (hp.figures _ hgasoline).2).add
    (h.munitions.nonNegative.mul_of_isFinite h.munitions.isFinite (hp.nonNegative hmunitions)
      (hp.figures _ hmunitions).2)

theorem Plan.losses_entry (plan : Plan) (result : TrialResult) (side : Side) :
    (plan.entry result).losses side = result.losses side := by
  cases side <;> rfl

theorem Plan.lossesValue_entry (plan : Plan) (result : TrialResult) (side : Side) :
    (plan.entry result).lossesValue side = plan.unitValues.lossesValue (result.losses side) := by
  cases side <;> rfl

/-- What is used up is the same in every trial. -/
theorem Plan.costs_entry (plan : Plan) (x y : TrialResult) (side : Side) :
    (plan.entry x).costs side = (plan.entry y).costs side := by
  cases side <;> rfl

/-- Results under one plan: what follows from prices is compared at sound prices only. -/
theorem under_figure (h : x.Under y) (hy : y.Limited) (side : Side) (figure : Figure)
    (hp : figure.ofPrices = true → prices.Sound) :
    Under (((Plan.resolve r prices).entry x).figure side figure)
      (((Plan.resolve r prices).entry y).figure side figure) := by
  have husage : (((Plan.resolve r prices).entry y).costs side).usage.Limited :=
    Plan.limited_usage side
  have husageValue (hp : prices.Sound) :
      NonNegative (((Plan.resolve r prices).entry y).costs side).usageValue := by
    cases side <;> exact nonNegative_usageValue hp husage
  have hlossesValue (hp : prices.Sound) :
      Under (((Plan.resolve r prices).entry x).lossesValue side)
        (((Plan.resolve r prices).entry y).lossesValue side) := by
    rw [Plan.lossesValue_entry, Plan.lossesValue_entry]
    refine under_lossesValue hp (h.losses side) fun unit => ?_
    cases side with
    | attacker => exact (hy.attackerLosses unit).isFinite
    | defender => exact (hy.defenderLosses unit).isFinite
  have hlosses (unit : UnitType) :
      Under ((((Plan.resolve r prices).entry x).losses side).of unit)
        ((((Plan.resolve r prices).entry y).losses side).of unit) := by
    rw [Plan.losses_entry, Plan.losses_entry]
    exact h.losses side unit
  cases figure with
  | soldiers => exact hlosses .soldiers
  | tanks => exact hlosses .tanks
  | aircraft => exact hlosses .aircraft
  | ships => exact hlosses .ships
  | gasoline =>
    simp only [Entry.figure, Plan.costs_entry _ x y]
    exact .refl husage.gasoline.nonNegative
  | munitions =>
    simp only [Entry.figure, Plan.costs_entry _ x y]
    exact .refl husage.munitions.nonNegative
  | usageValue =>
    simp only [Entry.figure, Plan.costs_entry _ x y]
    exact .refl (husageValue (hp rfl))
  | lossesValue => exact hlossesValue (hp rfl)
  | totalValue =>
    simp only [Entry.figure, Plan.costs_entry _ x y]
    exact (Under.refl (husageValue (hp rfl))).add (hlossesValue (hp rfl))

end Figures

/-! ## Runs -/

/-- The summary of a figure of one side. -/
def Metrics.summary (m : Metrics) : Side → Figure → Summary
  | .attacker => sideSummary m.attackerLosses m.attackerConsumption m.attackerCosts
  | .defender => sideSummary m.defenderLosses m.defenderConsumption m.defenderCosts
where
  sideSummary (losses : LossSummaries) (consumption : ConsumptionSummaries)
      (costs : CostSummaries) : Figure → Summary
    | .soldiers => losses.soldiers
    | .tanks => losses.tanks
    | .aircraft => losses.aircraft
    | .ships => losses.ships
    | .gasoline => consumption.gasoline
    | .munitions => consumption.munitions
    | .usageValue => costs.consumablesValue
    | .lossesValue => costs.unitLossesValue
    | .totalValue => costs.totalValue

theorem Ledger.summary_metrics (l : Ledger) (side : Side) (figure : Figure) :
    l.metrics.summary side figure = .ofSamples ((l.side side).column figure).toList := by
  cases side <;> cases figure <;> rfl

/-- Row by row no figure of either side and no destroyed infrastructure exceeds that of another run,
nor does the least, the mean or the greatest in the report. What follows from the prices of the runs
is compared where these are sound. -/
structure Run.Under (prices : Prices) (x y : Run) : Prop where
  column_le (side : Side) (figure : Figure) (h : figure.ofPrices = true → prices.Sound) :
    List.Forall₂ (· ≤ ·) ((x.ledger.side side).column figure).toList
      ((y.ledger.side side).column figure).toList
  summary_le (side : Side) (figure : Figure) (h : figure.ofPrices = true → prices.Sound) :
    (x.report.metrics.summary side figure).Under (y.report.metrics.summary side figure)
  infraDestroyed_le : List.Forall₂ (· ≤ ·) x.ledger.infraDestroyed.toList
    y.ledger.infraDestroyed.toList
  infraSummary_le : x.report.metrics.infraDestroyed.Under y.report.metrics.infraDestroyed

section Runs

variable (r : Request) (fortified defenderBlitz attackerBlitz : Bool) (runner : Runner)
variable (prices : Prices) (seed : UInt64)

theorem forall₂_figure (side : Side) (figure : Figure)
    (hp : figure.ofPrices = true → prices.Sound) :
    let s := r.escalate fortified defenderBlitz attackerBlitz
    List.Forall₂ Under
      (((runner.run (.resolve r prices) r seed).side side).column figure).toList
      (((runner.run (.resolve s prices) s seed).side side).column figure).toList := by
  intro s
  refine Runner.column_run (c := .booked side figure) (S := Under)
    (coupled_escalate r fortified defenderBlitz attackerBlitz prices) (fun x y h => ?_) runner rfl
    seed
  rw [entry_escalate]
  exact under_figure h.1 h.2 side figure hp

theorem forall₂_infraDestroyed :
    let s := r.escalate fortified defenderBlitz attackerBlitz
    List.Forall₂ Under (runner.run (.resolve r prices) r seed).infraDestroyed.toList
      (runner.run (.resolve s prices) s seed).infraDestroyed.toList := by
  intro s
  exact Runner.column_run (c := .infraDestroyed) (S := Under)
    (coupled_escalate r fortified defenderBlitz attackerBlitz prices)
    (fun x y h => h.1.infraDestroyed) runner rfl seed

theorem under_run_escalate (moment : Timestamp) :
    let s := r.escalate fortified defenderBlitz attackerBlitz
    let ledger := runner.run (.resolve r prices) r seed
    let ledger' := runner.run (.resolve s prices) s seed
    Run.Under prices ⟨r.report ledger prices seed moment, ledger⟩
      ⟨s.report ledger' prices seed moment, ledger'⟩ := by
  intro s ledger ledger'
  have hlength (c : Column) : (ledger.column c).toList.length < 2 ^ 53 := by
    rw [Array.length_toList, runner.size_column_run]
    exact (clampIterations_le r.iterations).trans_lt (by norm_num)
  have hfigure (side : Side) (figure : Figure) (hp : figure.ofPrices = true → prices.Sound) :=
    forall₂_figure r fortified defenderBlitz attackerBlitz runner prices seed side figure hp
  have hinfra :=
    forall₂_infraDestroyed r fortified defenderBlitz attackerBlitz runner prices seed
  refine
    { column_le := fun side figure hp => (hfigure side figure hp).imp fun _ _ h => h.le
      summary_le := fun side figure hp => ?_
      infraDestroyed_le := hinfra.imp fun _ _ h => h.le
      infraSummary_le := Summary.under_ofSamples hinfra (hlength .infraDestroyed) }
  simp only [Request.report, Ledger.summary_metrics]
  exact Summary.under_ofSamples (hfigure side figure hp) (hlength (.booked side figure))

end Runs

/-- Fortification and blitzes are monotone over whole runs. Where a request has no faults, neither
has its escalation, and under either runner no loss and no damage of its run exceeds that of the run
of the escalation with the same seed: not in any trial, and not in the least, the mean or the
greatest figure of the report. -/
theorem run_escalation_monotone (r : Request) (fortified defenderBlitz attackerBlitz : Bool)
    (machine : Machine) (runner : Runner) (prices : Prices) (entropy : UInt64) (moment : Timestamp)
    (hserves : machine.Serves runner) (hvalid : r.faults = []) :
    ∃ outcome outcome', r.run machine runner prices entropy moment = .ok outcome
      ∧ (r.escalate fortified defenderBlitz attackerBlitz).run machine runner prices entropy moment
        = .ok outcome'
      ∧ outcome.Under prices outcome' := by
  have hescalated : (r.escalate fortified defenderBlitz attackerBlitz).faults = [] := hvalid
  exact ⟨_, _, Request.run_eq_ok hvalid hserves prices entropy moment,
    Request.run_eq_ok hescalated hserves prices entropy moment,
    under_run_escalate r fortified defenderBlitz attackerBlitz runner prices _ moment⟩

/-- A ground battle against a city that is fortified after all, in one run of each kind. -/
theorem run_escalation_monotone_of_city :
    let r : Request :=
      { seed := some 11
        attacker := { soldiers := 200, tanks := 4 }
        defender := { soldiers := 60, tanks := 3, highestCityInfra := 1200.0 }
        action := .ground 200 4 true }
    let machine := Machine.withRoomFor 8
    machine.Serves (.batched 4) ∧ r.faults = [] ∧ Prices.Sound {}
    ∧ ∃ outcome outcome', r.run machine (.batched 4) {} 0 default = .ok outcome
      ∧ (r.escalate true false true).run machine (.batched 4) {} 0 default = .ok outcome'
      ∧ List.Forall₂ (· ≤ ·) outcome.ledger.attacker.tanks.toList
        outcome'.ledger.attacker.tanks.toList
      ∧ outcome.report.metrics.attackerCosts.totalValue.Under
        outcome'.report.metrics.attackerCosts.totalValue
      ∧ outcome.report.metrics.infraDestroyed.Under outcome'.report.metrics.infraDestroyed := by
  intro r machine
  have hserves : machine.Serves (.batched 4) := by decide
  have hvalid : r.faults = [] := by decide
  have hsound : Prices.Sound {} := ⟨by decide, by decide, by decide, by decide⟩
  obtain ⟨outcome, outcome', hrun, hrun', hunder⟩ :=
    run_escalation_monotone r true false true machine (.batched 4) {} 0 default hserves hvalid
  exact ⟨hserves, hvalid, hsound, outcome, outcome', hrun, hrun',
    hunder.column_le .attacker .tanks nofun,
    hunder.summary_le .attacker .totalValue fun _ => hsound, hunder.infraSummary_le⟩

end BattleOdds
