import BattleOdds.Proofs.Run.Coupling
import BattleOdds.Proofs.Trial.Scope

/-!
# Strikes at different targets

The target of a strike is not read by its rounds, so from one generator every target meets the same
rolls. What is drawn after a won round depends on whether the target is a type of unit: within each
of the two classes whole runs stay in lockstep, and only what the target decides in the scores sets
them apart. That is the rate of a dogfight, the attrition of the units and the third of the damage.
-/
namespace BattleOdds

/-- A request for a strike in place of the action it has. -/
def Request.strike (r : Request) (aircraft : UInt64) (target : AirTarget) : Request :=
  { r with action := .air aircraft target }

/-- What the results of one fight over two targets have in common. -/
structure TrialResult.Parallel (target target' : AirTarget) (x y : TrialResult) : Prop where
  roundsWon : x.roundsWon = y.roundsWon
  attackerLosses (h : target.isDogfight = target'.isDogfight) : x.attackerLosses = y.attackerLosses
  aircraft (h : target.isDogfight = target'.isDogfight) :
    x.defenderLosses.aircraft = y.defenderLosses.aircraft
  defenderLosses (h : target.isDogfight = target'.isDogfight) (hunit : target.unit? = none)
    (hunit' : target'.unit? = none) : x.defenderLosses = y.defenderLosses
  infraDestroyed (h : target ≠ .infra) (h' : target' ≠ .infra) :
    x.infraDestroyed = y.infraDestroyed
  infraDestroyed_third (h : target = .infra) (h' : target' ≠ .infra) :
    y.infraDestroyed = x.infraDestroyed / 3.0

section Trials

variable {target target' : AirTarget} {defender : Profile} {context : Context} {factors : Factors}

theorem zero_third : (0.0 : Binary64) / 3.0 = 0.0 := by decide

theorem AirTarget.attritionDraw_eq (h : target.unit?.isSome = target'.unit?.isSome) :
    target.attritionDraw = target'.attritionDraw := by
  cases target <;> cases target' <;> first | rfl | cases h

theorem parallel_airDefeat (aircraft : UInt64) (rounds : List DuelRolls) :
    (airDefeat ⟨aircraft, target⟩ defender factors rounds).Parallel target target'
      (airDefeat ⟨aircraft, target'⟩ defender factors rounds) := by
  have hrates (h : target.isDogfight = target'.isDogfight) :
      target.lossRates = target'.lossRates := by
    rw [AirTarget.lossRates, AirTarget.lossRates, h]
  exact
    { roundsWon := rfl
      attackerLosses := fun h => by simp only [airDefeat, hrates h]
      aircraft := fun h => by simp only [airDefeat, hrates h]
      defenderLosses := fun h _ _ => by simp only [airDefeat, hrates h]
      infraDestroyed := fun _ _ => rfl
      infraDestroyed_third := fun _ _ => zero_third.symm }

/-- The attrition of units that do not fly leaves the lost aircraft as they are. -/
theorem aircraft_airLosses (order : AirOrder) (rounds : List DuelRolls)
    (attrition : Option Binary64) :
    (airLosses order defender factors rounds attrition).aircraft
      = (airDefeat order defender factors rounds).defenderLosses.aircraft := by
  unfold airLosses
  split
  · cases order.target <;> rfl
  · rfl

/-- Where the target is no such type of unit, the fighting is all that costs the defender units. -/
theorem airLosses_of_unit?_eq_none {order : AirOrder} (h : order.target.unit? = none)
    (rounds : List DuelRolls) (attrition : Option Binary64) :
    airLosses order defender factors rounds attrition
      = (airDefeat order defender factors rounds).defenderLosses := by
  have hnone : order.target.attrition? = none := by
    generalize order.target = target at h ⊢
    cases target <;> first | rfl | cases h
  simp only [airLosses, hnone]

theorem parallel_airVictory (aircraft : UInt64) (rounds : List DuelRolls)
    (variances : Option Binary64 × Binary64) :
    (airVictory ⟨aircraft, target⟩ defender factors rounds variances).Parallel target target'
      (airVictory ⟨aircraft, target'⟩ defender factors rounds variances) := by
  have hdefeat : (airDefeat ⟨aircraft, target⟩ defender factors rounds).Parallel target target'
      (airDefeat ⟨aircraft, target'⟩ defender factors rounds) := parallel_airDefeat aircraft rounds
  refine
    { roundsWon := rfl
      attackerLosses := hdefeat.attackerLosses
      aircraft := fun h => ?_
      defenderLosses := fun h hunit hunit' => ?_
      infraDestroyed := fun h h' => ?_
      infraDestroyed_third := fun h h' => ?_ }
  · simp only [airVictory, aircraft_airLosses]
    exact hdefeat.aircraft h
  · have hunit : (AirOrder.mk aircraft target).target.unit? = none := hunit
    have hunit' : (AirOrder.mk aircraft target').target.unit? = none := hunit'
    simp only [airVictory, airLosses_of_unit?_eq_none hunit, airLosses_of_unit?_eq_none hunit']
    exact hdefeat.defenderLosses h hunit hunit'
  · cases target <;> cases target' <;> first | rfl | exact absurd rfl h | exact absurd rfl h'
  · subst h
    cases target' <;> first | rfl | exact absurd rfl h'

/-- The targets of one class are fought for with the same draws, those of the aftermath included. -/
theorem lockstep_strikes (h : target.unit?.isSome = target'.unit?.isSome) (aircraft : UInt64) :
    Draw.Lockstep (TrialResult.Parallel target target')
      ((Action.air aircraft target).trial defender context factors)
      ((Action.air aircraft target').trial defender context factors) := by
  by_cases hidle : aircraft = 0
  · rw [Action.trial_of_idle (Action.idle_air.mpr hidle),
      Action.trial_of_idle (Action.idle_air.mpr hidle)]
    exact .pure ⟨rfl, fun _ => rfl, fun _ => rfl, fun _ _ _ => rfl, fun _ _ => rfl,
      fun _ _ => zero_third.symm⟩
  · have hfight : AirOrder.fight ⟨aircraft, target⟩ defender.aircraft
        = AirOrder.fight ⟨aircraft, target'⟩ defender.aircraft := by
      rw [AirOrder.fight, AirOrder.fight, AirTarget.attritionDraw_eq h]
    rw [Action.trial, Action.trial, airTrial_eq_score _ _ _ hidle, airTrial_eq_score _ _ _ hidle,
      hfight]
    exact Fight.lockstep_score_of_forall (parallel_airDefeat aircraft)
      (parallel_airVictory aircraft)

/-- Also across the classes the rounds are the first that is drawn. -/
theorem roundsWon_strike (aircraft : UInt64) (target target' : AirTarget) (g : Generator) :
    ((Action.air aircraft target).trial defender context factors g).1.roundsWon
      = ((Action.air aircraft target').trial defender context factors g).1.roundsWon := by
  by_cases hidle : aircraft = 0
  · rw [Action.trial_of_idle (Action.idle_air.mpr hidle),
      Action.trial_of_idle (Action.idle_air.mpr hidle)]
    rfl
  · have hwon (target : AirTarget) :
        ((Action.air aircraft target).trial defender context factors g).1.roundsWon
          = (duel (Binary64.ofUInt64 aircraft * aircraftStrength)
              (Binary64.ofUInt64 defender.aircraft * aircraftStrength) g).1.countP
            DuelRolls.attackerWon := by
      rw [Action.trial, airTrial_eq_score _ _ _ hidle, AirOrder.fight]
      exact Fight.roundsWon_score_draw (fun _ => rfl) (fun _ _ => rfl) g
    rw [hwon, hwon]

end Trials

/-! ## Runs -/

/-- What the ledgers of strikes at two targets of one class have in common. -/
structure Ledger.Parallel (target target' : AirTarget) (x y : Ledger) : Prop where
  tiers : x.tiers = y.tiers
  /-- But for dogfights, the aircraft meet the same losses. -/
  aircraft (h : target.isDogfight = target'.isDogfight) (side : Side) :
    (x.side side).aircraft = (y.side side).aircraft
  /-- Where neither target is a type of unit nor aircraft, nothing of either side differs. -/
  booked (h : target.isDogfight = target'.isDogfight) (hunit : target.unit? = none)
    (hunit' : target'.unit? = none) (side : Side) : x.side side = y.side side
  infraDestroyed (h : target ≠ .infra) (h' : target' ≠ .infra) :
    x.infraDestroyed = y.infraDestroyed
  infraDestroyed_third (h : target = .infra) (h' : target' ≠ .infra) :
    y.infraDestroyed = x.infraDestroyed.map (· / 3.0)

section Runs

variable {target target' : AirTarget} (r : Request) (aircraft : UInt64) (prices : Prices)

/-- What a plan books for a side follows from what the side lost. -/
theorem Plan.figure_entry_eq (plan : Plan) {x y : TrialResult} {side : Side}
    (h : x.losses side = y.losses side) (figure : Figure) :
    (plan.entry x).figure side figure = (plan.entry y).figure side figure := by
  cases side with
  | attacker =>
    have h : x.attackerLosses = y.attackerLosses := h
    simp only [Entry.figure, Entry.losses, Entry.lossesValue, Entry.costs, Plan.entry, h]
  | defender =>
    have h : x.defenderLosses = y.defenderLosses := h
    simp only [Entry.figure, Entry.losses, Entry.lossesValue, Entry.costs, Plan.entry, h]

theorem coupled_strikes (h : target.unit?.isSome = target'.unit?.isSome) :
    (Plan.resolve (r.strike aircraft target) prices).Coupled (TrialResult.Parallel target target')
      (.resolve (r.strike aircraft target') prices) (r.strike aircraft target)
      (r.strike aircraft target') :=
  .of_lockstep (lockstep_strikes h aircraft)

theorem parallel_strikes (h : target.unit?.isSome = target'.unit?.isSome) (runner : Runner)
    (seed : UInt64) :
    Ledger.Parallel target target'
      (runner.run (.resolve (r.strike aircraft target) prices) (r.strike aircraft target) seed)
      (runner.run (.resolve (r.strike aircraft target') prices) (r.strike aircraft target')
        seed) := by
  have hcoupled := coupled_strikes r aircraft prices h
  refine
    { tiers := ?_
      aircraft := fun hdogfight side => ?_
      booked := fun hdogfight hunit hunit' side => SideColumns.ext_column fun figure => ?_
      infraDestroyed := fun htarget htarget' => ?_
      infraDestroyed_third := fun htarget htarget' => ?_ }
  · exact runner.column_run_eq (c := .tier) hcoupled rfl seed fun x y hxy =>
      congrArg Tier.ofRounds hxy.roundsWon
  · refine runner.column_run_eq (c := .booked side .aircraft) hcoupled rfl seed fun x y hxy => ?_
    cases side with
    | attacker => exact congrArg UnitLosses.aircraft (hxy.attackerLosses hdogfight)
    | defender => exact hxy.aircraft hdogfight
  · refine runner.column_run_eq (c := .booked side figure) hcoupled rfl seed fun x y hxy => ?_
    refine Plan.figure_entry_eq _ ?_ figure
    cases side with
    | attacker => exact hxy.attackerLosses hdogfight
    | defender => exact hxy.defenderLosses hdogfight hunit hunit'
  · exact runner.column_run_eq (c := .infraDestroyed) hcoupled rfl seed fun x y hxy =>
      hxy.infraDestroyed htarget htarget'
  · let third (damage : Binary64) : Binary64 := damage / 3.0
    refine (runner.column_run_map (c := .infraDestroyed) (f := third) hcoupled rfl seed ?_).symm
    exact fun x y hxy => (hxy.infraDestroyed_third htarget htarget').symm

end Runs

/-- Strikes at the targets of one class are coupled over whole runs: the tiers agree row by row, and
so does what the target does not decide, the damage of a strike that is not aimed at infrastructure
being a third of that of the one that is. In a single trial the rounds are those of any target. -/
theorem run_targets_coupled (r : Request) (aircraft : UInt64) (target target' : AirTarget)
    (machine : Machine) (runner : Runner) (prices : Prices) (entropy : UInt64) (moment : Timestamp)
    (hserves : machine.Serves runner) (hvalid : (r.strike aircraft target).faults = []) :
    (∃ outcome outcome',
      (r.strike aircraft target).run machine runner prices entropy moment = .ok outcome
      ∧ (r.strike aircraft target').run machine runner prices entropy moment = .ok outcome'
      ∧ (target.unit?.isSome = target'.unit?.isSome →
        outcome.ledger.Parallel target target' outcome'.ledger))
    ∧ ∀ (defender : Profile) (context : Context) (factors : Factors) (g : Generator),
      ((Action.air aircraft target).trial defender context factors g).1.roundsWon
        = ((Action.air aircraft target').trial defender context factors g).1.roundsWon := by
  have hvalid' : (r.strike aircraft target').faults = [] := hvalid
  refine ⟨⟨_, _, Request.run_eq_ok hvalid hserves prices entropy moment,
    Request.run_eq_ok hvalid' hserves prices entropy moment, fun hclass => ?_⟩,
    fun defender context factors => roundsWon_strike aircraft target target'⟩
  exact parallel_strikes r aircraft prices hclass runner _

/-- A strike at a city, once for its infrastructure and once for its money. -/
theorem run_targets_coupled_of_city :
    let r : Request :=
      { seed := some 11
        attacker := { aircraft := 40 }
        defender := { aircraft := 25, tanks := 30, highestCityInfra := 1200.0 }
        action := .naval 0 }
    let machine := Machine.withRoomFor 8
    machine.Serves (.batched 4) ∧ (r.strike 40 .infra).faults = []
    ∧ AirTarget.infra.unit?.isSome = AirTarget.money.unit?.isSome
    ∧ ∃ outcome outcome',
      (r.strike 40 .infra).run machine (.batched 4) {} 0 default = .ok outcome
      ∧ (r.strike 40 .money).run machine (.batched 4) {} 0 default = .ok outcome'
      ∧ outcome.ledger.tiers = outcome'.ledger.tiers
      ∧ outcome.ledger.defender = outcome'.ledger.defender
      ∧ outcome'.ledger.infraDestroyed = outcome.ledger.infraDestroyed.map (· / 3.0) := by
  intro r machine
  have hserves : machine.Serves (.batched 4) := by decide
  have hvalid : (r.strike 40 .infra).faults = [] := by decide
  obtain ⟨⟨outcome, outcome', hrun, hrun', hparallel⟩, -⟩ :=
    run_targets_coupled r 40 .infra .money machine (.batched 4) {} 0 default hserves hvalid
  have hparallel := hparallel rfl
  exact ⟨hserves, hvalid, rfl, outcome, outcome', hrun, hrun', hparallel.tiers,
    hparallel.booked rfl rfl rfl .defender, hparallel.infraDestroyed_third rfl nofun⟩

end BattleOdds
