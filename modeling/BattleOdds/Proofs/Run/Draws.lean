import BattleOdds.Proofs.Run.Trace
import BattleOdds.Proofs.Trial.Draws

/-!
# How many draws a run takes

A run takes the draws of its trials, and a trial those of its action and its tier. So the generator
that a run leaves follows from the tally of its ledger: which losses and damages were drawn does not
matter to it. A run that commits nothing draws nothing and repeats one idle trial.
-/
namespace BattleOdds

/-- The draws of the trials of a tally. -/
def Tally.draws (t : Tally) (action : Action) : ℕ :=
  t.failure * action.draws 0 + t.pyrrhic * action.draws 1 + t.moderate * action.draws 2
    + t.decisive * action.draws 3

namespace Tally

theorem draws_add (t : Tally) (action : Action) (tier : Tier) :
    (t.add tier).draws action = t.draws action + action.draws tier.rounds := by
  cases tier <;> simp only [add, draws, Tier.rounds] <;> ring

end Tally

/-- A ledger tallies what its trials drew. -/
theorem Ledger.draws_tally_ofEntries (action : Action) (entries : List Entry) :
    (ofEntries entries).tally.draws action
      = (entries.map fun e => action.draws e.result.roundsWon).sum := by
  induction entries using List.reverseRecOn with
  | nil => simp [Tally.draws]
  | append_singleton entries e ih =>
    rw [ofEntries_concat, tally_push, Tally.draws_add, ih, List.map_append, List.sum_append,
      Entry.tier, Action.draws_rounds_ofRounds]
    simp

namespace Plan

variable (plan : Plan) (r : Request)

/-- The tally of a run tells how far its generator moved. -/
theorem generator_run_eq_skip (count : ℕ) (g : Generator) :
    (plan.run r count g).2 = g.skip ((plan.run r count g).1.tally.draws r.action) := by
  have hspends := (spends_trial r.defender r.context plan.factors r.action).times count g
  rw [ledger_run, Ledger.draws_tally_ofEntries, List.map_map, generator_run]
  exact hspends

/-- Where nothing is committed, every trial is the idle one. -/
theorem run_of_idle (hidle : r.action.Idle) (count : ℕ) (g : Generator) :
    plan.run r count g
      = (.ofEntries (List.replicate count (plan.entry r.action.idleResult)), g) := by
  have htrial : plan.trial r = pure r.action.idleResult := Action.trial_of_idle hidle _ _ _
  rw [run_eq, trace, htrial, Draw.times_pure, List.map_replicate]

theorem eq_of_mem_column_run_of_idle (hidle : r.action.Idle) (count : ℕ) (g : Generator)
    (c : Column) {x : c.Cell} (hx : x ∈ (plan.run r count g).1.column c) :
    x = (plan.entry r.action.idleResult).cell c := by
  rw [plan.run_of_idle r hidle, Ledger.column_ofEntries, List.mem_toArray, List.map_replicate] at hx
  exact List.eq_of_mem_replicate hx

/-- No units are lost in an idle trial. -/
theorem figure_idleResult (action : Action) (side : Side) {figure : Figure}
    (hfigure : figure ∈ [Figure.soldiers, .tanks, .aircraft, .ships]) :
    (plan.entry action.idleResult).figure side figure = 0.0 := by
  have hlosses : (plan.entry action.idleResult).losses side = {} := by
    cases side <;> cases action <;> rfl
  simp only [List.mem_cons, List.not_mem_nil, or_false] at hfigure
  rcases hfigure with rfl | rfl | rfl | rfl <;> simp only [Entry.figure, hlosses]

end Plan

theorem Action.moneyLooted_idleResult (action : Action) :
    action.idleResult.moneyLooted = none ∨ action.idleResult.moneyLooted = some 0.0 := by
  cases action with
  | ground => exact .inr rfl
  | air => exact .inl rfl
  | naval => exact .inl rfl

theorem Action.improvementChance_idleResult (action : Action) :
    action.idleResult.improvementChance = none
      ∨ action.idleResult.improvementChance = some 0.0 := by
  cases action with
  | ground => exact .inr rfl
  | air => exact .inl rfl
  | naval => exact .inr rfl

/-- Draws are accounted for. A trial moves the generator by a number of draws that its action and
the rounds it wins determine, under any factors; a run by what its tally tells; and a run that
commits nothing by none, since all its trials are failures in which nothing happens. -/
theorem draw_accounting :
    (∀ (action : Action) (defender : Profile) (context : Context) (factors : Factors)
        (g : Generator),
      let outcome := action.trial defender context factors g
      outcome.1.roundsWon ≤ 3
      ∧ outcome.2.state
        = g.state + (action.draws outcome.1.roundsWon).toUInt64 * 0x9e3779b97f4a7c15)
    ∧ (∀ (plan : Plan) (r : Request) (count : ℕ) (g : Generator),
      let outcome := plan.run r count g
      outcome.2.state
        = g.state + (outcome.1.tally.draws r.action).toUInt64 * 0x9e3779b97f4a7c15)
    ∧ ∀ (plan : Plan) (r : Request) (count : ℕ) (g : Generator),
      (∀ unit ∈ r.action.committed, unit.2 = 0) →
      let ledger := (plan.run r count g).1
      (plan.run r count g).2 = g ∧ ledger.size = count
      ∧ (∀ tier ∈ ledger.tiers, tier = .failure)
      ∧ (∀ side, ∀ figure ∈ [Figure.soldiers, .tanks, .aircraft, .ships],
          ∀ x ∈ (ledger.side side).column figure, x = 0.0)
      ∧ (∀ x ∈ ledger.infraDestroyed, x = 0.0)
      ∧ (∀ x ∈ ledger.moneyLooted, x = none ∨ x = some 0.0)
      ∧ (∀ x ∈ ledger.moneyDestroyed, x = none)
      ∧ ∀ x ∈ ledger.improvementChance, x = none ∨ x = some 0.0 := by
  refine ⟨fun action defender context factors g => ⟨?_, ?_⟩, fun plan r count g => ?_,
    fun plan r count g hidle => ?_⟩
  · exact yields_roundsWon_le defender context factors action g
  · rw [spends_trial defender context factors action g, Generator.skip_eq]
    rfl
  · intro outcome
    rw [Plan.generator_run_eq_skip, Generator.skip_eq]
    rfl
  · intro ledger
    have hcell := plan.eq_of_mem_column_run_of_idle r hidle count g
    have hrun := plan.run_of_idle r hidle count g
    have hsize : ledger.size = count := by
      simp only [ledger, hrun, Ledger.size_ofEntries, List.length_replicate]
    refine ⟨by rw [hrun], hsize, fun tier h => ?_, fun side figure hfigure x h => ?_,
      fun x h => ?_, fun x h => ?_, fun x h => ?_, fun x h => ?_⟩
    · rw [hcell .tier h]
      cases r.action <;> rfl
    · exact (hcell (.booked side figure) h).trans (plan.figure_idleResult r.action side hfigure)
    · rw [hcell .infraDestroyed h]
      cases r.action <;> rfl
    · rw [hcell .moneyLooted h]
      exact r.action.moneyLooted_idleResult
    · rw [hcell .moneyDestroyed h]
      cases r.action <;> rfl
    · rw [hcell .improvementChance h]
      exact r.action.improvementChance_idleResult

/-- An order without troops, tried twenty times. -/
theorem draw_accounting_without_troops :
    let r : Request := { defender := { soldiers := 9 }, action := .ground 0 0 true }
    let plan := Plan.resolve r {}
    (∀ unit ∈ r.action.committed, unit.2 = 0)
    ∧ (plan.run r 20 (.ofSeed 5)).2 = .ofSeed 5
    ∧ ∀ x ∈ (plan.run r 20 (.ofSeed 5)).1.infraDestroyed, x = 0.0 := by
  intro r plan
  have hidle : ∀ unit ∈ r.action.committed, unit.2 = 0 := by decide
  obtain ⟨hleft, -, -, -, hinfra, -⟩ := draw_accounting.2.2 plan r 20 (.ofSeed 5) hidle
  exact ⟨hidle, hleft, hinfra⟩

end BattleOdds
