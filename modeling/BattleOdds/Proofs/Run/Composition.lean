import BattleOdds.Proofs.Run.Batched
import BattleOdds.Proofs.Trial.Draws

/-!
# Runs in parts and in rows

A run may stop after any trial and go on from the generator that is left: the ledgers of the parts
make up the ledger of the whole. So a run is a prefix of every longer one from the same generator.
Its rows are its trials in order: each holds what came of one trial, the value of what each side
lost in it, and what the plan tells of the costs of each side.
-/
namespace BattleOdds

/-- A row of the columns of one side, by what the side lost in the trial, the value of that, and
what the plan tells of its costs. -/
structure SideColumns.RowAt (c : SideColumns) (i : ℕ) (losses : UnitLosses) (value : Binary64)
    (costs : SideCosts) : Prop where
  soldiers : c.soldiers[i]? = some losses.soldiers
  tanks : c.tanks[i]? = some losses.tanks
  aircraft : c.aircraft[i]? = some losses.aircraft
  ships : c.ships[i]? = some losses.ships
  gasoline : c.gasoline[i]? = some costs.usage.gasoline
  munitions : c.munitions[i]? = some costs.usage.munitions
  usageValue : c.usageValue[i]? = some costs.usageValue
  lossesValue : c.lossesValue[i]? = some value
  totalValue : c.totalValue[i]? = some (costs.usageValue + value)

/-- A row of a ledger that is the result of a trial under a plan. -/
structure Ledger.RowAt (l : Ledger) (i : ℕ) (plan : Plan) (result : TrialResult) : Prop where
  tier : (l.tiers[i]?).map Tier.rounds = some result.roundsWon
  attacker : l.attacker.RowAt i result.attackerLosses
    (plan.unitValues.lossesValue result.attackerLosses) plan.attackerCosts
  defender : l.defender.RowAt i result.defenderLosses
    (plan.unitValues.lossesValue result.defenderLosses) plan.defenderCosts
  infraDestroyed : l.infraDestroyed[i]? = some result.infraDestroyed
  moneyLooted : l.moneyLooted[i]? = some result.moneyLooted
  moneyDestroyed : l.moneyDestroyed[i]? = some result.moneyDestroyed
  improvementChance : l.improvementChance[i]? = some result.improvementChance

/-- A row is determined by its cells. -/
theorem Ledger.rowAt_of_cells {l : Ledger} {i : ℕ} {plan : Plan} {result : TrialResult}
    (hwon : result.roundsWon ≤ 3)
    (h : ∀ c, (l.column c)[i]? = some ((plan.entry result).cell c)) : l.RowAt i plan result where
  tier := by
    have htier : l.tiers[i]? = some (Tier.ofRounds result.roundsWon) := h .tier
    rw [htier, Option.map_some, Tier.rounds_ofRounds, Nat.min_eq_left hwon]
  attacker :=
    { soldiers := h (.booked .attacker .soldiers)
      tanks := h (.booked .attacker .tanks)
      aircraft := h (.booked .attacker .aircraft)
      ships := h (.booked .attacker .ships)
      gasoline := h (.booked .attacker .gasoline)
      munitions := h (.booked .attacker .munitions)
      usageValue := h (.booked .attacker .usageValue)
      lossesValue := h (.booked .attacker .lossesValue)
      totalValue := h (.booked .attacker .totalValue) }
  defender :=
    { soldiers := h (.booked .defender .soldiers)
      tanks := h (.booked .defender .tanks)
      aircraft := h (.booked .defender .aircraft)
      ships := h (.booked .defender .ships)
      gasoline := h (.booked .defender .gasoline)
      munitions := h (.booked .defender .munitions)
      usageValue := h (.booked .defender .usageValue)
      lossesValue := h (.booked .defender .lossesValue)
      totalValue := h (.booked .defender .totalValue) }
  infraDestroyed := h .infraDestroyed
  moneyLooted := h .moneyLooted
  moneyDestroyed := h .moneyDestroyed
  improvementChance := h .improvementChance

namespace Plan

variable (plan : Plan) (r : Request)

/-- A run may be cut in two anywhere. -/
theorem run_add (m n : ℕ) (g : Generator) :
    plan.run r (m + n) g
      = ((plan.run r m g).1 ++ (plan.run r n (plan.run r m g).2).1,
        (plan.run r n (plan.run r m g).2).2) := by
  simp only [run_eq, trace, Draw.times_add, List.map_append, Ledger.ofEntries_append]

/-- A run is a prefix of a longer one, in every column. -/
theorem column_run_prefix {m n : ℕ} (h : m ≤ n) (g : Generator) (c : Column) :
    ((plan.run r m g).1.column c).toList <+: ((plan.run r n g).1.column c).toList := by
  obtain ⟨k, rfl⟩ := Nat.exists_eq_add_of_le h
  rw [run_add, Ledger.column_append, Array.toList_append]
  exact List.prefix_append _ _

/-- A row of a run holds the trial that is drawn from the generator that the earlier ones leave. -/
theorem rowAt_run {i n : ℕ} (h : i < n) (g : Generator) :
    (plan.run r n g).1.RowAt i plan (plan.trial r ((fun g => (plan.trial r g).2)^[i] g)).1 := by
  refine Ledger.rowAt_of_cells (yields_roundsWon_le _ _ _ r.action _) fun c => ?_
  rw [ledger_run, Ledger.column_ofEntries, List.getElem?_toArray, List.getElem?_map,
    List.getElem?_map, trace, Draw.getElem?_times _ h]
  rfl

/-- How many trials are asked for changes the length of a run only. -/
theorem run_resolve_iterations (iterations : Int64) (prices : Prices) (count : ℕ) (g : Generator) :
    (resolve { r with iterations } prices).run { r with iterations } count g
      = (resolve r prices).run r count g := by
  have htrial : (resolve { r with iterations } prices).trial { r with iterations }
      = (resolve r prices).trial r := by simp only [trial, resolve]
  have hentry : (resolve { r with iterations } prices).entry = (resolve r prices).entry := by
    funext result
    simp only [entry, resolve]
  rw [run_eq, run_eq, trace, trace, htrial, hentry]

end Plan

/-- A run is the sequence of its trials. Under the plan of a request without faults, a run of
`m + n` trials is one of `m` trials followed by one of `n` from the generator that is left, so it
extends every shorter run with the same seed; and its row `i` is the trial that follows `i` others.
-/
theorem run_composition (r : Request) (prices : Prices) (hvalid : r.faults = []) :
    ∃ plan, Plan.prepare r prices = .ok plan
    ∧ (∀ m n g, plan.run r (m + n) g
        = ((plan.run r m g).1 ++ (plan.run r n (plan.run r m g).2).1,
          (plan.run r n (plan.run r m g).2).2))
    ∧ (∀ m n, m ≤ n → ∀ g c,
        ((plan.run r m g).1.column c).toList <+: ((plan.run r n g).1.column c).toList)
    ∧ (∀ machine iterations entropy moment, r.trials ≤ clampIterations iterations →
        ∃ outcome longer, r.run machine .sequential prices entropy moment = .ok outcome
          ∧ { r with iterations }.run machine .sequential prices entropy moment = .ok longer
          ∧ ∀ c, (outcome.ledger.column c).toList <+: (longer.ledger.column c).toList)
    ∧ ∀ n i, i < n → ∀ g,
        let trial := r.action.trial r.defender r.context plan.factors
        (plan.run r n g).1.RowAt i plan (trial ((fun g => (trial g).2)^[i] g)).1 := by
  refine ⟨_, Request.prepare_eq_ok hvalid prices, Plan.run_add _ r,
    fun m n h => Plan.column_run_prefix _ r h, fun machine iterations entropy moment h => ?_,
    fun n i h => Plan.rowAt_run _ r h⟩
  have hlonger : { r with iterations }.faults = [] := hvalid
  have hserves : machine.Serves .sequential := machine.serves_sequential
  refine ⟨_, _, Request.run_eq_ok hvalid hserves prices entropy moment,
    Request.run_eq_ok hlonger hserves prices entropy moment, fun c => ?_⟩
  simp only [Runner.run, Plan.sequential, Plan.run_resolve_iterations]
  exact Plan.column_run_prefix _ r h _ c

/-- Ships against ships, once for a hundred trials and once for three hundred. -/
theorem run_composition_of_fleet :
    let r : Request :=
      { iterations := 100, seed := some 3, attacker := { ships := 4 }, defender := { ships := 3 },
        action := .naval 4 }
    r.faults = [] ∧ r.trials ≤ clampIterations 300
    ∧ ∃ plan outcome longer, Plan.prepare r {} = .ok plan
      ∧ (plan.run r 100 (.ofSeed 3)).1.RowAt 0 plan
        (r.action.trial r.defender r.context plan.factors (.ofSeed 3)).1
      ∧ r.run (.withRoomFor 0) .sequential {} 0 default = .ok outcome
      ∧ { r with iterations := 300 }.run (.withRoomFor 0) .sequential {} 0 default = .ok longer
      ∧ outcome.ledger.infraDestroyed.toList <+: longer.ledger.infraDestroyed.toList := by
  intro r
  have hvalid : r.faults = [] := by decide
  have hmore : r.trials ≤ clampIterations 300 := by decide
  obtain ⟨plan, hplan, -, -, hlonger, hrow⟩ := run_composition r {} hvalid
  obtain ⟨outcome, longer, hrun, hrun', hprefix⟩ := hlonger (.withRoomFor 0) 300 0 default hmore
  exact ⟨hvalid, hmore, plan, outcome, longer, hplan, hrow 100 0 (by decide) _, hrun, hrun',
    hprefix .infraDestroyed⟩

end BattleOdds
