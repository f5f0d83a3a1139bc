import BattleOdds.Proofs.Run.Coupling
import BattleOdds.Proofs.Trial.ActionBounds

/-!
# What a run depends on

All trials of a run share one generator, so a single draw more in one trial would shift all later
ones. The trials of two requests that differ in one group stay in lockstep instead, and by induction
on the run their ledgers agree in every column that the group does not touch, row by row. A ground
battle under other air superiority or against other residents is another fight; what it uses up and
what no trial has are the same all the same.
-/
namespace BattleOdds

variable {group : InputGroup} {kind : ActionKind} {r s : Request} {x y : TrialResult}

/-! ## The cells of agreeing results -/

theorem touches_attacker {figure : Figure} (h : figure.ofLosses = true) :
    group.touches kind (.booked .attacker figure)
      = group.touches kind (.booked .attacker .lossesValue) := by
  cases figure <;> cases h <;> cases group <;> cases kind <;> rfl

/-- The units lost on the ground alone may be touched without those that fight on it. -/
theorem touches_defender (figure : Figure) (h : figure = .aircraft ∨ figure = .totalValue) :
    group.touches kind (.booked .defender figure)
      = group.touches kind (.booked .defender .lossesValue) := by
  rcases h with rfl | rfl <;> cases group <;> cases kind <;> rfl

theorem touches_defender_forces (figure : Figure) (h : figure = .tanks ∨ figure = .ships) :
    group.touches kind (.booked .defender figure)
      = group.touches kind (.booked .defender .soldiers) := by
  rcases h with rfl | rfl <;> cases group <;> cases kind <;> rfl

namespace Agrees

theorem figure_attacker (h : Agrees group kind x y) (plan : Plan) (figure : Figure)
    (htouch : group.touches kind (.booked .attacker figure) = false) :
    (plan.entry x).figure .attacker figure = (plan.entry y).figure .attacker figure := by
  cases hlosses : figure.ofLosses with
  | true =>
    rw [touches_attacker hlosses] at htouch
    have hattacker := h.attackerLosses htouch
    cases figure <;> simp only [Entry.figure, Entry.losses, Entry.costs, Entry.lossesValue,
      Plan.entry, hattacker]
  | false => cases figure <;> first | rfl | cases hlosses

theorem figure_defender (h : Agrees group kind x y) (plan : Plan) (figure : Figure)
    (htouch : group.touches kind (.booked .defender figure) = false) :
    (plan.entry x).figure .defender figure = (plan.entry y).figure .defender figure := by
  cases figure with
  | soldiers => exact (h.defenderForces htouch).1
  | tanks =>
    rw [touches_defender_forces _ (.inl rfl)] at htouch
    exact (h.defenderForces htouch).2.1
  | ships =>
    rw [touches_defender_forces _ (.inr rfl)] at htouch
    exact (h.defenderForces htouch).2.2
  | aircraft =>
    rw [touches_defender _ (.inl rfl)] at htouch
    exact congrArg UnitLosses.aircraft (h.defenderLosses htouch)
  | lossesValue => exact congrArg plan.unitValues.lossesValue (h.defenderLosses htouch)
  | totalValue =>
    rw [touches_defender _ (.inr rfl)] at htouch
    have hvalue := congrArg plan.unitValues.lossesValue (h.defenderLosses htouch)
    exact congrArg (plan.defenderCosts.usageValue + ·) hvalue
  | gasoline => rfl
  | munitions => rfl
  | usageValue => rfl

/-- Agreeing results have equal cells in the columns that are not touched. -/
theorem cell_eq (h : Agrees group kind x y) (plan : Plan) (c : Column)
    (htouch : group.touches kind c = false) :
    (plan.entry x).cell c = (plan.entry y).cell c := by
  cases c with
  | tier => exact congrArg Tier.ofRounds (h.roundsWon htouch)
  | booked side figure =>
    cases side with
    | attacker => exact h.figure_attacker plan figure htouch
    | defender => exact h.figure_defender plan figure htouch
  | infraDestroyed => exact h.infraDestroyed htouch
  | moneyLooted => exact h.moneyLooted htouch
  | moneyDestroyed => exact h.moneyDestroyed
  | improvementChance => exact h.improvementChance htouch

end Agrees

/-! ## Traces -/

/-- Whether a group changes the forces of a trial: the strength of tanks or the residents. -/
def InputGroup.changesForces (group : InputGroup) (kind : ActionKind) : Prop :=
  kind = .ground ∧ (group = .airSuperiority ∨ group = .population)

/-- A group that does not change the forces leaves the trials in lockstep. -/
theorem lockstep_trial (h : SameOutside group r s)
    (hforces : ¬ group.changesForces r.action.kind) (prices : Prices) :
    Draw.Lockstep (Agrees group r.action.kind) ((Plan.resolve r prices).trial r)
      ((Plan.resolve s prices).trial s) := by
  have htrial : (Plan.resolve s prices).trial s
      = r.action.trial s.defender s.context s.factors := by
    rw [← h.action]
    rfl
  have htrial' : (Plan.resolve r prices).trial r
      = r.action.trial r.defender r.context r.factors := rfl
  rw [htrial, htrial']
  cases haction : r.action with
  | ground soldiers tanks armed =>
    rw [haction] at hforces
    exact lockstep_groundTrial ⟨soldiers, tanks, armed⟩ h
      (fun hair => hforces ⟨rfl, .inl hair⟩) (fun hpopulation => hforces ⟨rfl, .inr hpopulation⟩)
  | air aircraft target => exact lockstep_airTrial ⟨aircraft, target⟩ h
  | naval ships => exact lockstep_navalTrial ships h

/-- Where the forces change, nothing is left to agree on but what no trial has. -/
theorem agrees_of_changesForces (h : group.changesForces kind) (hx : x.moneyDestroyed = none)
    (hy : y.moneyDestroyed = none) : Agrees group kind x y := by
  obtain ⟨rfl, hgroup⟩ := h
  rcases hgroup with rfl | rfl
  all_goals
    refine ⟨?_, ?_, ?_, ?_, ?_, ?_, ?_, hx.trans hy.symm⟩ <;> intro htouch <;> cases htouch

theorem moneyDestroyed_of_mem_trace {prices : Prices} {count : ℕ} {g : Generator}
    (h : x ∈ (Plan.resolve r prices).trace r count g) : x.moneyDestroyed = none := by
  have hf := Factors.positive_resolve r.context r.defender.isFortified
  have hbounds := (withinBounds_trial hf r.action r.defender r.context).times count g
  exact (hbounds.2 x h).moneyDestroyed

/-- The traces of two requests that differ in one group agree trial by trial. -/
theorem coupled_resolve (h : SameOutside group r s) (prices : Prices) :
    (Plan.resolve r prices).Coupled (Agrees group r.action.kind) (.resolve s prices) r s := by
  by_cases hforces : group.changesForces r.action.kind
  · intro count g
    rw [List.forall₂_iff_get]
    refine ⟨by simp, fun i hr hs => agrees_of_changesForces hforces ?_ ?_⟩
    · exact moneyDestroyed_of_mem_trace (List.get_mem _ _)
    · exact moneyDestroyed_of_mem_trace (List.get_mem _ _)
  · exact .of_lockstep (lockstep_trial h hforces prices)

/-! ## Ledgers -/

theorem defenderConsumption_eq (h : SameOutside group r s) :
    r.action.defenderConsumption s.defender = r.action.defenderConsumption r.defender := by
  cases r.action <;>
    simp only [Action.defenderConsumption, h.soldiers, h.tanks, h.aircraft, h.ships]

/-- What a trial costs besides its losses follows from the action and the defender's units. -/
theorem entry_resolve (h : SameOutside group r s) (prices : Prices) :
    (Plan.resolve s prices).entry = (Plan.resolve r prices).entry := by
  funext result
  simp only [Plan.entry, Plan.resolve, h.action, defenderConsumption_eq h]

theorem column_runner_eq (h : SameOutside group r s) (runner : Runner) (prices : Prices)
    (seed : UInt64) {c : Column} (htouch : group.touches r.action.kind c = false) :
    (runner.run (.resolve r prices) r seed).column c
      = (runner.run (.resolve s prices) s seed).column c := by
  have htrials : (Plan.resolve r prices).trials = (Plan.resolve s prices).trials :=
    congrArg clampIterations h.iterations.symm
  have hcell (x y : TrialResult) (hagrees : Agrees group r.action.kind x y) :
      ((Plan.resolve r prices).entry x).cell c = ((Plan.resolve s prices).entry y).cell c := by
    rw [entry_resolve h]
    exact hagrees.cell_eq _ c htouch
  exact runner.column_run_eq (coupled_resolve h prices) htrials seed hcell

/-- The dependence matrix of a run: two requests without faults that differ in one group of inputs
have, under either runner that the machine has the workers for, ledgers that agree row by row in
every column that the group does not touch. -/
theorem run_dependence_matrix (group : InputGroup) (r s : Request) (machine : Machine)
    (runner : Runner) (prices : Prices) (entropy : UInt64) (moment : Timestamp)
    (hserves : machine.Serves runner) (hr : r.faults = []) (hs : s.faults = [])
    (hgroup : group.transfer s r = s) :
    ∃ outcome outcome', r.run machine runner prices entropy moment = .ok outcome
      ∧ s.run machine runner prices entropy moment = .ok outcome'
      ∧ ∀ c, group.touches r.action.kind c = false →
        outcome.ledger.column c = outcome'.ledger.column c := by
  have hsame : SameOutside group r s := InputGroup.sameOutside_of_transfer hgroup
  refine ⟨_, _, Request.run_eq_ok hr hserves prices entropy moment,
    Request.run_eq_ok hs hserves prices entropy moment, fun c htouch => ?_⟩
  rw [hsame.seed]
  exact column_runner_eq hsame runner prices _ htouch

/-- Two sorties against one city, with the defender's cash known and unknown. -/
theorem run_dependence_matrix_cash :
    let r : Request :=
      { seed := some 11
        attacker := { soldiers := 200, tanks := 4 }
        defender := { soldiers := 60, money := some 5000000.0 }
        action := .ground 200 4 true }
    let s : Request := { r with defender := { r.defender with money := none } }
    let machine := Machine.withRoomFor 8
    machine.Serves (.batched 4) ∧ r.faults = [] ∧ s.faults = []
    ∧ InputGroup.cash.transfer s r = s
    ∧ ∃ outcome outcome', r.run machine (.batched 4) {} 0 default = .ok outcome
      ∧ s.run machine (.batched 4) {} 0 default = .ok outcome'
      ∧ outcome.ledger.infraDestroyed = outcome'.ledger.infraDestroyed
      ∧ outcome.ledger.attacker.tanks = outcome'.ledger.attacker.tanks := by
  intro r s machine
  have hserves : machine.Serves (.batched 4) := by decide
  have hr : r.faults = [] := by decide
  have hs : s.faults = [] := by decide
  obtain ⟨outcome, outcome', hrun, hrun', hcolumn⟩ :=
    run_dependence_matrix .cash r s machine (.batched 4) {} 0 default hserves hr hs rfl
  exact ⟨hserves, hr, hs, rfl, outcome, outcome', hrun, hrun', hcolumn .infraDestroyed rfl,
    hcolumn (.booked .attacker .tanks) rfl⟩

end BattleOdds
