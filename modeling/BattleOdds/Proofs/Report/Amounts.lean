import BattleOdds.Proofs.Percentile
import BattleOdds.Proofs.Run.Batched
import BattleOdds.Proofs.Valuation

/-!
# The figures of a report are amounts

At moderate prices every figure that a run records is small. A summary of small samples is small, a
share of the trials is too, and so every figure of a report is finite and not negative.
-/
namespace BattleOdds
open Binary64

variable {prices : Prices} {r : Request} {n : ℕ}

/-! ## Ledgers -/

/-- The figures in a cell of a column. A tier is none, and what is absent is none. -/
def Column.figures : (c : Column) → c.Cell → List Binary64
  | .tier, _ => []
  | .booked .., x => [x]
  | .infraDestroyed, x => [x]
  | .moneyLooted, x? => x?.toList
  | .moneyDestroyed, x? => x?.toList
  | .improvementChance, x? => x?.toList

namespace Plan

variable {result : TrialResult}

theorem small_losses (h : result.Limited) (plan : Plan) (side : Side) (unit : UnitType) :
    Small 64 (((plan.entry result).losses side).of unit) := by
  cases side with
  | attacker => exact h.attackerLosses unit
  | defender => exact h.defenderLosses unit

theorem limited_usage (side : Side) :
    (((resolve r prices).entry result).costs side).usage.Limited := by
  cases side with
  | attacker => exact r.action.limited_attackerConsumption
  | defender => exact r.action.limited_defenderConsumption r.defender

theorem small_usageValue (hp : prices.Moderate) (side : Side) :
    Small 737 (((resolve r prices).entry result).costs side).usageValue := by
  cases side with
  | attacker => exact r.action.limited_attackerConsumption.small_value hp
  | defender => exact (r.action.limited_defenderConsumption r.defender).small_value hp

theorem small_lossesValue (hp : prices.Moderate) (h : result.Limited) (side : Side) :
    Small 739 (((resolve r prices).entry result).lossesValue side) := by
  cases side with
  | attacker => exact (UnitValues.limited_atPrices hp).small_lossesValue h.attackerLosses
  | defender => exact (UnitValues.limited_atPrices hp).small_lossesValue h.defenderLosses

/-- What is booked of a trial is small. -/
theorem small_figure (hp : prices.Moderate) (h : result.Limited) (side : Side) (figure : Figure) :
    Small 740 (((resolve r prices).entry result).figure side figure) := by
  have husage : (((resolve r prices).entry result).costs side).usage.Limited := limited_usage side
  have husageValue : Small 737 (((resolve r prices).entry result).costs side).usageValue :=
    small_usageValue hp side
  have hlossesValue := small_lossesValue (r := r) hp h side
  cases figure with
  | soldiers => exact (small_losses h _ side .soldiers).mono
  | tanks => exact (small_losses h _ side .tanks).mono
  | aircraft => exact (small_losses h _ side .aircraft).mono
  | ships => exact (small_losses h _ side .ships).mono
  | gasoline => exact husage.gasoline.mono
  | munitions => exact husage.munitions.mono
  | usageValue => exact husageValue.mono
  | lossesValue => exact hlossesValue.mono
  | totalValue => exact husageValue.mono.add hlossesValue

theorem small_cell (hp : prices.Moderate) (h : result.Limited) (c : Column) :
    ∀ x ∈ c.figures (((resolve r prices).entry result).cell c), Small 740 x := by
  intro x hx
  cases c with
  | tier => cases hx
  | booked side figure =>
    cases List.mem_singleton.mp hx
    exact small_figure hp h side figure
  | infraDestroyed =>
    cases List.mem_singleton.mp hx
    exact h.infraDestroyed.mono
  | moneyLooted => exact (h.moneyLooted x (Option.mem_toList.mp hx)).mono
  | moneyDestroyed =>
    have habsent : result.moneyDestroyed = some x := Option.mem_toList.mp hx
    rw [h.moneyDestroyed] at habsent
    cases habsent
  | improvementChance => exact (h.improvementChance x (Option.mem_toList.mp hx)).mono

end Plan

/-- All figures of a ledger keep to a bound. -/
def Ledger.Limited (n : ℕ) (l : Ledger) : Prop :=
  ∀ c, ∀ cell ∈ l.column c, ∀ x ∈ c.figures cell, Small n x

theorem Runner.limited_run (runner : Runner) (hp : prices.Moderate) (seed : UInt64) :
    (runner.run (.resolve r prices) r seed).Limited 740 := by
  have htrial : Draw.Yields ((Plan.resolve r prices).trial r) TrialResult.Limited :=
    limited_trial (Factors.positive_resolve r.context r.defender.isFortified) r.action r.defender
      r.context
  intro c cell hcell
  -- A cell is one of a trial, whatever the runner is.
  obtain ⟨result, hresult, rfl⟩ := runner.exists_of_mem_column htrial hcell
  exact Plan.small_cell hp hresult c

/-! ## Summaries -/

def LossSummaries.toList (l : LossSummaries) : List Summary :=
  [l.soldiers, l.tanks, l.aircraft, l.ships]

def ConsumptionSummaries.toList (c : ConsumptionSummaries) : List Summary :=
  [c.gasoline, c.munitions]

def CostSummaries.toList (c : CostSummaries) : List Summary :=
  [c.consumablesValue, c.unitLossesValue, c.totalValue] ++ c.infraValue.toList

/-- The summaries of one side. -/
def sideSummaries (losses : LossSummaries) (consumption : ConsumptionSummaries)
    (costs : CostSummaries) : List Summary :=
  losses.toList ++ consumption.toList ++ costs.toList

/-- All summaries that are present. -/
def Metrics.summaries (m : Metrics) : List Summary :=
  sideSummaries m.attackerLosses m.attackerConsumption m.attackerCosts
    ++ sideSummaries m.defenderLosses m.defenderConsumption m.defenderCosts
    ++ m.infraDestroyed :: m.moneyLooted.toList ++ m.moneyDestroyed.toList
    ++ m.improvementChance.toList

/-- A side's summaries are those of its columns. -/
theorem SideColumns.forall_mem_summaries {c : SideColumns} {P : Summary → Prop}
    (h : ∀ figure, P (.ofSamples (c.column figure).toList)) :
    ∀ s ∈ sideSummaries c.losses c.consumption c.costs, P s := by
  simp only [sideSummaries, LossSummaries.toList, ConsumptionSummaries.toList, CostSummaries.toList,
    List.forall_mem_append, List.forall_mem_cons]
  refine ⟨⟨⟨h .soldiers, h .tanks, h .aircraft, h .ships, ?_⟩, h .gasoline, h .munitions, ?_⟩,
    ⟨h .usageValue, h .lossesValue, h .totalValue, ?_⟩, ?_⟩
  all_goals exact fun _ hs => by cases hs

/-- All figures of a summary keep to a bound. -/
def Summary.Limited (n : ℕ) (s : Summary) : Prop := ∀ x ∈ s.figures, Small n x

/-- The summaries of a ledger do not go far beyond its figures. -/
theorem Ledger.Limited.summaries {l : Ledger} (h : l.Limited n)
    (hsize : ∀ c, (l.column c).size < 2 ^ 53) (hn : n ≤ 971 := by norm_num) :
    ∀ s ∈ l.metrics.summaries, s.Limited (n + 1) := by
  have hbooked (side : Side) (figure : Figure) :
      (Summary.ofSamples ((l.side side).column figure).toList).Limited (n + 1) :=
    Summary.small_ofSamples (hsize (.booked side figure))
      (fun x hx => h (.booked side figure) x (Array.mem_toList_iff.mp hx) x List.mem_cons_self) hn
  have hinfra : (Summary.ofSamples l.infraDestroyed.toList).Limited (n + 1) :=
    Summary.small_ofSamples (hsize .infraDestroyed)
      (fun x hx => h .infraDestroyed x (Array.mem_toList_iff.mp hx) x List.mem_cons_self) hn
  have hoptional (cells : Array (Option Binary64)) (hcount : cells.size < 2 ^ 53)
      (hcells : ∀ cell ∈ cells, ∀ x ∈ cell.toList, Small n x) :
      ∀ s ∈ (Summary.ofPresent? cells.toList).toList, s.Limited (n + 1) := fun s hs =>
    Summary.small_ofPresent? hcount
      (fun x hx => hcells (some x) (Array.mem_toList_iff.mp hx) x List.mem_cons_self) hn s
      (Option.mem_toList.mp hs)
  simp only [Metrics.summaries, List.forall_mem_append, List.forall_mem_cons]
  exact ⟨⟨⟨⟨SideColumns.forall_mem_summaries (hbooked .attacker),
    SideColumns.forall_mem_summaries (hbooked .defender)⟩, hinfra,
    hoptional l.moneyLooted (hsize .moneyLooted) (h .moneyLooted)⟩,
    hoptional l.moneyDestroyed (hsize .moneyDestroyed) (h .moneyDestroyed)⟩,
    hoptional l.improvementChance (hsize .improvementChance) (h .improvementChance)⟩

/-! ## Odds -/

namespace Odds

/-- The shares of the four tiers. -/
def figures (o : Odds) : List Binary64 := [o.decisive, o.moderate, o.pyrrhic, o.failure]

theorem small_share (count : ℕ) {total : ℕ} (hpos : 0 < total) (hlt : total < 2 ^ 64) :
    Small 71 (share count total) := by
  have hcount : Small 71 (ofNat count * 100.0) := (small_ofUInt64 _).mul small_hundred
  have htotal := hasValue_ofNat_rounded hlt
  have hone : 1.0 ≤ ofNat total := by
    rw [le_iff_value hasValue_one.isNumber htotal.isNumber, hasValue_one.value_eq,
      htotal.value_eq]
    calc (1 : ℚ) = Rounding.rounded (1 : ℕ) := (rounded_natCast (by norm_num)).symm
      _ ≤ Rounding.rounded total := Rounding.rounded_mono (by exact_mod_cast hpos)
  exact hcount.div (isFinite_ofNat total) hone

theorem small_ofTally (t : Tally) : ∀ x ∈ (ofTally t).figures, Small 71 x := by
  have hlt : t.total % wordCount 64 < 2 ^ 64 := Nat.mod_lt _ (by decide)
  unfold ofTally
  dsimp only
  split_ifs with hzero
  · simp only [figures, List.forall_mem_cons, List.not_mem_nil, false_implies, implies_true,
      and_true]
    exact ⟨.zero, .zero, .zero, .zero⟩
  · have hshare (count : ℕ) := small_share count (Nat.pos_of_ne_zero hzero) hlt
    simp only [figures, List.forall_mem_cons, List.not_mem_nil, false_implies, implies_true,
      and_true]
    exact ⟨hshare _, hshare _, hshare _, hshare _⟩

end Odds

end BattleOdds
