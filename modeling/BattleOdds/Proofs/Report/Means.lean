import BattleOdds.Proofs.Run.Order
import BattleOdds.Proofs.Summary.Mean

/-!
# The means of a report

Every distribution of a report summarises a column of the ledger, so its mean lies in the range of
the column but for the rounding of the sum. What a side uses up is the same in every trial: there
the least and the greatest are that amount, while the mean may be off by the rounding, as it is for
the munitions of a single soldier.
-/
namespace BattleOdds
open Binary64

/-- The figures that a column holds, in the order of the trials. -/
def Ledger.samples (l : Ledger) (c : Column) : List Binary64 :=
  (l.column c).toList.flatMap c.figures

/-- The distribution that a report gives of a column. The tiers have odds in its place. -/
def Metrics.distribution? (m : Metrics) : Column → Option Summary
  | .tier => none
  | .booked side figure => some (m.summary side figure)
  | .infraDestroyed => some m.infraDestroyed
  | .moneyLooted => m.moneyLooted
  | .moneyDestroyed => m.moneyDestroyed
  | .improvementChance => m.improvementChance

namespace Ledger

variable {l : Ledger} {c : Column} {s : Summary}

theorem samples_booked (l : Ledger) (side : Side) (figure : Figure) :
    l.samples (.booked side figure) = ((l.side side).column figure).toList :=
  List.flatMap_singleton' _

theorem samples_infraDestroyed (l : Ledger) :
    l.samples .infraDestroyed = l.infraDestroyed.toList :=
  List.flatMap_singleton' _

theorem ofPresent?_eq_some {cells : List (Option Binary64)}
    (h : Summary.ofPresent? cells = some s) :
    s = .ofSamples (cells.flatMap Option.toList) ∧ cells.flatMap Option.toList ≠ [] := by
  have hpresent : cells.filterMap id = cells.flatMap Option.toList := by
    rw [List.filterMap_eq_flatMap_toList]
    rfl
  rw [Summary.ofPresent?, hpresent] at h
  by_cases hempty : (cells.flatMap Option.toList).isEmpty = true
  · simp only [hempty, if_true] at h
    cases h
  · simp only [if_neg hempty] at h
    exact ⟨(Option.some.inj h).symm, mt List.isEmpty_iff.mpr hempty⟩

/-- A distribution is that of the figures in its column. -/
theorem distribution?_metrics (hsize : 0 < (l.column c).size)
    (h : l.metrics.distribution? c = some s) :
    s = .ofSamples (l.samples c) ∧ l.samples c ≠ [] := by
  have hcells : (l.column c).toList ≠ [] :=
    List.ne_nil_of_length_pos (hsize.trans_eq Array.length_toList.symm)
  cases c with
  | tier => cases h
  | booked side figure =>
    rw [samples_booked]
    cases h
    exact ⟨l.summary_metrics side figure, hcells⟩
  | infraDestroyed =>
    rw [samples_infraDestroyed]
    cases h
    exact ⟨rfl, hcells⟩
  | moneyLooted => exact ofPresent?_eq_some h
  | moneyDestroyed => exact ofPresent?_eq_some h
  | improvementChance => exact ofPresent?_eq_some h

/-- A column has no more figures than trials. -/
theorem length_samples_le (l : Ledger) (c : Column) :
    (l.samples c).length ≤ (l.column c).size := by
  have hcell (cell : c.Cell) : (c.figures cell).length ≤ 1 := by
    cases c with
    | tier => exact Nat.zero_le 1
    | booked side figure => exact le_rfl
    | infraDestroyed => exact le_rfl
    | moneyLooted | moneyDestroyed | improvementChance =>
      cases cell with
      | none => exact Nat.zero_le 1
      | some x => exact le_rfl
  rw [samples, List.length_flatMap, ← Array.length_toList]
  calc ((l.column c).toList.map fun cell => (c.figures cell).length).sum
    _ ≤ ((l.column c).toList.map fun cell => (c.figures cell).length).length • 1 :=
        List.sum_le_card_nsmul _ _ (List.forall_mem_map.mpr fun cell _ => hcell cell)
    _ = (l.column c).toList.length := by rw [List.length_map, smul_eq_mul, mul_one]

end Ledger

section Runs

variable {r : Request} {prices : Prices}

theorem Plan.figure_of_costs (plan : Plan) {figure : Figure} (h : figure.ofLosses = false)
    (x y : TrialResult) (side : Side) :
    (plan.entry x).figure side figure = (plan.entry y).figure side figure := by
  cases figure with
  | gasoline | munitions | usageValue => simp only [Entry.figure, plan.costs_entry x y]
  | _ => cases h

/-- What a side uses up and its value stand in all rows alike. -/
theorem Runner.column_of_costs (runner : Runner) (plan : Plan) (r : Request) (seed : UInt64)
    (side : Side) {figure : Figure} (h : figure.ofLosses = false) :
    (((runner.run plan r seed).side side).column figure).toList
      = List.replicate plan.trials ((plan.entry {}).figure side figure) := by
  have hsize := runner.size_column_run plan r seed (.booked side figure)
  rw [← Array.length_toList] at hsize
  refine List.eq_replicate_iff.mpr ⟨hsize, fun x hx => ?_⟩
  have htrial : Draw.Yields (plan.trial r) fun _ => True := fun _ => trivial
  obtain ⟨result, -, hcell⟩ := runner.exists_of_mem_column (c := .booked side figure) htrial
    (Array.mem_toList_iff.mp hx)
  rw [← hcell]
  exact plan.figure_of_costs h result {} side

/-- The amounts that are used up are small at any prices, their value at moderate ones. -/
theorem Plan.small_figure_of_costs (side : Side) {figure : Figure} (h : figure.ofLosses = false)
    (hprices : figure ≠ .usageValue ∨ prices.Moderate) :
    Small 740 (((Plan.resolve r prices).entry {}).figure side figure) := by
  have husage : (((Plan.resolve r prices).entry {}).costs side).usage.Limited :=
    Plan.limited_usage side
  cases figure with
  | gasoline => exact husage.gasoline.mono
  | munitions => exact husage.munitions.mono
  | usageValue =>
    exact (Plan.small_usageValue (hprices.resolve_left (absurd rfl)) side).mono
  | _ => cases h

theorem Runner.centered_of_distribution (runner : Runner) (seed : UInt64) {c : Column}
    {s : Summary}
    (h : (runner.run (.resolve r prices) r seed).metrics.distribution? c = some s)
    (hfinite : ∀ x ∈ (runner.run (.resolve r prices) r seed).samples c, x.isFinite = true)
    (hsum : (sum (sortSamples ((runner.run (.resolve r prices) r seed).samples c))).isFinite
      = true) :
    s.Centered ((runner.run (.resolve r prices) r seed).samples c) := by
  have hsize := runner.size_column_run (.resolve r prices) r seed c
  have htrials : (Plan.resolve r prices).trials = r.trials := rfl
  have hmany : 100 ≤ r.trials := hundred_le_clampIterations r.iterations
  have hfew : r.trials ≤ 20000 := clampIterations_le r.iterations
  have hlength := (runner.run (.resolve r prices) r seed).length_samples_le c
  obtain ⟨rfl, hne⟩ := Ledger.distribution?_metrics (by omega) h
  exact Summary.centered_ofSamples hne (by omega) hfinite hsum

/-- A column of one small figure has a sum that does not overflow. -/
theorem centered_replicate {v : Binary64} (hv : Small 740 v) {n : ℕ} (hpos : 0 < n)
    (hn : n < 2 ^ 53) : (Summary.ofSamples (List.replicate n v)).Centered (List.replicate n v) := by
  have hsmall (x : Binary64) (hx : x ∈ List.replicate n v) : Small 740 x :=
    (List.eq_of_mem_replicate hx).symm ▸ hv
  have hperm := sortSamples_perm (List.replicate n v)
  have hlength : (sortSamples (List.replicate n v)).length < 2 ^ 53 := by
    rwa [hperm.length_eq, List.length_replicate]
  have hsum : (sum (sortSamples (List.replicate n v))).isFinite = true :=
    (upTo_sum (fun x hx => hsmall x (hperm.subset hx)) hlength (by norm_num)).isFinite
      (rounded_natCast_mul hlength (by norm_num)).2
  refine Summary.centered_ofSamples ?_ ?_ (fun x hx => (hsmall x hx).isFinite) hsum
  · exact List.ne_nil_of_length_pos (by rwa [List.length_replicate])
  · rw [List.length_replicate]
    exact hn.trans (by norm_num)

/-- A run enters what a side uses up in every row, and its distribution is that of these rows. -/
theorem Request.exists_run_of_costs (hvalid : r.faults = []) {machine : Machine}
    {runner : Runner} (hserves : machine.Serves runner) (prices : Prices) (entropy : UInt64)
    (moment : Timestamp) :
    ∃ outcome, r.run machine runner prices entropy moment = .ok outcome
      ∧ outcome.ledger = runner.run (.resolve r prices) r (r.seed.getD entropy)
      ∧ outcome.report.metrics = outcome.ledger.metrics
      ∧ ∀ side figure, figure.ofLosses = false →
        let rows := List.replicate r.trials (((Plan.resolve r prices).entry {}).figure side figure)
        ((outcome.ledger.side side).column figure).toList = rows
          ∧ outcome.report.metrics.summary side figure = .ofSamples rows := by
  refine ⟨_, Request.run_eq_ok hvalid hserves prices entropy moment, rfl, rfl,
    fun side figure hcosts => ?_⟩
  have hcolumn := runner.column_of_costs (.resolve r prices) r (r.seed.getD entropy) side hcosts
  refine ⟨hcolumn, ?_⟩
  simp only [Request.report, Ledger.summary_metrics]
  rw [hcolumn]
  rfl

end Runs

/-- The mean is consistent with the range up to the rounding of the sum. For finite samples whose
sum does not overflow, the mean lies between the least and the greatest, each moved by the drift of
the additions, and between the two themselves where nothing is rounded or up to two samples. So do
the distributions of every report; the amounts that a side uses up and their value are one figure in
all trials, which is then the least and the greatest, and the mean if its bits suffice. -/
theorem means_consistent :
    (∀ samples : List Binary64, samples ≠ [] → samples.length < 2 ^ 64 →
      (∀ x ∈ samples, x.isFinite = true) → (sum (sortSamples samples)).isFinite = true →
      (Summary.ofSamples samples).Centered samples)
    ∧ ∀ (r : Request) (machine : Machine) (runner : Runner) (prices : Prices) (entropy : UInt64)
        (moment : Timestamp), r.faults = [] → machine.Serves runner →
      ∃ outcome, r.run machine runner prices entropy moment = .ok outcome
        ∧ (∀ c s, outcome.report.metrics.distribution? c = some s →
          (∀ x ∈ outcome.ledger.samples c, x.isFinite = true) →
          (sum (sortSamples (outcome.ledger.samples c))).isFinite = true →
          s.Centered (outcome.ledger.samples c))
        ∧ ∀ side figure, figure.ofLosses = false →
          ∃ v, ((outcome.ledger.side side).column figure).toList = List.replicate r.trials v
            ∧ (figure ≠ .usageValue ∨ prices.Moderate →
              (outcome.report.metrics.summary side figure).Centered
                (List.replicate r.trials v)) := by
  refine ⟨fun samples hne hlength hfinite hsum =>
    Summary.centered_ofSamples hne hlength hfinite hsum, ?_⟩
  intro r machine runner prices entropy moment hvalid hserves
  obtain ⟨outcome, hrun, hledger, hmetrics, hcosts⟩ :=
    Request.exists_run_of_costs hvalid hserves prices entropy moment
  refine ⟨outcome, hrun, fun c s h hfinite hsum => ?_, fun side figure hfigure => ?_⟩
  · rw [hledger] at hmetrics hfinite hsum ⊢
    rw [hmetrics] at h
    exact runner.centered_of_distribution _ h hfinite hsum
  · obtain ⟨hcolumn, hsummary⟩ := hcosts side figure hfigure
    refine ⟨_, hcolumn, fun hprices => ?_⟩
    have hmany : 100 ≤ r.trials := hundred_le_clampIterations r.iterations
    have hfew : r.trials ≤ 20000 := clampIterations_le r.iterations
    rw [hsummary]
    exact centered_replicate (Plan.small_figure_of_costs side hfigure hprices) (by omega) (by omega)

/-- Four samples with an exact sum, and a battle of fleets. -/
theorem means_consistent_of_fleets :
    let samples : List Binary64 := [2.5, -0.5, 8.0, -3.25]
    let r : Request :=
      { seed := some 11, attacker := { ships := 12 }, defender := { ships := 9 }
        action := .naval 12 }
    let machine := Machine.withRoomFor 8
    samples ≠ [] ∧ samples.length < 2 ^ 64 ∧ (∀ x ∈ samples, x.isFinite = true)
    ∧ (sum (sortSamples samples)).isFinite = true
    ∧ (Summary.ofSamples samples).Centered samples
    ∧ r.faults = [] ∧ machine.Serves (.batched 4)
    ∧ ∃ outcome, r.run machine (.batched 4) {} 0 default = .ok outcome
      ∧ ∃ v, outcome.ledger.attacker.gasoline.toList = List.replicate r.trials v
        ∧ outcome.report.metrics.attackerConsumption.gasoline.Centered
          (List.replicate r.trials v) := by
  intro samples r machine
  have hne : samples ≠ [] := by decide
  have hlength : samples.length < 2 ^ 64 := by decide
  have hfinite : ∀ x ∈ samples, x.isFinite = true := by decide
  have hsorted : [-3.25, -0.5, 2.5, 8.0] = sortSamples samples :=
    eq_sortSamples (by decide) (by decide)
  have hsum : (sum (sortSamples samples)).isFinite = true := by
    rw [← hsorted]
    decide
  have hvalid : r.faults = [] := by decide
  have hserves : machine.Serves (.batched 4) := by decide
  obtain ⟨outcome, hrun, -, hcosts⟩ :=
    means_consistent.2 r machine (.batched 4) {} 0 default hvalid hserves
  obtain ⟨v, hcolumn, hcentered⟩ := hcosts .attacker .gasoline rfl
  exact ⟨hne, hlength, hfinite, hsum, means_consistent.1 samples hne hlength hfinite hsum, hvalid,
    hserves, outcome, hrun, v, hcolumn, hcentered (.inl nofun)⟩

set_option maxRecDepth 20000 in
/-- The mean of three equal samples may exceed them, and that of the munitions of one soldier over a
hundred trials falls short of them. -/
theorem mean_leaves_range :
    let samples : List Binary64 := [0.1, 0.1, 0.1]
    let r : Request :=
      { iterations := 100, seed := some 11, attacker := { soldiers := 1 }
        action := .ground 1 0 true }
    (∀ x ∈ samples, x.isFinite = true) ∧ (sum (sortSamples samples)).isFinite = true
    ∧ ¬ (Summary.ofSamples samples).mean ≤ (Summary.ofSamples samples).max
    ∧ r.faults = [] ∧ ∃ outcome, r.run (.withRoomFor 0) .sequential {} 0 default = .ok outcome
      ∧ outcome.ledger.attacker.munitions.toList = List.replicate 100 0.0002
      ∧ ¬ outcome.report.metrics.attackerConsumption.munitions.min
        ≤ outcome.report.metrics.attackerConsumption.munitions.mean := by
  intro samples r
  have hfinite : ∀ x ∈ samples, x.isFinite = true := by decide
  have hsorted : samples = sortSamples samples := eq_sortSamples (.refl _) (by decide)
  have hsum : (sum (sortSamples samples)).isFinite = true := by
    rw [← hsorted]
    decide
  have hmean : ¬ (Summary.ofSamples samples).mean ≤ (Summary.ofSamples samples).max := by
    rw [Summary.ofSamples_of_sorted (.refl _) (by decide) (by decide)]
    decide
  have hvalid : r.faults = [] := by decide
  have hamount : ((Plan.resolve r {}).entry {}).figure .attacker .munitions = 0.0002 := by decide
  have htrials : r.trials = 100 := by decide
  obtain ⟨outcome, hrun, -, -, hcosts⟩ :=
    Request.exists_run_of_costs hvalid (Machine.serves_sequential _) {} 0 default
  obtain ⟨hcolumn, hsummary⟩ := hcosts .attacker .munitions rfl
  have hpairwise : (List.replicate 100 (0.0002 : Binary64)).Pairwise (totalLE · ·) :=
    List.pairwise_replicate.mpr (.inr (by decide))
  have hleaves : ¬ (Summary.ofSorted (List.replicate 100 0.0002)).min
      ≤ (Summary.ofSorted (List.replicate 100 0.0002)).mean := by
    decide
  rw [hamount, htrials] at hcolumn hsummary
  rw [Summary.ofSamples_of_sorted (.refl _) hpairwise (by decide)] at hsummary
  rw [← hsummary] at hleaves
  exact ⟨hfinite, hsum, hmean, hvalid, outcome, hrun, hcolumn, hleaves⟩

end BattleOdds
