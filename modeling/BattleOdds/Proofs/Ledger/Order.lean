import BattleOdds.Proofs.Ledger.Assembly
import BattleOdds.Proofs.Summary
import BattleOdds.Report

/-!
# Statistics do not depend on the order of trials

Metrics are summaries of columns and odds follow from the tally, so both see a ledger as a
collection of trials without order. Parts that are merged in another order or grouping hold the same
trials: only the rows change places.
-/
namespace BattleOdds

theorem SideColumns.losses_congr {s t : SideColumns}
    (h : ∀ f, Summary.ofSamples (s.column f).toList = Summary.ofSamples (t.column f).toList) :
    s.losses = t.losses := by
  simp only [losses, LossSummaries.mk.injEq]
  exact ⟨h .soldiers, h .tanks, h .aircraft, h .ships⟩

theorem SideColumns.consumption_congr {s t : SideColumns}
    (h : ∀ f, Summary.ofSamples (s.column f).toList = Summary.ofSamples (t.column f).toList) :
    s.consumption = t.consumption := by
  simp only [consumption, ConsumptionSummaries.mk.injEq]
  exact ⟨h .gasoline, h .munitions⟩

theorem SideColumns.costs_congr {s t : SideColumns}
    (h : ∀ f, Summary.ofSamples (s.column f).toList = Summary.ofSamples (t.column f).toList) :
    s.costs = t.costs := by
  rw [costs, costs, CostSummaries.mk.injEq]
  exact ⟨h .usageValue, h .lossesValue, rfl, h .totalValue⟩

namespace Ledger

/-- Metrics read each column as a collection. -/
theorem metrics_congr {l m : Ledger} (h : ∀ c, (l.column c).toList.Perm (m.column c).toList) :
    l.metrics = m.metrics := by
  have hattacker (f : Figure) := Summary.ofSamples_congr (h (.booked .attacker f))
  have hdefender (f : Figure) := Summary.ofSamples_congr (h (.booked .defender f))
  have hpresent (xs ys : Array (Option Binary64)) (hperm : xs.toList.Perm ys.toList) :
      Summary.ofPresent? xs.toList = Summary.ofPresent? ys.toList :=
    Summary.ofPresent?_congr (hperm.filterMap id)
  simp only [metrics, Metrics.mk.injEq]
  exact ⟨SideColumns.losses_congr hattacker, SideColumns.losses_congr hdefender,
    Summary.ofSamples_congr (h .infraDestroyed), hpresent _ _ (h .moneyLooted),
    hpresent _ _ (h .moneyDestroyed), SideColumns.consumption_congr hattacker,
    SideColumns.consumption_congr hdefender, SideColumns.costs_congr hattacker,
    SideColumns.costs_congr hdefender, hpresent _ _ (h .improvementChance)⟩

/-- The tally of an aligned ledger counts its tiers as a collection. -/
theorem Aligned.tally_congr {l m : Ledger} (hl : l.Aligned) (hm : m.Aligned)
    (h : l.tiers.toList.Perm m.tiers.toList) : l.tally = m.tally := by
  apply Tally.ext_count
  intro t
  rw [hl.count_tally, hm.count_tally, ← Array.count_toList, ← Array.count_toList]
  exact h.count_eq t

/-- The rows of a ledger, each with its cells by column. -/
def rows (l : Ledger) : List ((c : Column) → Option c.Cell) :=
  (List.range l.size).map fun i c => (l.column c)[i]?

theorem rows_ofEntries (entries : List Entry) :
    (ofEntries entries).rows = entries.map fun e c => some (e.cell c) := by
  apply List.ext_getElem
  · simp [rows]
  · intro i hi hi'
    have hlt : i < entries.length := by simpa using hi'
    simp only [rows, List.getElem_map, List.getElem_range]
    funext c
    rw [column_ofEntries, List.getElem?_toArray, List.getElem?_map, List.getElem?_eq_getElem hlt]
    rfl

section Perm

variable {entries others : List Entry} (h : entries.Perm others)
include h

theorem column_ofEntries_perm (c : Column) :
    ((ofEntries entries).column c).toList.Perm ((ofEntries others).column c).toList := by
  rw [column_ofEntries, column_ofEntries]
  exact h.map _

theorem metrics_ofEntries_perm : (ofEntries entries).metrics = (ofEntries others).metrics :=
  metrics_congr (column_ofEntries_perm h)

theorem tally_ofEntries_perm : (ofEntries entries).tally = (ofEntries others).tally :=
  (Aligned.ofEntries entries).tally_congr (.ofEntries others) (column_ofEntries_perm h .tier)

theorem rows_ofEntries_perm : (ofEntries entries).rows.Perm (ofEntries others).rows := by
  rw [rows_ofEntries, rows_ofEntries]
  exact h.map _

end Perm
end Ledger

/-- A way to merge ledgers, two at a time. -/
inductive Merging
  | part (ledger : Assembly)
  | merge (first second : Merging)

namespace Merging

/-- The merged ledger. -/
def ledger : Merging → Ledger
  | .part a => a.ledger
  | .merge first second => first.ledger ++ second.ledger

/-- The ledgers that are merged, from left to right. -/
def parts : Merging → List Assembly
  | .part a => [a]
  | .merge first second => first.parts ++ second.parts

/-- The grouping does not show in the merged ledger. -/
theorem ledger_eq_ofEntries (m : Merging) :
    m.ledger = .ofEntries (m.parts.flatMap Assembly.entries) := by
  induction m with
  | part a => rw [ledger, a.ledger_eq_ofEntries, parts, List.flatMap_singleton]
  | merge first second ihFirst ihSecond =>
    rw [ledger, ihFirst, ihSecond, parts, List.flatMap_append, Ledger.ofEntries_append]

end Merging

/-- Statistics see collections of trials. A summary is that of the sorted samples, so it is the same
for every order of them, and absent samples do not count. So ledgers that are merged in another
order or grouping have the same metrics and odds, and their rows are the same but for their places.
-/
theorem statistics_without_order :
    (∀ samples sorted : List Binary64, samples ≠ [] → sorted.Perm samples →
        sorted.Pairwise (Binary64.totalLE · ·) → Summary.ofSamples samples = .ofSorted sorted)
    ∧ (∀ samples others : List Binary64, samples.Perm others →
        Summary.ofSamples samples = Summary.ofSamples others)
    ∧ (∀ samples others : List (Option Binary64),
        (samples.filterMap id).Perm (others.filterMap id) →
        Summary.ofPresent? samples = Summary.ofPresent? others)
    ∧ ∀ m n : Merging, m.parts.Perm n.parts →
        m.ledger.metrics = n.ledger.metrics ∧ m.ledger.odds = n.ledger.odds
        ∧ m.ledger.tally = n.ledger.tally ∧ m.ledger.rows.Perm n.ledger.rows := by
  refine ⟨fun samples sorted hne hperm hsorted => Summary.ofSamples_of_sorted hperm hsorted hne,
    fun _ _ => Summary.ofSamples_congr, fun _ _ => Summary.ofPresent?_congr, fun m n h => ?_⟩
  have hentries := h.flatMap_right Assembly.entries
  have htally := Ledger.tally_ofEntries_perm hentries
  rw [m.ledger_eq_ofEntries, n.ledger_eq_ofEntries]
  exact ⟨Ledger.metrics_ofEntries_perm hentries, congrArg Odds.ofTally htally, htally,
    Ledger.rows_ofEntries_perm hentries⟩

/-- Both zeros and a NaN in two orders, and two ledgers merged either way round. -/
theorem statistics_without_order_of_zeros :
    let samples : List Binary64 := [0.0, .negativeZero, .invalid]
    let others : List Binary64 := [.invalid, .negativeZero, 0.0]
    let won : Assembly := .record (.fresh 1)
      { result := { roundsWon := 3, infraDestroyed := 12.5 }
        attackerLossesValue := 1.0, defenderLossesValue := 2.0
        attackerCosts := { usage := {}, usageValue := 3.0 }
        defenderCosts := { usage := {}, usageValue := 4.0 } }
    let idle : Assembly := .fresh 0
    samples.Perm others ∧ Summary.ofSamples samples = Summary.ofSamples others
    ∧ (Merging.merge (.part won) (.part idle)).ledger.metrics
      = (Merging.merge (.part idle) (.part won)).ledger.metrics := by
  intro samples others won idle
  have hperm : samples.Perm others := by decide
  obtain ⟨-, hsamples, -, hmerged⟩ := statistics_without_order
  have hparts : (Merging.merge (.part won) (.part idle)).parts.Perm
      (Merging.merge (.part idle) (.part won)).parts := .swap idle won []
  exact ⟨hperm, hsamples samples others hperm, (hmerged _ _ hparts).1⟩

end BattleOdds
