import BattleOdds.Proofs.Decimal.Characters
import BattleOdds.Proofs.Report.Amounts
import BattleOdds.Proofs.Report.Presence
import BattleOdds.Report.Encoding

/-!
# Where a report is null

JSON writes `null` for what is absent and for a figure that is not finite. In a report whose figures
are finite the former is all that is left, and the action and the request say where it is.
-/
namespace BattleOdds

namespace Json

mutual

/-- The places at which a value is written as `null`, each as the names of the members that lead to
it. An item of a list is named by its position. -/
def nullPaths : Json → List (List String)
  | .list items => nullPathsItems 0 items
  | .record members => nullPathsMembers members
  | value => if value.scalar = "null" then [[]] else []

def nullPathsItems (i : ℕ) : List Json → List (List String)
  | [] => []
  | item :: items => item.nullPaths.map (toString i :: ·) ++ nullPathsItems (i + 1) items

def nullPathsMembers : List (String × Json) → List (List String)
  | [] => []
  | (name, value) :: members => value.nullPaths.map (name :: ·) ++ nullPathsMembers members

end

/-- Nothing in the value is written as `null`. -/
def Filled (value : Json) : Prop := value.nullPaths = []

theorem Filled.nullPaths_eq {value : Json} (h : value.Filled) : value.nullPaths = [] := h

theorem nullPaths_record (members : List (String × Json)) :
    (Json.record members).nullPaths
      = members.flatMap fun member => member.2.nullPaths.map (member.1 :: ·) := by
  rw [nullPaths]
  induction members with
  | nil => rfl
  | cons member members ih =>
    rw [nullPathsMembers, ih, List.flatMap_cons]

/-- A record is filled if its values are. -/
theorem filled_record {members : List (String × Json)}
    (h : ∀ value ∈ members.map Prod.snd, value.Filled) : (Json.record members).Filled := by
  rw [Filled, nullPaths_record, List.flatMap_eq_nil_iff]
  intro member hmember
  rw [h member.2 (List.mem_map_of_mem hmember), List.map_nil]

theorem filled_record_map {α : Type} {members : List (String × Json)} {encode : α → Json}
    (as : List α) (hvalues : members.map Prod.snd = as.map encode)
    (h : ∀ a ∈ as, (encode a).Filled) : (Json.record members).Filled :=
  filled_record (hvalues ▸ List.forall_mem_map.mpr h)

theorem filled_list {items : List Json} (h : ∀ item ∈ items, item.Filled) :
    (Json.list items).Filled := by
  have hitems (i : ℕ) : nullPathsItems i items = [] := by
    induction items generalizing i with
    | nil => rfl
    | cons item items ih =>
      rw [nullPathsItems, h item List.mem_cons_self, List.map_nil, List.nil_append,
        ih fun other hother => h other (List.mem_cons_of_mem item hother)]
  rw [Filled, nullPaths, hitems]

theorem filled_text (s : String) : (Json.text s).Filled := by
  have hquote : quoted s ≠ "null" := fun h => by
    have hfirst := congrArg String.toList h
    rw [quoted, String.toList_ofList] at hfirst
    cases hfirst
  exact if_neg hquote

theorem filled_integer (i : ℤ) : (Json.integer i).Filled := if_neg (NumericText.integer i).ne_null

theorem filled_figure {x : Binary64} (h : IsAmount x) : (Json.figure x).Filled :=
  if_neg (FigureStyle.json.numericText_text h.isFinite).ne_null

/-- The null that a member is if its value is absent. -/
def absentPath {α : Type} (name : String) (a? : Option α) : List (List String) :=
  if a?.isSome then [] else [[name]]

/-- An absent value is the only null that an optional one gives rise to. -/
theorem nullPaths_optional {α : Type} (name : String) (encode : α → Json) {a? : Option α}
    (h : ∀ a ∈ a?, (encode a).Filled) :
    (optional encode a?).nullPaths.map (name :: ·) = absentPath name a? := by
  cases a? with
  | none => rfl
  | some a =>
    rw [optional, h a rfl]
    rfl

end Json

open Json

/-! ## Parts of a report -/

/-- All figures of a summary are amounts. -/
def Summary.Amounts (s : Summary) : Prop := ∀ x ∈ s.figures, IsAmount x

theorem Summary.Amounts.filled {s : Summary} (h : s.Amounts) : s.toJson.Filled :=
  filled_record_map s.figures rfl fun x hx => filled_figure (h x hx)

theorem Odds.filled {o : Odds} (h : ∀ x ∈ o.figures, IsAmount x) : o.toJson.Filled :=
  filled_record_map o.figures rfl fun x hx => filled_figure (h x hx)

theorem LossSummaries.filled {l : LossSummaries} (h : ∀ s ∈ l.toList, s.Amounts) :
    l.toJson.Filled :=
  filled_record_map l.toList rfl fun s hs => (h s hs).filled

theorem ConsumptionSummaries.filled {c : ConsumptionSummaries} (h : ∀ s ∈ c.toList, s.Amounts) :
    c.toJson.Filled :=
  filled_record_map c.toList rfl fun s hs => (h s hs).filled

theorem CostSummaries.nullPaths {c : CostSummaries} (h : ∀ s ∈ c.toList, s.Amounts) :
    c.toJson.nullPaths = absentPath "infra_value" c.infraValue := by
  simp only [toList, List.forall_mem_append, List.forall_mem_cons, List.not_mem_nil,
    false_implies, implies_true, and_true, Option.mem_toList] at h
  obtain ⟨⟨husage, hlosses, htotal⟩, hinfra⟩ := h
  have hoptional := nullPaths_optional "infra_value" _ fun s hs => (hinfra s hs).filled
  rw [toJson, nullPaths_record]
  simp only [List.flatMap_cons, List.flatMap_nil, husage.filled.nullPaths_eq,
    hlosses.filled.nullPaths_eq, htotal.filled.nullPaths_eq, hoptional, List.map_nil,
    List.nil_append, List.append_nil]

theorem Metrics.nullPaths {m : Metrics} (h : ∀ s ∈ m.summaries, s.Amounts) :
    m.toJson.nullPaths
      = absentPath "money_looted" m.moneyLooted ++ absentPath "money_destroyed" m.moneyDestroyed
        ++ (absentPath "infra_value" m.attackerCosts.infraValue).map ("cost_estimates" :: ·)
        ++ (absentPath "infra_value" m.defenderCosts.infraValue).map
          ("cost_estimates_defender" :: ·)
        ++ absentPath "improvement_destroy_chance" m.improvementChance := by
  simp only [summaries, sideSummaries, List.forall_mem_append, List.forall_mem_cons,
    Option.mem_toList] at h
  obtain ⟨⟨⟨⟨⟨⟨hlosses, husage⟩, hcosts⟩, ⟨hlosses', husage'⟩, hcosts'⟩, hdestroyed, hlooted⟩,
    hmoney⟩, hchance⟩ := h
  have hlooted := nullPaths_optional "money_looted" _ fun s hs => (hlooted s hs).filled
  have hmoney := nullPaths_optional "money_destroyed" _ fun s hs => (hmoney s hs).filled
  have hchance :=
    nullPaths_optional "improvement_destroy_chance" _ fun s hs => (hchance s hs).filled
  rw [toJson, nullPaths_record]
  simp only [List.flatMap_cons, List.flatMap_nil, (LossSummaries.filled hlosses).nullPaths_eq,
    (LossSummaries.filled hlosses').nullPaths_eq, hdestroyed.filled.nullPaths_eq, hlooted, hmoney,
    (ConsumptionSummaries.filled husage).nullPaths_eq,
    (ConsumptionSummaries.filled husage').nullPaths_eq, CostSummaries.nullPaths hcosts,
    CostSummaries.nullPaths hcosts', hchance, List.map_nil, List.nil_append, List.append_nil,
    List.append_assoc]

theorem Prices.Moderate.isAmount {p : Prices} (h : p.Moderate) : ∀ x ∈ p.figures, IsAmount x := by
  simp only [figures, List.forall_mem_cons, List.not_mem_nil, false_implies, implies_true, and_true]
  exact ⟨(small_of_le h.gasoline).isAmount, (small_of_le h.munitions).isAmount,
    (small_of_le h.steel).isAmount, (small_of_le h.aluminum).isAmount⟩

theorem ReportHeader.nullPaths {h : ReportHeader} (hprices : h.prices.Moderate) :
    h.toJson.nullPaths = absentPath "seed" h.seed := by
  have hfilled : h.prices.toJson.Filled :=
    filled_record_map h.prices.figures rfl fun x hx =>
      filled_figure (hprices.isAmount x hx)
  have hseed : (optional whole h.seed).nullPaths.map ("seed" :: ·) = absentPath "seed" h.seed :=
    nullPaths_optional "seed" whole fun n _ => filled_integer _
  have heffective : (whole h.effectiveSeed).Filled := filled_integer _
  have haction : (tag h.action).Filled := filled_text _
  rw [toJson, nullPaths_record]
  simp only [List.flatMap_cons, List.flatMap_nil, (filled_integer _).nullPaths_eq, hseed,
    heffective.nullPaths_eq, haction.nullPaths_eq, (filled_text _).nullPaths_eq,
    hfilled.nullPaths_eq, List.map_nil, List.nil_append, List.append_nil]

/-! ## Reports -/

/-- The places at which the report of a request is null: the seed that it may leave open, what its
action does not model and the values that are never estimated. -/
def Request.nullPaths (r : Request) : List (List String) :=
  (if r.seed.isSome then [] else [["meta", "seed"]])
    ++ (if r.action.kind = .ground then [] else [["metrics", "money_looted"]])
    ++ [["metrics", "money_destroyed"], ["metrics", "cost_estimates", "infra_value"],
      ["metrics", "cost_estimates_defender", "infra_value"]]
    ++ if r.action.kind = .air then [["metrics", "improvement_destroy_chance"]] else []

theorem Report.nullPaths {report : Report} (hprices : report.header.prices.Moderate)
    (hodds : ∀ x ∈ report.odds.figures, IsAmount x) :
    report.toJson.nullPaths
      = (absentPath "seed" report.header.seed).map ("meta" :: ·)
        ++ report.metrics.toJson.nullPaths.map ("metrics" :: ·) := by
  have hshares : (Json.record [("probabilities", report.odds.toJson)]).Filled :=
    filled_record fun value hvalue => List.mem_singleton.mp hvalue ▸ Odds.filled hodds
  have hassumptions : (Json.list (report.assumptions.map fun a => .text a.text)).Filled :=
    filled_list (List.forall_mem_map.mpr fun a _ => filled_text a.text)
  rw [toJson, nullPaths_record]
  simp only [List.flatMap_cons, List.flatMap_nil, ReportHeader.nullPaths hprices,
    hshares.nullPaths_eq, hassumptions.nullPaths_eq, List.map_nil, List.nil_append,
    List.append_nil]

/-- A request fixes where its report is null. -/
theorem Report.nullPaths_of_models {report : Report} {r : Request}
    (hprices : report.header.prices.Moderate) (hodds : ∀ x ∈ report.odds.figures, IsAmount x)
    (hsummaries : ∀ s ∈ report.metrics.summaries, s.Amounts) (hseed : report.header.seed = r.seed)
    (hmodels : report.metrics.Models r.action.kind) :
    report.toJson.nullPaths = r.nullPaths := by
  have hinfra := hmodels.infraValue
  rw [nullPaths hprices hodds, Metrics.nullPaths hsummaries, hseed, hinfra.1, hinfra.2,
    hmodels.moneyDestroyed, Request.nullPaths]
  simp only [absentPath, hmodels.moneyLooted, hmodels.improvementChance]
  cases r.seed <;> cases r.action.kind <;> rfl

/-- Nothing but finite figures from zero on reaches a report. At prices from zero up to `10 ^ 200` a
request without faults is answered under either runner that the machine has the workers for, all
figures of the ledger and all that the report makes of them are amounts, and the report is null only
where the request leaves the seed open, where the action does not model a figure and where nothing
is ever estimated. -/
theorem figures_are_amounts (r : Request) (machine : Machine) (runner : Runner) (prices : Prices)
    (entropy : UInt64) (moment : Timestamp) (hserves : machine.Serves runner)
    (hvalid : r.faults = []) (hprices : prices.Moderate) :
    ∃ outcome, r.run machine runner prices entropy moment = .ok outcome
      ∧ (∀ c, ∀ cell ∈ outcome.ledger.column c, ∀ x ∈ c.figures cell, IsAmount x)
      ∧ (∀ s ∈ outcome.report.metrics.summaries, s.Amounts)
      ∧ (∀ x ∈ outcome.report.odds.figures, IsAmount x)
      ∧ outcome.report.toJson.nullPaths = r.nullPaths := by
  have htrials : 100 ≤ (Plan.resolve r prices).trials ∧ (Plan.resolve r prices).trials ≤ 20000 :=
    ⟨hundred_le_clampIterations r.iterations, clampIterations_le r.iterations⟩
  have hledger := runner.limited_run (r := r) hprices (r.seed.getD entropy)
  have hsize (c : Column) :
      ((runner.run (.resolve r prices) r (r.seed.getD entropy)).column c).size < 2 ^ 53 := by
    rw [runner.size_column_run]
    omega
  have hsummaries := hledger.summaries hsize
  have hamounts : ∀ s ∈ (runner.run (.resolve r prices) r
      (r.seed.getD entropy)).metrics.summaries, s.Amounts := fun s hs x hx =>
    (hsummaries s hs x hx).isAmount
  have hodds : ∀ x ∈ (runner.run (.resolve r prices) r (r.seed.getD entropy)).odds.figures,
      IsAmount x := fun x hx => (Odds.small_ofTally _ x hx).isAmount
  have hmodels : (runner.run (.resolve r prices) r (r.seed.getD entropy)).metrics.Models
      r.action.kind := models_run runner _ r _ (by omega)
  exact ⟨_, Request.run_eq_ok hvalid hserves prices entropy moment,
    fun c cell hcell x hx => (hledger c cell hcell x hx).isAmount, hamounts, hodds,
    Report.nullPaths_of_models hprices hodds hamounts rfl hmodels⟩

/-- The greatest fleets at the greatest prices. -/
theorem figures_are_amounts_of_fleets :
    let r : Request :=
      { attacker := { ships := 0xffffffffffffffff }
        defender := { ships := 0xffffffffffffffff }
        action := .naval 0xffffffffffffffff }
    let prices : Prices :=
      { gasoline := 1e200, munitions := 1e200, steel := 1e200, aluminum := 1e200 }
    let machine := Machine.withRoomFor 8
    machine.Serves (.batched 4) ∧ r.faults = [] ∧ prices.Moderate
    ∧ ∃ outcome, r.run machine (.batched 4) prices 0 default = .ok outcome
      ∧ (∀ x ∈ outcome.report.odds.figures, IsAmount x)
      ∧ outcome.report.toJson.nullPaths
        = [["meta", "seed"], ["metrics", "money_looted"], ["metrics", "money_destroyed"],
          ["metrics", "cost_estimates", "infra_value"],
          ["metrics", "cost_estimates_defender", "infra_value"]] := by
  intro r prices machine
  have hserves : machine.Serves (.batched 4) := by decide
  have hvalid : r.faults = [] := by decide
  have hprice : 0.0 ≤ (1e200 : Binary64) ∧ (1e200 : Binary64) ≤ 1e200 := by decide +kernel
  have hprices : prices.Moderate := ⟨hprice, hprice, hprice, hprice⟩
  obtain ⟨outcome, hrun, -, -, hodds, hnulls⟩ :=
    figures_are_amounts r machine (.batched 4) prices 0 default hserves hvalid hprices
  exact ⟨hserves, hvalid, hprices, outcome, hrun, hodds, hnulls⟩

end BattleOdds
