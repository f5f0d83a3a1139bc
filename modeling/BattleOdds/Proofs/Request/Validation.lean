import BattleOdds.Proofs.Session.Reading

/-!
# What a valid request meets

A request has to meet eight requirements on figures, and one on each type of unit that its action
can commit. Validation goes through them in order and fails with the first that is not met. Every
way to a run validates first, and a valid request can fail only where its batches find no workers.
-/
namespace BattleOdds

/-- A figure of a profile, if it is known. -/
def Profile.figure? (p : Profile) : ProfileFigure → Option Binary64
  | .money => p.money
  | .highestCityInfra => some p.highestCityInfra
  | .highestCityPopulation => some p.highestCityPopulation
  | .averageInfra => some p.averageInfra

/-- How many units of a type an action commits. -/
def Action.commits : Action → UnitType → UInt64
  | .ground soldiers _ _, .soldiers => soldiers
  | .ground _ tanks _, .tanks => tanks
  | .air aircraft _, .aircraft => aircraft
  | .naval ships, .ships => ships
  | _, _ => 0

/-- What validation asks of a request. -/
inductive Requirement
  /-- A figure that is known is finite. -/
  | finite (side : Side) (figure : ProfileFigure)
  /-- The attacker holds the units that the action commits. -/
  | held (unit : UnitType)
deriving DecidableEq

namespace Requirement

/-- The requirement is met by a request. -/
def Met (r : Request) : Requirement → Prop
  | .finite side figure => ∀ x ∈ (r.profile side).figure? figure, x.isFinite = true
  | .held unit => r.action.commits unit ≤ r.attacker.count unit

instance (r : Request) : DecidablePred (Met r)
  | .finite side figure =>
    inferInstanceAs (Decidable (∀ x ∈ (r.profile side).figure? figure, x.isFinite = true))
  | .held unit => inferInstanceAs (Decidable (r.action.commits unit ≤ r.attacker.count unit))

/-- The error of a request that does not meet the requirement. -/
def error (r : Request) : Requirement → SimulationError
  | .finite side figure => .notFinite side figure
  | .held unit =>
    .overCommitted r.action.kind unit (r.action.commits unit) (r.attacker.count unit)

/-- The error, if the requirement is not met. -/
def fault? (r : Request) (q : Requirement) : Option SimulationError :=
  if q.Met r then none else some (q.error r)

theorem fault?_eq_none_iff {r : Request} {q : Requirement} : q.fault? r = none ↔ q.Met r := by
  simp [fault?]

theorem fault?_eq_some_iff {r : Request} {q : Requirement} {e : SimulationError} :
    q.fault? r = some e ↔ ¬ q.Met r ∧ q.error r = e := by
  simp [fault?]

/-- Cash that is not known is none at all, and that is a finite figure. -/
theorem finite_met_iff (r : Request) (side : Side) (figure : ProfileFigure) :
    (finite side figure).Met r ↔ ((r.profile side).figure figure).isFinite = true := by
  cases figure
  case money =>
    have hzero : (0.0 : Binary64).isFinite = true := by decide
    simp only [Met, Profile.figure?, Profile.figure]
    cases (r.profile side).money <;> simp [hzero]
  all_goals simp [Met, Profile.figure?, Profile.figure]

end Requirement

/-- The units that an action can commit, in the order in which they are checked. -/
def ActionKind.units : ActionKind → List UnitType
  | .ground => [.soldiers, .tanks]
  | .air => [.aircraft]
  | .naval => [.ships]

namespace Request

open Requirement (Met fault? error)

/-- All that is asked of a request, in the order in which it is checked. -/
def requirements (r : Request) : List Requirement :=
  [.finite .attacker .money, .finite .attacker .highestCityInfra,
    .finite .attacker .highestCityPopulation, .finite .attacker .averageInfra,
    .finite .defender .money, .finite .defender .highestCityInfra,
    .finite .defender .highestCityPopulation, .finite .defender .averageInfra]
  ++ r.action.kind.units.map .held

theorem commitmentFaults_eq (r : Request) :
    r.commitmentFaults = (r.action.kind.units.map .held).filterMap (fault? r) := by
  have hcommitted : r.action.committed
      = r.action.kind.units.map fun unit => (unit, r.action.commits unit) := by
    cases r.action <;> rfl
  rw [commitmentFaults, hcommitted, List.filterMap_map, List.filterMap_map]
  congr 1
  funext unit
  by_cases hover : r.attacker.count unit < r.action.commits unit
  · simp [fault?, Met, error, hover, UInt64.not_le.mpr hover]
  · simp [fault?, Met, hover, UInt64.not_lt.mp hover]

theorem figureFaults_eq (r : Request) :
    r.figureFaults = ([Side.attacker, .defender].flatMap fun side =>
      [ProfileFigure.money, .highestCityInfra, .highestCityPopulation, .averageInfra].map
        (Requirement.finite side)).filterMap (fault? r) := by
  rw [figureFaults, List.filterMap_flatMap]
  congr 1
  funext side
  rw [List.filterMap_map]
  congr 1
  funext figure
  simp only [Function.comp_apply, fault?, Requirement.finite_met_iff, error]

/-- Faults are requirements that are not met. -/
theorem faults_eq (r : Request) : r.faults = r.requirements.filterMap (fault? r) := by
  rw [faults, figureFaults_eq, commitmentFaults_eq, requirements, List.filterMap_append]
  rfl

theorem faults_eq_nil_iff (r : Request) : r.faults = [] ↔ ∀ q ∈ r.requirements, q.Met r := by
  simp only [faults_eq, List.filterMap_eq_nil_iff, Requirement.fault?_eq_none_iff]

theorem validate_eq_error_iff {r : Request} {e : SimulationError} :
    r.validate = .error e ↔ r.faults.head? = some e := by
  rw [validate]
  cases r.faults <;> simp

/-- Requirements cover every figure of either side and every type of unit. -/
theorem requirements_met_iff (r : Request) :
    (∀ q ∈ r.requirements, q.Met r)
      ↔ (∀ side figure, ∀ x ∈ (r.profile side).figure? figure, x.isFinite = true)
        ∧ ∀ unit, r.action.commits unit ≤ r.attacker.count unit := by
  constructor
  · intro h
    refine ⟨fun side figure => ?_, fun unit => ?_⟩
    · exact h (.finite side figure) (by cases side <;> cases figure <;> simp [requirements])
    · by_cases hunit : unit ∈ r.action.kind.units
      · exact h (.held unit) (List.mem_append_right _ (List.mem_map_of_mem hunit))
      · have hnone : r.action.commits unit = 0 := by
          cases haction : r.action <;> cases unit <;>
            simp_all [Action.commits, Action.kind, ActionKind.units]
        simp [hnone]
  · rintro ⟨hfinite, hheld⟩ (⟨side, figure⟩ | unit) -
    · exact hfinite side figure
    · exact hheld unit

end Request

theorem Session.run_loadRequest {folder : Folder} {path : String} {r : Request}
    (h : folder.Holds path r) (machine : Machine) (settingsPath : Option String)
    (entropy : UInt64) (moment : Timestamp) :
    (loadRequest (Folder.station machine settingsPath entropy moment) path).run.run folder
      = ((r.validate.mapError .request).map fun _ => r, folder) := by
  have hload : Reads (load (Folder.station machine settingsPath entropy moment) path) folder
      (folder.Holds path : Request → Prop) := reads_load path
  obtain ⟨result, hrun, hresult⟩ := hload
  rw [(hresult r).mpr h] at hrun
  rw [loadRequest, ExceptT.run_bind, StateT.run_bind, hrun]
  simp only [bind]
  cases r.validate <;> rfl

/-- Validation is exact. A request is valid just if all figures that are known of either side are
finite and the attacker holds all units that the action commits; otherwise the error is that of the
first requirement that is not met. What a request says beyond these does not matter. Making a
request, planning it and loading it from a document that holds it give what they give if it is
valid, and else that very error and nothing besides. So does running it, either way, on a machine
that has the workers; and where a valid request is to be run on a pool that the machine does not
start, the error is that of the pool. -/
theorem validation_exact (r : Request) :
    (r.validate = .ok ()
      ↔ (∀ side figure, ∀ x ∈ (r.profile side).figure? figure, x.isFinite = true)
        ∧ ∀ unit, r.action.commits unit ≤ r.attacker.count unit)
    ∧ (∀ e, r.validate = .error e ↔ ∃ before q after, r.requirements = before ++ q :: after
        ∧ (∀ p ∈ before, p.Met r) ∧ ¬ q.Met r ∧ q.error r = e)
    ∧ (∀ (iterations : Int64) (seed : Option UInt64) (context : Context)
        (policy policy' : WarPolicy) (soldiers tanks aircraft ships : UInt64) (cities : UInt32),
        { r with
          iterations, seed, context
          attacker := { r.attacker with warPolicy := policy }
          defender := { r.defender with
            soldiers, tanks, aircraft, ships, cities
            warPolicy := policy' } : Request }.validate = r.validate)
    ∧ Request.make r.iterations r.seed r.attacker r.defender r.context r.action
        = r.validate.map (fun _ => r)
    ∧ (∀ prices, Plan.prepare r prices = r.validate.map fun _ => .resolve r prices)
    ∧ (∀ machine prices entropy moment, ∃ outcome,
        r.run machine .sequential prices entropy moment = r.validate.map fun _ => outcome)
    ∧ (∀ machine workers prices entropy moment,
        (machine.Serves (.batched workers) → ∃ outcome,
          r.run machine (.batched workers) prices entropy moment = r.validate.map fun _ => outcome)
        ∧ ∀ e, r.run machine (.batched workers) prices entropy moment = .error e
          ↔ r.validate = .error e
            ∨ r.validate = .ok () ∧ workers ≠ 0 ∧ ∃ reason,
              machine.startPool workers = .error reason ∧ e = .workerPool reason)
    ∧ ∀ (folder : Folder) (path : String), folder.Holds path r →
        ∀ machine settingsPath entropy moment,
        (Session.loadRequest (Folder.station machine settingsPath entropy moment) path).run.run
            folder
          = ((r.validate.mapError .request).map fun _ => r, folder) := by
  refine ⟨?_, fun e => ?_, fun _ _ _ _ _ _ _ _ _ _ => rfl, r.bind_validate r, r.prepare_eq,
    fun machine prices entropy moment =>
      r.exists_run_eq prices entropy moment machine.serves_sequential,
    fun machine workers prices entropy moment =>
      ⟨r.exists_run_eq prices entropy moment, fun e => ?_⟩,
    fun _ _ h => Session.run_loadRequest h⟩
  · rw [Request.validate_eq_ok_iff, r.faults_eq_nil_iff, r.requirements_met_iff]
  · rw [Request.validate_eq_error_iff, r.faults_eq, List.head?_filterMap,
      List.findSome?_eq_some_iff]
    simp only [Requirement.fault?_eq_some_iff, Requirement.fault?_eq_none_iff]
    constructor
    · rintro ⟨before, q, after, hlist, ⟨hunmet, herror⟩, hmet⟩
      exact ⟨before, q, after, hlist, hmet, hunmet, herror⟩
    · rintro ⟨before, q, after, hlist, hmet, hunmet, herror⟩
      exact ⟨before, q, after, hlist, ⟨hunmet, herror⟩, hmet⟩
  · simp [Request.run_eq_error_iff, Machine.engage_eq_error_iff]

/-- A document with a fleet that commits a ship too many: no way leads to a run. -/
theorem validation_exact_of_fleet :
    let text := "\x7b\"nation_attacker\":\x7b\"ships\":3\x7d,\"nation_defender\":\x7b\x7d,"
      ++ "\"action\":\x7b\"type\":\"naval\",\"attacking_ships\":4\x7d\x7d"
    let folder : Folder := { home := ["home"], entries := [⟨["home", "request"], .text text⟩] }
    let e := SimulationError.overCommitted .naval .ships 4 3
    ∃ r, folder.Holds "request" r ∧ r.validate = .error e ∧ Plan.prepare r {} = .error e
      ∧ r.run (.withRoomFor 8) (.batched 4) {} 0 default = .error e
      ∧ (Session.loadRequest (Folder.station (.withRoomFor 8) none 0 default) "request").run.run
          folder
        = (.error (.request e), folder) := by
  intro text folder e
  have hload : folder.load "request" = .ok text := by cbv
  have hdecode : (decode (.ofPath "request") text : Except DocumentError Request).toOption.map
      (·.faults) = some [e] := by decide +kernel
  obtain ⟨r, hholds, hfaults⟩ := Folder.exists_holds hload hdecode
  have hvalid : r.validate = .error e := by rw [Request.validate, hfaults]
  obtain ⟨-, -, -, -, hprepare, -, hrun, hread⟩ := validation_exact r
  obtain ⟨hserved, -⟩ := hrun (.withRoomFor 8) 4 {} 0 default
  obtain ⟨outcome, hbatched⟩ := hserved (by decide)
  refine ⟨r, hholds, hvalid, ?_, ?_, ?_⟩
  · rw [hprepare, hvalid]
    rfl
  · rw [hbatched, hvalid]
    rfl
  · rw [hread folder "request" hholds, hvalid]
    rfl

/-- A fleet whose request is valid, on a machine that has not so many workers: its batches find no
pool, and no run comes of it. -/
theorem valid_request_without_pool :
    let r : Request :=
      { iterations := 100, seed := some 7, attacker := { ships := 3 }, action := .naval 2 }
    r.validate = .ok ()
    ∧ r.run (.withRoomFor 32767) (.batched 33000) {} 0 default
      = .error (.workerPool "Resource temporarily unavailable (os error 11)") := by
  intro r
  have hvalid : r.validate = .ok () := by decide
  refine ⟨hvalid, r.run_eq_error_iff {} 0 default |>.mpr (Or.inr ⟨hvalid, ?_⟩)⟩
  decide

end BattleOdds
