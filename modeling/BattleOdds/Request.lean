import BattleOdds.Binary64
import BattleOdds.Tag

/-!
# Requests

A request names two nations, the circumstances of their war and one action of the attacker, and asks
for the odds of that action over a number of trials. `Request.faults` lists what is wrong with a
request, in the order in which it is reported; `Request.validate` passes exactly when it is empty.
-/
namespace BattleOdds

/-- The two nations of a war. -/
inductive Side
  | attacker | defender
deriving DecidableEq

def Side.name : Side → String
  | .attacker => "attacker"
  | .defender => "defender"

/-- The four types of unit. -/
inductive UnitType
  | soldiers | tanks | aircraft | ships
deriving DecidableEq

def UnitType.name : UnitType → String
  | .soldiers => "soldiers"
  | .tanks => "tanks"
  | .aircraft => "aircraft"
  | .ships => "ships"

/-- The figures of a profile that must be numbers. -/
inductive ProfileFigure
  | money | highestCityInfra | highestCityPopulation | averageInfra
deriving DecidableEq

def ProfileFigure.name : ProfileFigure → String
  | .money => "money"
  | .highestCityInfra => "highest_city_infra"
  | .highestCityPopulation => "highest_city_population"
  | .averageInfra => "avg_infra"

/-- What is known of a nation. -/
structure Profile where
  soldiers : UInt64 := 0
  tanks : UInt64 := 0
  aircraft : UInt64 := 0
  ships : UInt64 := 0
  /-- For information: the policy that takes effect is the one of the `Context`. -/
  warPolicy : WarPolicy := .none
  isFortified : Bool := false
  /-- The cash on hand, where it is known. -/
  money : Option Binary64 := none
  cities : UInt32 := 0
  highestCityInfra : Binary64 := 0.0
  highestCityPopulation : Binary64 := 0.0
  averageInfra : Binary64 := 0.0
deriving DecidableEq, Inhabited

namespace Profile

/-- The number of units of a type that the nation holds. -/
def count (p : Profile) : UnitType → UInt64
  | .soldiers => p.soldiers
  | .tanks => p.tanks
  | .aircraft => p.aircraft
  | .ships => p.ships

/-- A figure of the profile; unknown cash counts as none. -/
def figure (p : Profile) : ProfileFigure → Binary64
  | .money => p.money.getD 0.0
  | .highestCityInfra => p.highestCityInfra
  | .highestCityPopulation => p.highestCityPopulation
  | .averageInfra => p.averageInfra

end Profile

/-- The circumstances of a war. -/
structure Context where
  warType : WarType := .ordinary
  attackerPolicy : WarPolicy := .none
  defenderPolicy : WarPolicy := .none
  airSuperiority : Holder := .none
  groundControl : Holder := .none
  navalBlockade : Holder := .none
  attackerBlitz : Bool := false
  defenderBlitz : Bool := false
deriving DecidableEq, Inhabited

/-- The attacker's action. -/
inductive Action
  | ground (soldiers tanks : UInt64) (armed : Bool)
  | air (aircraft : UInt64) (target : AirTarget)
  | naval (ships : UInt64)
deriving DecidableEq, Inhabited

namespace Action

def kind : Action → ActionKind
  | .ground .. => .ground
  | .air .. => .air
  | .naval .. => .naval

/-- The units that the action commits, in the order in which they are checked. -/
def committed : Action → List (UnitType × UInt64)
  | .ground soldiers tanks _ => [(.soldiers, soldiers), (.tanks, tanks)]
  | .air aircraft _ => [(.aircraft, aircraft)]
  | .naval ships => [(.ships, ships)]

end Action

/-- Why a request cannot be run. The first two are faults of the request. -/
inductive SimulationError
  | notFinite (side : Side) (figure : ProfileFigure)
  | overCommitted (kind : ActionKind) (unit : UnitType) (committed held : UInt64)
  /-- There are no workers for the run, for a reason in the words of the machine. -/
  | workerPool (reason : String)
deriving DecidableEq

def SimulationError.message : SimulationError → String
  | .notFinite side figure =>
    "invalid " ++ side.name ++ " profile: " ++ figure.name ++ " is not a finite number"
  | .overCommitted kind unit committed held =>
    "invalid action: " ++ kind.title ++ " action commits " ++ toString committed.toNat ++ " "
      ++ unit.name ++ " but attacker holds " ++ toString held.toNat
  | .workerPool reason => "worker pool error: " ++ reason

/-- A question for the odds of one action. -/
structure Request where
  /-- The trials asked for; `trials` brings the number into range. -/
  iterations : Int64 := 1000
  /-- The seed of the draws. Without one the run takes its seed from outside. -/
  seed : Option UInt64 := none
  attacker : Profile := {}
  defender : Profile := {}
  context : Context := {}
  action : Action
deriving DecidableEq, Inhabited

/-- A run has at least 100 and at most 20000 trials. -/
def clampIterations (requested : Int64) : Nat :=
  (max 100 (min 20000 requested.toInt)).toNat

namespace Request

/-- The number of trials of a run of this request. -/
def trials (r : Request) : Nat := clampIterations r.iterations

def profile (r : Request) : Side → Profile
  | .attacker => r.attacker
  | .defender => r.defender

/-- The policy that takes effect for a side. -/
def policy (r : Request) : Side → WarPolicy
  | .attacker => r.context.attackerPolicy
  | .defender => r.context.defenderPolicy

/-- The figures that are not finite, the attacker's first. -/
def figureFaults (r : Request) : List SimulationError :=
  [Side.attacker, .defender].flatMap fun side =>
    [ProfileFigure.money, .highestCityInfra, .highestCityPopulation, .averageInfra].filterMap
      fun figure =>
        if ((r.profile side).figure figure).isFinite then none else some (.notFinite side figure)

/-- The units of which the action commits more than the attacker holds. -/
def commitmentFaults (r : Request) : List SimulationError :=
  r.action.committed.filterMap fun (unit, committed) =>
    let held := r.attacker.count unit
    if held < committed then some (.overCommitted r.action.kind unit committed held) else none

/-- All that is wrong with the request, in the order in which it is reported. -/
def faults (r : Request) : List SimulationError := r.figureFaults ++ r.commitmentFaults

/-- Passes a request without faults; otherwise the first fault is the error. -/
def validate (r : Request) : Except SimulationError Unit :=
  match r.faults with
  | [] => .ok ()
  | fault :: _ => .error fault

/-- Builds a request, which must be valid. -/
def make (iterations : Int64) (seed : Option UInt64) (attacker defender : Profile)
    (context : Context) (action : Action) : Except SimulationError Request := do
  let r : Request := { iterations, seed, attacker, defender, context, action }
  r.validate
  return r

/-- The sides whose profile names a policy other than the one that takes effect. -/
def policyMismatches (r : Request) : List Side :=
  [Side.attacker, .defender].filter fun side =>
    let named := (r.profile side).warPolicy
    named ≠ .none && named ≠ r.policy side

end Request

end BattleOdds
