import BattleOdds.Json
import BattleOdds.Run

/-!
# Requests and settings as documents

The JSON value of everything that a document can hold, with the members in the order in which a
document without member names lists them.
-/
namespace BattleOdds

open Json

def Profile.toJson (p : Profile) : Json :=
  .record
    [("soldiers", whole p.soldiers), ("tanks", whole p.tanks), ("aircraft", whole p.aircraft),
      ("ships", whole p.ships), ("war_policy", tag p.warPolicy),
      ("is_fortified", .bool p.isFortified), ("money", optional .figure p.money),
      ("cities", .integer p.cities.toNat), ("highest_city_infra", .figure p.highestCityInfra),
      ("highest_city_population", .figure p.highestCityPopulation),
      ("avg_infra", .figure p.averageInfra)]

def Context.toJson (c : Context) : Json :=
  .record
    [("war_type", tag c.warType), ("attacker_policy", tag c.attackerPolicy),
      ("defender_policy", tag c.defenderPolicy), ("air_superiority", tag c.airSuperiority),
      ("ground_control", tag c.groundControl), ("naval_blockade", tag c.navalBlockade),
      ("attacker_blitz", .bool c.attackerBlitz), ("defender_blitz", .bool c.defenderBlitz)]

def Action.toJson (action : Action) : Json :=
  let kind := ("type", tag action.kind)
  match action with
  | .ground soldiers tanks armed =>
    .record [kind, ("attacking_soldiers", whole soldiers), ("attacking_tanks", whole tanks),
      ("arm_soldiers_with_munitions", .bool armed)]
  | .air aircraft target =>
    .record [kind, ("attacking_aircraft", whole aircraft), ("target", tag target)]
  | .naval ships => .record [kind, ("attacking_ships", whole ships)]

def Request.toJson (r : Request) : Json :=
  .record
    [("iterations", .integer r.iterations.toInt), ("seed", optional whole r.seed),
      ("nation_attacker", r.attacker.toJson), ("nation_defender", r.defender.toJson),
      ("context", r.context.toJson), ("action", r.action.toJson)]

def Prices.toJson (p : Prices) : Json :=
  .record
    [("gasoline", .figure p.gasoline), ("munitions", .figure p.munitions),
      ("steel", .figure p.steel), ("aluminum", .figure p.aluminum)]

def Settings.toJson (s : Settings) : Json :=
  .record
    [("prices", s.prices.toJson), ("parallel", .bool s.parallel), ("workers", whole s.workers)]

end BattleOdds
