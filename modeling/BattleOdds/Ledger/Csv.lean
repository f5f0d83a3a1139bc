import BattleOdds.Decimal.Style
import BattleOdds.Ledger

/-!
# Ledgers as CSV

A ledger is exported with one line for each trial, after a line of column names. A cell is blank
where the figure is absent. No cell holds a comma, a quote or a line break, so nothing is quoted. An
empty ledger has an empty text.
-/
namespace BattleOdds.Ledger

/-- The names of the columns. -/
def csvColumns : List String :=
  ["trial", "tier", "attacker_soldiers", "attacker_tanks", "attacker_aircraft", "attacker_ships",
    "defender_soldiers", "defender_tanks", "defender_aircraft", "defender_ships",
    "infra_destroyed", "money_looted", "improvement_destroy_chance", "attacker_total_value",
    "defender_total_value"]

def csvFigure (x : Binary64) : String := FigureStyle.csv.text x

/-- The cell of an optional figure. -/
def csvOptional : Option Binary64 → String
  | some x => csvFigure x
  | none => ""

/-- The cells of a trial by its index. There are none if a column does not reach that far. -/
def csvCells? (l : Ledger) (i : Nat) : Option (List String) := do
  let tier ← l.tiers[i]?
  let attackerSoldiers ← l.attacker.soldiers[i]?
  let attackerTanks ← l.attacker.tanks[i]?
  let attackerAircraft ← l.attacker.aircraft[i]?
  let attackerShips ← l.attacker.ships[i]?
  let defenderSoldiers ← l.defender.soldiers[i]?
  let defenderTanks ← l.defender.tanks[i]?
  let defenderAircraft ← l.defender.aircraft[i]?
  let defenderShips ← l.defender.ships[i]?
  let infraDestroyed ← l.infraDestroyed[i]?
  let moneyLooted ← l.moneyLooted[i]?
  let improvementChance ← l.improvementChance[i]?
  let attackerTotal ← l.attacker.totalValue[i]?
  let defenderTotal ← l.defender.totalValue[i]?
  return [toString i, toString tier.rounds, csvFigure attackerSoldiers, csvFigure attackerTanks,
    csvFigure attackerAircraft, csvFigure attackerShips, csvFigure defenderSoldiers,
    csvFigure defenderTanks, csvFigure defenderAircraft, csvFigure defenderShips,
    csvFigure infraDestroyed, csvOptional moneyLooted, csvOptional improvementChance,
    csvFigure attackerTotal, csvFigure defenderTotal]

/-- A line of cells. -/
def csvLine (cells : List String) : String := String.intercalate "," cells ++ "\n"

/-- The cells of all trials, if all columns have as many cells as there are tiers. -/
def csvRows? (l : Ledger) : Option (List (List String)) := (List.range l.size).mapM l.csvCells?

/-- The text of a ledger. A ledger that `record` and `append` have made has all its rows. -/
def csv (l : Ledger) : String :=
  match l.csvRows? with
  | none | some [] => ""
  | some rows => String.join (csvLine csvColumns :: rows.map csvLine)

end BattleOdds.Ledger
