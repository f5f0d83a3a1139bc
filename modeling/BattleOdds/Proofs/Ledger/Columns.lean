import BattleOdds.Ledger

/-!
# Columns of a ledger

A ledger has twenty-three columns, and a trial that is recorded puts one cell into each. The columns
are named by an index type, so that one statement is about all of them. Recording acts on every
column as a push and appending as an append; a ledger is determined by its tally and its columns. A
tally is likewise read through the count of each tier.
-/
namespace BattleOdds

namespace Tier

theorem rounds_le_three (t : Tier) : t.rounds ≤ 3 := by
  cases t <;> decide

/-- Rounds won beyond the third do not count. -/
theorem rounds_ofRounds (n : Nat) : (ofRounds n).rounds = min n 3 := by
  rcases n with _ | _ | _ | n
  case succ.succ.succ => exact (Nat.min_eq_right (Nat.le_add_left 3 n)).symm
  all_goals rfl

end Tier

namespace Tally

@[simp] theorem count_empty (t : Tier) : ({} : Tally).count t = 0 := by
  cases t <;> rfl

theorem count_add (s : Tally) (t u : Tier) :
    (s.add t).count u = s.count u + if t = u then 1 else 0 := by
  cases t <;> cases u <;> simp [add, count]

theorem count_merge (s t : Tally) (u : Tier) : (s.merge t).count u = s.count u + t.count u := by
  cases u <;> rfl

/-- A tally is determined by its counts. -/
theorem ext_count {s t : Tally} (h : ∀ u, s.count u = t.count u) : s = t := by
  cases s
  cases t
  simp only [Tally.mk.injEq]
  exact ⟨h .failure, h .pyrrhic, h .moderate, h .decisive⟩

theorem total_add (s : Tally) (t : Tier) : (s.add t).total = s.total + 1 := by
  cases t <;> simp only [add, total] <;> omega

theorem total_merge (s t : Tally) : (s.merge t).total = s.total + t.total := by
  simp only [merge, total]
  omega

theorem count_le_total (t : Tally) (u : Tier) : t.count u ≤ t.total := by
  cases u <;> simp only [count, total] <;> omega

end Tally

/-- The figures that a ledger keeps for each side. -/
inductive Figure
  | soldiers | tanks | aircraft | ships
  | gasoline | munitions | usageValue | lossesValue | totalValue
deriving DecidableEq

/-- The side that a column is about, and its figure; or a figure of the whole trial. -/
inductive Column
  | tier
  | booked (side : Side) (figure : Figure)
  | infraDestroyed | moneyLooted | moneyDestroyed | improvementChance
deriving DecidableEq

namespace Column

/-- What stands in the cells of a column. -/
def Cell : Column → Type
  | .tier => Tier
  | .booked .. | .infraDestroyed => Binary64
  | .moneyLooted | .moneyDestroyed | .improvementChance => Option Binary64

end Column

/-- What is recorded of one trial. -/
structure Entry where
  result : TrialResult
  attackerLossesValue : Binary64
  defenderLossesValue : Binary64
  attackerCosts : SideCosts
  defenderCosts : SideCosts

namespace Entry

def losses (e : Entry) : Side → UnitLosses
  | .attacker => e.result.attackerLosses
  | .defender => e.result.defenderLosses

def lossesValue (e : Entry) : Side → Binary64
  | .attacker => e.attackerLossesValue
  | .defender => e.defenderLossesValue

def costs (e : Entry) : Side → SideCosts
  | .attacker => e.attackerCosts
  | .defender => e.defenderCosts

def figure (e : Entry) (side : Side) : Figure → Binary64
  | .soldiers => (e.losses side).soldiers
  | .tanks => (e.losses side).tanks
  | .aircraft => (e.losses side).aircraft
  | .ships => (e.losses side).ships
  | .gasoline => (e.costs side).usage.gasoline
  | .munitions => (e.costs side).usage.munitions
  | .usageValue => (e.costs side).usageValue
  | .lossesValue => e.lossesValue side
  | .totalValue => (e.costs side).usageValue + e.lossesValue side

def tier (e : Entry) : Tier := .ofRounds e.result.roundsWon

/-- The cell that a trial puts into a column. -/
def cell (e : Entry) : (c : Column) → c.Cell
  | .tier => e.tier
  | .booked side figure => e.figure side figure
  | .infraDestroyed => e.result.infraDestroyed
  | .moneyLooted => e.result.moneyLooted
  | .moneyDestroyed => e.result.moneyDestroyed
  | .improvementChance => e.result.improvementChance

end Entry

namespace SideColumns

def column (s : SideColumns) : Figure → Array Binary64
  | .soldiers => s.soldiers
  | .tanks => s.tanks
  | .aircraft => s.aircraft
  | .ships => s.ships
  | .gasoline => s.gasoline
  | .munitions => s.munitions
  | .usageValue => s.usageValue
  | .lossesValue => s.lossesValue
  | .totalValue => s.totalValue

theorem column_append (s t : SideColumns) (f : Figure) :
    (s ++ t).column f = s.column f ++ t.column f := by
  cases f <;> rfl

theorem ext_column {s t : SideColumns} (h : ∀ f, s.column f = t.column f) : s = t := by
  cases s
  cases t
  simp only [SideColumns.mk.injEq]
  exact ⟨h .soldiers, h .tanks, h .aircraft, h .ships, h .gasoline, h .munitions, h .usageValue,
    h .lossesValue, h .totalValue⟩

end SideColumns

namespace Ledger

def side (l : Ledger) : Side → SideColumns
  | .attacker => l.attacker
  | .defender => l.defender

/-- A column by its name. -/
def column (l : Ledger) : (c : Column) → Array c.Cell
  | .tier => l.tiers
  | .booked side figure => (l.side side).column figure
  | .infraDestroyed => l.infraDestroyed
  | .moneyLooted => l.moneyLooted
  | .moneyDestroyed => l.moneyDestroyed
  | .improvementChance => l.improvementChance

theorem size_eq (l : Ledger) : l.size = (l.column .tier).size := rfl

/-- A ledger has nothing besides its tally and its columns. -/
theorem ext_column {l m : Ledger} (htally : l.tally = m.tally)
    (h : ∀ c, l.column c = m.column c) : l = m := by
  have hattacker : l.attacker = m.attacker :=
    SideColumns.ext_column fun f => h (.booked .attacker f)
  have hdefender : l.defender = m.defender :=
    SideColumns.ext_column fun f => h (.booked .defender f)
  cases l
  cases m
  simp only [Ledger.mk.injEq]
  exact ⟨htally, h .tier, hattacker, hdefender, h .infraDestroyed, h .moneyLooted,
    h .moneyDestroyed, h .improvementChance⟩

/-- Records a trial given as an entry. -/
def push (l : Ledger) (e : Entry) : Ledger :=
  l.record e.result e.attackerLossesValue e.defenderLossesValue e.attackerCosts e.defenderCosts

@[simp] theorem tally_push (l : Ledger) (e : Entry) : (l.push e).tally = l.tally.add e.tier := rfl

@[simp] theorem column_push (l : Ledger) (e : Entry) (c : Column) :
    (l.push e).column c = (l.column c).push (e.cell c) := by
  rcases c with _ | ⟨side, figure⟩ | _ | _ | _ | _
  case booked => cases side <;> cases figure <;> rfl
  all_goals rfl

@[simp] theorem tally_empty : empty.tally = {} := rfl

@[simp] theorem column_empty (c : Column) : empty.column c = #[] := by
  rcases c with _ | ⟨side, figure⟩ | _ | _ | _ | _
  case booked => cases side <;> cases figure <;> rfl
  all_goals rfl

/-- Room that is set aside is not part of the value of a ledger. -/
theorem withCapacity_eq_empty (n : Nat) : withCapacity n = empty := rfl

@[simp] theorem tally_append (l m : Ledger) : (l ++ m).tally = l.tally.merge m.tally := rfl

@[simp] theorem column_append (l m : Ledger) (c : Column) :
    (l ++ m).column c = l.column c ++ m.column c := by
  rcases c with _ | ⟨side, figure⟩ | _ | _ | _ | _
  case booked =>
    cases side
    · exact SideColumns.column_append l.attacker m.attacker figure
    · exact SideColumns.column_append l.defender m.defender figure
  all_goals rfl

@[simp] theorem size_push (l : Ledger) (e : Entry) : (l.push e).size = l.size + 1 := by
  simp [size_eq]

@[simp] theorem size_append (l m : Ledger) : (l ++ m).size = l.size + m.size := by
  simp [size_eq]

end Ledger

end BattleOdds
