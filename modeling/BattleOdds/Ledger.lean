import BattleOdds.Valuation

/-!
# Ledgers

A ledger holds the figures of the trials of a run in order, one column for each figure, and a tally
of their tiers. It grows by `record` and `append` only, which treat all columns alike, so row `i` of
the columns is the `i`-th trial.
-/
namespace BattleOdds

/-- The outcome of a trial by the number of rounds won. -/
inductive Tier
  | failure | pyrrhic | moderate | decisive
deriving DecidableEq, Inhabited

namespace Tier

/-- Three won rounds and more are decisive. -/
def ofRounds : Nat → Tier
  | 0 => .failure
  | 1 => .pyrrhic
  | 2 => .moderate
  | _ => .decisive

def rounds : Tier → Nat
  | .failure => 0
  | .pyrrhic => 1
  | .moderate => 2
  | .decisive => 3

end Tier

/-- How many trials ended in each tier. -/
structure Tally where
  failure : Nat := 0
  pyrrhic : Nat := 0
  moderate : Nat := 0
  decisive : Nat := 0
deriving DecidableEq, Inhabited

namespace Tally

def count (t : Tally) : Tier → Nat
  | .failure => t.failure
  | .pyrrhic => t.pyrrhic
  | .moderate => t.moderate
  | .decisive => t.decisive

/-- Counts one more trial. -/
def add (t : Tally) : Tier → Tally
  | .failure => { t with failure := t.failure + 1 }
  | .pyrrhic => { t with pyrrhic := t.pyrrhic + 1 }
  | .moderate => { t with moderate := t.moderate + 1 }
  | .decisive => { t with decisive := t.decisive + 1 }

/-- Counts two sets of trials together. -/
def merge (s t : Tally) : Tally where
  failure := s.failure + t.failure
  pyrrhic := s.pyrrhic + t.pyrrhic
  moderate := s.moderate + t.moderate
  decisive := s.decisive + t.decisive

def total (t : Tally) : Nat := t.failure + t.pyrrhic + t.moderate + t.decisive

/-- The counts by the number of rounds won. -/
def toList (t : Tally) : List Nat := [t.failure, t.pyrrhic, t.moderate, t.decisive]

end Tally

/-- What one side lost and used up in each trial of a run, one column for each figure. -/
structure SideColumns where
  soldiers : Array Binary64 := #[]
  tanks : Array Binary64 := #[]
  aircraft : Array Binary64 := #[]
  ships : Array Binary64 := #[]
  gasoline : Array Binary64 := #[]
  munitions : Array Binary64 := #[]
  usageValue : Array Binary64 := #[]
  lossesValue : Array Binary64 := #[]
  totalValue : Array Binary64 := #[]
deriving DecidableEq, Inhabited

namespace SideColumns

/-- Empty columns with room for a number of trials. -/
def withCapacity (n : Nat) : SideColumns where
  soldiers := Array.emptyWithCapacity n
  tanks := Array.emptyWithCapacity n
  aircraft := Array.emptyWithCapacity n
  ships := Array.emptyWithCapacity n
  gasoline := Array.emptyWithCapacity n
  munitions := Array.emptyWithCapacity n
  usageValue := Array.emptyWithCapacity n
  lossesValue := Array.emptyWithCapacity n
  totalValue := Array.emptyWithCapacity n

/-- Adds one trial at the end of every column. -/
def record (c : SideColumns) (losses : UnitLosses) (usage : Consumption)
    (usageValue lossesValue : Binary64) : SideColumns where
  soldiers := c.soldiers.push losses.soldiers
  tanks := c.tanks.push losses.tanks
  aircraft := c.aircraft.push losses.aircraft
  ships := c.ships.push losses.ships
  gasoline := c.gasoline.push usage.gasoline
  munitions := c.munitions.push usage.munitions
  usageValue := c.usageValue.push usageValue
  lossesValue := c.lossesValue.push lossesValue
  totalValue := c.totalValue.push (usageValue + lossesValue)

/-- Adds the trials of other columns after those of these. -/
def append (c other : SideColumns) : SideColumns where
  soldiers := c.soldiers ++ other.soldiers
  tanks := c.tanks ++ other.tanks
  aircraft := c.aircraft ++ other.aircraft
  ships := c.ships ++ other.ships
  gasoline := c.gasoline ++ other.gasoline
  munitions := c.munitions ++ other.munitions
  usageValue := c.usageValue ++ other.usageValue
  lossesValue := c.lossesValue ++ other.lossesValue
  totalValue := c.totalValue ++ other.totalValue

instance : Append SideColumns := ⟨append⟩

end SideColumns

/-- The trials of a run, in order: one column for each figure, and a tally of the tiers. -/
structure Ledger where
  tally : Tally := {}
  tiers : Array Tier := #[]
  attacker : SideColumns := {}
  defender : SideColumns := {}
  infraDestroyed : Array Binary64 := #[]
  moneyLooted : Array (Option Binary64) := #[]
  moneyDestroyed : Array (Option Binary64) := #[]
  improvementChance : Array (Option Binary64) := #[]
deriving DecidableEq, Inhabited

namespace Ledger

def empty : Ledger := {}

/-- An empty ledger with room for a number of trials. -/
def withCapacity (n : Nat) : Ledger where
  tiers := Array.emptyWithCapacity n
  attacker := .withCapacity n
  defender := .withCapacity n
  infraDestroyed := Array.emptyWithCapacity n
  moneyLooted := Array.emptyWithCapacity n
  moneyDestroyed := Array.emptyWithCapacity n
  improvementChance := Array.emptyWithCapacity n

def size (l : Ledger) : Nat := l.tiers.size

def isEmpty (l : Ledger) : Bool := l.tiers.isEmpty

/-- Adds a trial at the end. -/
def record (l : Ledger) (result : TrialResult) (attackerLossesValue defenderLossesValue : Binary64)
    (attackerCosts defenderCosts : SideCosts) : Ledger :=
  let tier := Tier.ofRounds result.roundsWon
  { tally := l.tally.add tier
    tiers := l.tiers.push tier
    attacker := l.attacker.record result.attackerLosses attackerCosts.usage
      attackerCosts.usageValue attackerLossesValue
    defender := l.defender.record result.defenderLosses defenderCosts.usage
      defenderCosts.usageValue defenderLossesValue
    infraDestroyed := l.infraDestroyed.push result.infraDestroyed
    moneyLooted := l.moneyLooted.push result.moneyLooted
    moneyDestroyed := l.moneyDestroyed.push result.moneyDestroyed
    improvementChance := l.improvementChance.push result.improvementChance }

/-- Adds the trials of another ledger after those of this one. -/
def append (l other : Ledger) : Ledger where
  tally := l.tally.merge other.tally
  tiers := l.tiers ++ other.tiers
  attacker := l.attacker ++ other.attacker
  defender := l.defender ++ other.defender
  infraDestroyed := l.infraDestroyed ++ other.infraDestroyed
  moneyLooted := l.moneyLooted ++ other.moneyLooted
  moneyDestroyed := l.moneyDestroyed ++ other.moneyDestroyed
  improvementChance := l.improvementChance ++ other.improvementChance

instance : Append Ledger := ⟨append⟩

end Ledger

end BattleOdds
