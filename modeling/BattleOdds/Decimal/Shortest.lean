import BattleOdds.Binary64

/-!
# Shortest decimals

A finite positive figure is written with the fewest digits that read back as the same figure; of two
decimals with that many digits, the nearer one is taken, and the even one on a tie.

The figure and the ends of the interval of reals that round to it are first expressed in a power of
ten that gives the figure 18 digits. A decimal with fewer digits is a whole multiple of that unit,
so whether it lies in the interval is a comparison of natural numbers.
-/
namespace BattleOdds

/-- The number `coefficient * 10 ^ exponent`. -/
structure Decimal where
  coefficient : Nat
  exponent : Int
deriving DecidableEq, Repr

namespace Decimal

/-- Moves trailing zeros of the coefficient into the exponent. -/
def strip (d : Decimal) : Nat → Decimal
  | 0 => d
  | n + 1 =>
    if d.coefficient % 10 = 0 then strip ⟨d.coefficient / 10, d.exponent + 1⟩ n else d

/-- The digits of the coefficient. -/
def digits (d : Decimal) : String := toString d.coefficient

/-- The exponent of the first digit. -/
def leading (d : Decimal) : Int := d.exponent + (d.digits.length - 1 : Nat)

end Decimal

/-- A positive figure in units of a power of ten: the whole units in it, and the least and the
greatest whole number of units that round to it. -/
structure Measured where
  unit : Int
  whole : Nat
  /-- Whether nothing is left beside the whole units. -/
  exact : Bool
  low : Nat
  high : Nat

namespace Measured

/-- The quotient of `n * 2 ^ twos * 10 ^ tens` as a numerator and a denominator. -/
def ratio (twos tens : Int) : Nat × Nat :=
  let up (base : Nat) (e : Int) : Nat := base.pow e.toNat
  (up 2 twos * up 10 tens, up 2 (-twos) * up 10 (-tens))

/-- A figure in units of `10 ^ unit`. The reals that round to it reach half way to its neighbours,
which below a power of two are half as far; both ends belong to them when the significand is even.
-/
def ofFigure (x : Binary64) (unit : Int) : Measured :=
  let m := x.significand
  let below := if x.fraction = 0 ∧ 1 < x.exponentField then 1 else 2
  let (num, den) := ratio (x.exponent - 2) (-unit)
  let value := 4 * m * num
  let low := (4 * m - below) * num
  let high := (4 * m + 2) * num
  let even := m % 2 = 0
  { unit
    whole := value / den
    exact := value % den = 0
    low := if low % den = 0 ∧ even then low / den else low / den + 1
    high := if high % den = 0 ∧ ¬even then high / den - 1 else high / den }

/-- The exponent of the first decimal digit, or one beside it: `log10 2` is about 30103 / 100000. -/
def estimate (x : Binary64) : Int := (x.significand.log2 + x.exponent) * 30103 / 100000

/-- A figure in the unit that gives it 18 digits. -/
def withDigits (x : Binary64) : Measured :=
  let unit := estimate x - 17
  let measured := ofFigure x unit
  if Nat.pow 10 18 ≤ measured.whole then ofFigure x (unit + 1)
  else if measured.whole < Nat.pow 10 17 then ofFigure x (unit - 1)
  else measured

/-- Whether a number of units rounds to the figure. -/
def covers (m : Measured) (units : Nat) : Bool := m.low ≤ units && units ≤ m.high

/-- The decimal nearest to the figure among those with `dropped` digits less than 18 that round to
it, if there is one. -/
def candidate? (m : Measured) (dropped : Nat) : Option Decimal :=
  let step := Nat.pow 10 dropped
  let below := m.whole / step
  let rest := m.whole % step
  let take (c : Nat) : Option Decimal := some ⟨c, m.unit + dropped⟩
  match m.covers (below * step), m.covers ((below + 1) * step) with
  | false, false => none
  | true, false => take below
  | false, true => take (below + 1)
  | true, true =>
    if 2 * rest < step then take below
    else if step < 2 * rest ∨ ¬m.exact then take (below + 1)
    else if below % 2 = 0 then take below
    else take (below + 1)

/-- Searches from the fewest digits on. -/
def search (m : Measured) : Nat → Decimal
  | 0 => ⟨m.whole, m.unit⟩
  | dropped + 1 => (m.candidate? (dropped + 1)).getD (m.search dropped)

end Measured

/-- The shortest decimal of a finite positive figure. -/
def Decimal.shortest (x : Binary64) : Decimal :=
  ((Measured.withDigits x).search 17).strip 18

end BattleOdds
