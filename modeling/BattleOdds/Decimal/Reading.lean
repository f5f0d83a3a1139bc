import BattleOdds.Decimal.Shortest
import BattleOdds.Whole

/-!
# Reading decimals

Two rules turn the digits of a number into a figure. `Decimal.nearest` takes the figure nearest to
the number. `Numeral.stepwise?` collects digits in a whole number of 64 bits as long as they fit,
and then multiplies or divides once by a power of ten; it can miss the nearest figure by a little.
-/
namespace BattleOdds

/-- The value of a list of decimal digits. -/
def digitsValue (digits : List Nat) : Nat := digits.foldl (fun n d => 10 * n + d) 0

/-- The figure nearest to a decimal, ties to even; beyond the range an infinity or zero. -/
def Decimal.nearest (d : Decimal) : Binary64 :=
  if d.coefficient = 0 then 0.0
  else if 400 < d.leading then .infinity
  else if d.leading < -400 then 0.0
  else OfScientific.ofScientific d.coefficient (d.exponent < 0) d.exponent.natAbs

/-- The digits of a number before and after the point, and its exponent. -/
structure Numeral where
  whole : List Nat
  fraction : List Nat
  exponent : Int
deriving DecidableEq

namespace Numeral

/-- The decimal that the numeral names. -/
def decimal (n : Numeral) : Decimal :=
  ⟨digitsValue (n.whole ++ n.fraction), n.exponent - n.fraction.length⟩

/-- The greatest whole number in which digits are collected. -/
def limit : Nat := wordCount 64 - 1

/-- Appends digits to a number until one does not fit. Gives the number and the digits taken. -/
def absorb (value : Nat) : List Nat → Nat × Nat
  | [] => (value, 0)
  | d :: digits =>
    if limit < 10 * value + d then (value, 0)
    else
      let (value, taken) := absorb (10 * value + d) digits
      (value, taken + 1)

/-- A power of ten, at most `10 ^ 308`. -/
def power (e : Nat) : Binary64 := OfScientific.ofScientific 1 false e

/-- Divides by a power of ten, in steps where the power is out of range. -/
def divide (x : Binary64) (e : Nat) : Binary64 :=
  if e ≤ 308 then x / power e
  else if x.isZero then x
  else divide (x / power 308) (e - 308)
termination_by e

/-- A figure times a power of ten, if that is not out of range. -/
def scale? (x : Binary64) : Int → Option Binary64
  | .ofNat e =>
    if e ≤ 308 then
      let product := x * power e
      if product.isFinite then some product else none
    else if x.isZero then some x
    else none
  | .negSucc e => some (divide x (e + 1))

/-- The figure that a numeral is read as, if it is not out of range. Digits before the point that no
longer fit count for the exponent; digits after the point that no longer fit are passed over. -/
def stepwise? (n : Numeral) : Option Binary64 :=
  let (whole, wholeTaken) := absorb 0 n.whole
  let (value, fractionTaken) := absorb whole n.fraction
  let dropped := n.whole.length - wholeTaken
  scale? (.ofNat value) (n.exponent + dropped - fractionTaken)

end Numeral

end BattleOdds
