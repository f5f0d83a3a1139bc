import BattleOdds.Decimal.Shortest

/-!
# The text of figures

A figure is written with its shortest decimal: positionally where the exponent of its first digit
lies within limits, with at least one digit after the point, and else with an exponent. Formats
differ in the sign of positive exponents and in the texts of what is no number.
-/
namespace BattleOdds

/-- How a format writes figures. -/
structure FigureStyle where
  /-- The exponents of the first digit for which a figure is written positionally. -/
  positionalFrom : Int := -5
  positionalTo : Int := 15
  /-- Whether a positive exponent carries a plus sign. -/
  plusSign : Bool
  notANumber : String
  infinite : String
  negativeInfinite : String

namespace FigureStyle

/-- JSON has no word for what is no number. -/
def json : FigureStyle where
  plusSign := true
  notANumber := "null"
  infinite := "null"
  negativeInfinite := "null"

def csv : FigureStyle where
  plusSign := false
  notANumber := "NaN"
  infinite := "inf"
  negativeInfinite := "-inf"

/-- A number of zeros. -/
def zeros (n : Nat) : String := String.ofList (List.replicate n '0')

/-- Digits with a point after the first `n`, filled up with zeros on either side. -/
def positional (digits : String) (leading : Int) : String :=
  if leading < 0 then "0." ++ zeros (-leading - 1).toNat ++ digits
  else
    let whole := leading.toNat + 1
    let cs := digits.toList
    if cs.length ≤ whole then digits ++ zeros (whole - cs.length) ++ ".0"
    else String.ofList (cs.take whole) ++ "." ++ String.ofList (cs.drop whole)

/-- Digits with a point after the first, and an exponent. -/
def scientific (style : FigureStyle) (digits : String) (leading : Int) : String :=
  let cs := digits.toList
  let mantissa :=
    if cs.length ≤ 1 then digits
    else String.ofList (cs.take 1) ++ "." ++ String.ofList (cs.drop 1)
  let sign := if leading < 0 then "-" else if style.plusSign then "+" else ""
  mantissa ++ "e" ++ sign ++ toString leading.natAbs

/-- The text of a finite figure without its sign. -/
def magnitudeText (style : FigureStyle) (x : Binary64) : String :=
  if x.isZero then "0.0"
  else
    let decimal := Decimal.shortest x
    if style.positionalFrom ≤ decimal.leading ∧ decimal.leading ≤ style.positionalTo then
      positional decimal.digits decimal.leading
    else style.scientific decimal.digits decimal.leading

/-- The text of a figure. -/
def text (style : FigureStyle) (x : Binary64) : String :=
  if x.isNaN then style.notANumber
  else if x.isFinite then
    (if x.isNegative then "-" else "") ++ style.magnitudeText x
  else if x.isNegative then style.negativeInfinite
  else style.infinite

end FigureStyle

end BattleOdds
