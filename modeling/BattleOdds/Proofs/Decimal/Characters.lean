import BattleOdds.Json
import BattleOdds.Proofs.Binary64.Value

/-!
# The characters of numbers

A whole number is written in digits with a sign, and a finite figure in digits, a point, an exponent
and signs, in every style. So neither is ever the word for what is no number, and neither holds a
character that a format gives a meaning to.
-/
namespace BattleOdds

/-- The characters in which numbers are written. -/
def isNumeric (c : Char) : Bool := c.isDigit || ['.', 'e', '+', '-'].contains c

/-- A text of such characters. -/
def NumericText (s : String) : Prop := ∀ c ∈ s.toList, isNumeric c = true

namespace NumericText

theorem const {s : String} (h : s.toList.all isNumeric = true) : NumericText s :=
  List.all_eq_true.mp h

theorem append {s t : String} (hs : NumericText s) (ht : NumericText t) :
    NumericText (s ++ t) := by
  intro c hc
  rw [String.toList_append] at hc
  exact (List.mem_append.mp hc).elim (hs c) (ht c)

/-- Any part of a text of numbers is one. -/
theorem ofList {s : String} (hs : NumericText s) {cs : List Char} (h : cs ⊆ s.toList) :
    NumericText (String.ofList cs) := by
  intro c hc
  rw [String.toList_ofList] at hc
  exact hs c (h hc)

theorem natural (n : ℕ) : NumericText (toString n) := by
  intro c hc
  rw [Nat.toString_eq_ofList_toDigits, String.toList_ofList] at hc
  rw [isNumeric, Nat.isDigit_of_mem_toDigits (by decide) (by decide) hc, Bool.true_or]

theorem integer (i : ℤ) : NumericText (toString i) := by
  cases i with
  | ofNat n => exact natural n
  | negSucc n =>
    have hsign : NumericText "-" := .const (by decide)
    exact hsign.append (natural n.succ)

/-- The word for what is no number is not the text of one. -/
theorem ne_null {s : String} (hs : NumericText s) : s ≠ "null" := by
  rintro rfl
  exact absurd (hs 'n' (by decide)) (by decide)

end NumericText

namespace FigureStyle

theorem numericText_zeros (n : ℕ) : NumericText (zeros n) := by
  intro c hc
  rw [zeros, String.toList_ofList] at hc
  rw [List.eq_of_mem_replicate hc]
  decide

variable {digits : String} (hdigits : NumericText digits)
include hdigits

/-- A point between the digits leaves a text of numbers. -/
theorem numericText_pointed (n : ℕ) :
    NumericText
      (String.ofList (digits.toList.take n) ++ "." ++ String.ofList (digits.toList.drop n)) := by
  have hpoint : NumericText "." := .const (by decide)
  exact ((hdigits.ofList (List.take_subset _ _)).append hpoint).append
    (hdigits.ofList (List.drop_subset _ _))

theorem numericText_positional (leading : ℤ) : NumericText (positional digits leading) := by
  have hstart : NumericText "0." := .const (by decide)
  have hend : NumericText ".0" := .const (by decide)
  unfold positional
  dsimp only
  split_ifs with hneg hlong
  · exact (hstart.append (numericText_zeros _)).append hdigits
  · exact (hdigits.append (numericText_zeros _)).append hend
  · exact numericText_pointed hdigits _

theorem numericText_scientific (style : FigureStyle) (leading : ℤ) :
    NumericText (style.scientific digits leading) := by
  have hletter : NumericText "e" := .const (by decide)
  unfold scientific
  dsimp only
  refine NumericText.append (.append (.append ?mantissa hletter) ?sign) (.natural _)
  case mantissa =>
    split_ifs
    · exact hdigits
    · exact numericText_pointed hdigits 1
  case sign => split_ifs <;> exact .const (by decide)

omit hdigits in
theorem numericText_magnitudeText (style : FigureStyle) (x : Binary64) :
    NumericText (style.magnitudeText x) := by
  have hdigits : NumericText (Decimal.shortest x).digits := .natural _
  unfold magnitudeText
  dsimp only
  split_ifs with hzero hrange
  · exact .const (by decide)
  · exact numericText_positional hdigits _
  · exact numericText_scientific hdigits style _

omit hdigits in
/-- Every style writes a finite figure as a number. -/
theorem numericText_text (style : FigureStyle) {x : Binary64} (h : x.isFinite = true) :
    NumericText (style.text x) := by
  rw [text, Binary64.isNaN_of_isFinite h, if_neg Bool.false_ne_true, if_pos h]
  refine .append ?_ (style.numericText_magnitudeText x)
  split_ifs <;> exact .const (by decide)

end FigureStyle

end BattleOdds
