import BattleOdds.Document.Plain
import BattleOdds.Document.YamlText.Cursor

/-!
# Block scalars

A block scalar has its text on lines of its own, below its header, and ends where the indentation
does. Its lines stand as they are, or a break between two of them is folded into a space. Whether
the breaks at its end belong to it is said in the header.
-/
namespace BattleOdds.YamlText

/-- What becomes of the breaks after the last line. -/
inductive Ending
  | strip
  /-- The first one stays. -/
  | clip
  | keep
deriving DecidableEq

/-- A line with text, and what follows it. -/
structure BlockLine where
  text : List Char
  /-- The break that ends it; there is none at the end of a document. -/
  ended : List Char
  /-- The breaks of the empty lines that follow. -/
  gap : List Char

namespace BlockLine

/-- Whether a line is indented further than the scalar. Such lines are not folded. -/
def isInset (line : BlockLine) : Bool := line.text.head?.any isBlank

/-- What stands between two lines. -/
def between (folded : Bool) (line next : BlockLine) : List Char :=
  if folded && line.ended = ['\n'] && !line.isInset && !next.isInset then
    if line.gap.isEmpty then [' '] else line.gap
  else line.ended ++ line.gap

/-- What stands after the last line. -/
def after (ending : Ending) (line : BlockLine) : List Char :=
  match ending with
  | .strip => []
  | .clip => line.ended
  | .keep => line.ended ++ line.gap

/-- The text of lines. -/
def join (folded : Bool) (ending : Ending) : List BlockLine → List Char
  | [] => []
  | [line] => line.text ++ line.after ending
  | line :: next :: lines =>
    line.text ++ line.between folded next ++ join folded ending (next :: lines)

end BlockLine

/-! ## Headers -/

/-- What is left at the end of a line, if nothing but blanks and a comment comes before it. -/
def lineEnd? (cs : List Char) : Option (List Char) :=
  let cs := cs.dropWhile isBlank
  let cs := if cs.head? = some '#' then cs.dropWhile (!isBreak ·) else cs
  if cs.head?.all isBreak then some cs else none

/-- Reads what becomes of the last breaks. -/
def takeEnding : List Char → Ending × List Char
  | '-' :: cs => (.strip, cs)
  | '+' :: cs => (.keep, cs)
  | cs => (.clip, cs)

/-- Reads by how much the lines are indented, if that is said. -/
def takeInset? : List Char → Option (Option Nat × List Char)
  | [] => some (none, [])
  | c :: cs =>
    match Plain.digit? c with
    | some 0 => none
    | some n => some (some n, cs)
    | none => some (none, c :: cs)

/-- Reads a header up to the end of its line. Its two parts may come in any order. -/
def blockHeader? (cs : List Char) : Option (Ending × Option Nat × List Char) := do
  let (early, cs) := takeEnding cs
  let (inset, cs) ← takeInset? cs
  let (ending, cs) := if early = .clip then takeEnding cs else (early, cs)
  let cs ← lineEnd? cs
  return (ending, inset, cs)

/-! ## Lines -/

/-- Lines without text, up to where text begins. -/
structure EmptyLines where
  breaks : List Char
  /-- The most columns that the lines, and the one that begins, are indented by. -/
  width : Nat
  /-- The column at which text begins. -/
  column : Nat
  rest : List Char

/-- Reads lines without text. Lines may be shorter than `indent`, and if that is not known yet, all
spaces count as indentation. -/
def emptyLines? (indent : Option Nat) : (column width : Nat) → List Char → Option EmptyLines
  | column, width, [] => some ⟨[], max width column, column, []⟩
  | column, width, c :: cs =>
    let short : Bool := indent.all (column < ·)
    if short && c = ' ' then emptyLines? indent (column + 1) width cs
    else if short && c = '\t' then none
    else if isBreak c then
      (fun lines => { lines with breaks := c :: lines.breaks })
        <$> emptyLines? indent 0 (max width column) cs
    else some ⟨[], max width column, column, c :: cs⟩

theorem length_rest_emptyLines_le {indent : Option Nat} {column width : Nat} {cs : List Char}
    {lines : EmptyLines} (h : emptyLines? indent column width cs = some lines) :
    lines.rest.length ≤ cs.length := by
  induction cs generalizing column width lines with
  | nil =>
    simp only [emptyLines?, Option.some.injEq] at h
    subst h
    exact Nat.le_refl _
  | cons c cs ih =>
    simp only [emptyLines?] at h
    split at h
    · exact Nat.le_succ_of_le (ih h)
    · split at h
      · exact absurd h (by simp)
      · split at h
        · obtain ⟨inner, hinner, rfl⟩ := Option.map_eq_some_iff.mp h
          have : inner.rest.length ≤ cs.length := ih hinner
          exact Nat.le_succ_of_le this
        · simp only [Option.some.injEq] at h
          subst h
          exact Nat.le_refl _

theorem length_lt_of_dropWhile {p : Char → Bool} {b : Char} {cs rest : List Char}
    (h : cs.dropWhile p = b :: rest) : rest.length < cs.length := by
  have := (List.dropWhile_suffix p (l := cs)).length_le
  rw [h, List.length_cons] at this
  exact this

/-- Reads the lines with text, of which the first begins here. -/
def blockLines? (indent : Nat) (cs : List Char) : Option (List BlockLine × List Char) :=
  let text := cs.takeWhile (!isBreak ·)
  match hrest : cs.dropWhile (!isBreak ·) with
  | [] => some ([⟨text, [], []⟩], [])
  | b :: rest =>
    have := length_lt_of_dropWhile hrest
    match hgap : emptyLines? (some indent) 0 0 rest with
    | none => none
    | some gap =>
      have := length_rest_emptyLines_le hgap
      let line : BlockLine := ⟨text, [b], gap.breaks⟩
      if gap.column = indent && !gap.rest.isEmpty then
        (fun (lines, rest) => (line :: lines, rest)) <$> blockLines? indent gap.rest
      else some ([line], gap.rest)
termination_by cs.length

/-- Reads a block scalar after its indicator, in a block that stands at the column `outer`. Without
a word on it, the indentation is that of the first line with text, or of a longer one before it. -/
def blockScalar? (folded : Bool) (outer : Option Nat) (cs : List Char) :
    Option (List Char × List Char) := do
  let (ending, inset, cs) ← blockHeader? cs
  let known := inset.map fun n => outer.getD 0 + n
  let first ← emptyLines? known 0 0 cs.tail
  let least := match outer with
    | some column => column + 1
    | none => 1
  let indent := known.getD (max first.width least)
  if first.column = indent && !first.rest.isEmpty then
    let (lines, rest) ← blockLines? indent first.rest
    return (first.breaks ++ BlockLine.join folded ending lines, rest)
  else return (if ending = .keep then first.breaks else [], first.rest)

end BattleOdds.YamlText
