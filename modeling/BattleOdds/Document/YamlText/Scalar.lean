import BattleOdds.Document.Plain
import BattleOdds.Document.YamlText.Cursor

/-!
# YAML scalars

Scalars may go over several lines: a single line break in them is a space, and of more breaks all
but the first are kept. Blanks at the ends of lines are dropped.
-/
namespace BattleOdds.YamlText

/-- What blanks and breaks within a scalar stand for. -/
def fold (gap : List Char) : List Char :=
  match gap.filter isBreak with
  | [] => gap
  | ['\n'] => [' ']
  | '\n' :: breaks => breaks
  | breaks => breaks

/-- Whether a gap in a scalar runs into a line that separates documents. -/
def hitsMarker (gap rest : List Char) : Bool := gap.getLast?.any isBreak && startsMarker rest

theorem length_dropSpaces_le (cs : List Char) : (cs.dropWhile isSpace).length ≤ cs.length :=
  (List.dropWhile_suffix isSpace).length_le

/-! ## Quoted scalars -/

/-- Reads up to the closing single quote. A quote inside is written twice. -/
def singleQuoted? : List Char → Option (List Char × List Char)
  | [] => none
  | '\'' :: '\'' :: cs => (fun (text, rest) => ('\'' :: text, rest)) <$> singleQuoted? cs
  | '\'' :: cs => some ([], cs)
  | c :: cs =>
    if isSpace c then
      let gap := c :: cs.takeWhile isSpace
      let line := cs.dropWhile isSpace
      if hitsMarker gap line then none
      else (fun (text, rest) => (fold gap ++ text, rest)) <$> singleQuoted? line
    else (fun (text, rest) => (c :: text, rest)) <$> singleQuoted? cs
termination_by cs => cs.length
decreasing_by
  · simp only [List.length_cons]
    omega
  · have := length_dropSpaces_le cs
    simp only [List.length_cons]
    omega
  · exact Nat.lt_succ_self _

/-- The character of a number. -/
def ofCode? (n : Nat) : Option Char := if n.isValidChar then some (Char.ofNat n) else none

/-- Reads what follows a backslash: the character meant, and the number of characters read. -/
def escape? : List Char → Option (Char × Nat)
  | [] => none
  | c :: cs =>
    let code (digits : Nat) : Option (Char × Nat) := do
      if cs.length < digits then none
      let n ← Plain.radix? 16 (cs.take digits)
      let ch ← ofCode? n
      return (ch, digits + 1)
    match c with
    | '0' => some ('\x00', 1)
    | 'a' => some ('\x07', 1)
    | 'b' => some ('\x08', 1)
    | 't' => some ('\t', 1)
    | '\t' => some ('\t', 1)
    | 'n' => some ('\n', 1)
    | 'v' => some ('\x0b', 1)
    | 'f' => some ('\x0c', 1)
    | 'r' => some ('\r', 1)
    | 'e' => some ('\x1b', 1)
    | ' ' => some (' ', 1)
    | '"' => some ('"', 1)
    | '/' => some ('/', 1)
    | '\\' => some ('\\', 1)
    | 'N' => some ('\u0085', 1)
    | '_' => some ('\u00a0', 1)
    | 'L' => some ('\u2028', 1)
    | 'P' => some ('\u2029', 1)
    | 'x' => code 2
    | 'u' => code 4
    | 'U' => code 8
    | _ => none

/-- Reads up to the closing double quote. An escaped line break stands for nothing. -/
def doubleQuoted? : List Char → Option (List Char × List Char)
  | [] => none
  | '"' :: cs => some ([], cs)
  | '\\' :: cs =>
    match cs with
    | [] => none
    | b :: cs =>
      if isBreak b then
        let gap := cs.takeWhile isSpace
        let line := cs.dropWhile isSpace
        if hitsMarker (b :: gap) line then none
        else (fun (text, rest) => (gap.filter isBreak ++ text, rest)) <$> doubleQuoted? line
      else
        match escape? (b :: cs) with
        | none => none
        | some (c, n) =>
          (fun (text, rest) => (c :: text, rest)) <$> doubleQuoted? ((b :: cs).drop n)
  | c :: cs =>
    if isSpace c then
      let gap := c :: cs.takeWhile isSpace
      let line := cs.dropWhile isSpace
      if hitsMarker gap line then none
      else (fun (text, rest) => (fold gap ++ text, rest)) <$> doubleQuoted? line
    else (fun (text, rest) => (c :: text, rest)) <$> doubleQuoted? cs
termination_by cs => cs.length
decreasing_by
  · have := length_dropSpaces_le cs
    simp only [List.length_cons]
    omega
  · have := (List.drop_suffix n (b :: cs)).length_le
    simp only [List.length_cons] at this ⊢
    omega
  · have := length_dropSpaces_le cs
    simp only [List.length_cons]
    omega
  · exact Nat.lt_succ_self _

/-! ## Plain scalars -/

/-- The characters that structure a flow collection. -/
def isFlowIndicator (c : Char) : Bool :=
  c = ',' || c = '[' || c = ']' || c = '\x7b' || c = '\x7d'

/-- The characters up to the next space, or to one that ends a plain scalar. A colon right before an
indicator may not stand in a flow collection. -/
def plainWord? (flow : Bool) : List Char → Option (List Char)
  | [] => some []
  | c :: cs =>
    if isSpace c then some []
    else if flow && c = ':' && cs.head?.any fun d => isFlowIndicator d || d = '?' then none
    else if c = ':' && endsToken cs then some []
    else if flow && isFlowIndicator c then some []
    else (c :: ·) <$> plainWord? flow cs

/-- Whether a tab stands where the indentation of a line is still missing. -/
def tabIndents (indent : Nat) : (fresh : Bool) → (column : Nat) → List Char → Bool
  | _, _, [] => false
  | fresh, column, c :: gap =>
    if isBreak c then tabIndents indent true 0 gap
    else (fresh && column < indent && c = '\t') || tabIndents indent fresh (column + 1) gap

/-- A plain scalar that has been read. -/
structure PlainScalar where
  text : List Char
  /-- Where the blanks after it end. -/
  cursor : Cursor
  /-- Whether a line has ended after it. -/
  endsLine : Bool

/-- Reads the rest of a plain scalar: `text` has been read, and after it `gap`. Outside of flow
collections its lines must be indented by `indent` columns. -/
def plainRest? (flow : Bool) (indent : Nat) (text gap : List Char) (cursor : Cursor) :
    Option PlainScalar :=
  let done : PlainScalar := { text, cursor, endsLine := gap.any isBreak }
  if cursor.atMarker || cursor.rest.head? = some '#' then some done
  else
    match h : plainWord? flow cursor.rest with
    | none => none
    | some [] => some done
    | some (c :: word) =>
      let text := text ++ fold gap ++ c :: word
      let after := cursor.skip (word.length + 1)
      let gap := after.rest.takeWhile isSpace
      let next := after.skip gap.length
      if gap.isEmpty then some { text, cursor := after, endsLine := false }
      else if tabIndents indent false 0 gap then none
      else if !flow && next.column < indent then
        some { text, cursor := next, endsLine := gap.any isBreak }
      else plainRest? flow indent text gap next
termination_by cursor.rest.length
decreasing_by
  have : cursor.rest ≠ [] := by
    intro hr
    simp [hr, plainWord?] at h
  have := List.length_pos_iff.mpr this
  simp only [Cursor.rest_skip, List.length_drop]
  omega

/-- Reads a plain scalar. -/
def plain? (flow : Bool) (indent : Nat) (cursor : Cursor) : Option PlainScalar :=
  plainRest? flow indent [] [] cursor

end BattleOdds.YamlText
