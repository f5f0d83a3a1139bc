/-!
# Places in a YAML text

A cursor is a place in a text, with what follows it. Layout is part of a YAML text, so a cursor
counts lines and columns; how long a name may be is a matter of bytes, so it counts these too. Line
breaks are brought to one form before a text is read.
-/
namespace BattleOdds.YamlText

def isBlank (c : Char) : Bool := c = ' ' || c = '\t'

/-- The characters that end a line, once `unifyBreaks` has been applied. -/
def isBreak (c : Char) : Bool := c = '\n' || c = '\u2028' || c = '\u2029'

def isSpace (c : Char) : Bool := isBlank c || isBreak c

/-- Writes carriage returns, alone or before a line feed, and next-line characters as line feeds. -/
def unifyBreaks : List Char → List Char
  | [] => []
  | '\r' :: '\n' :: cs => '\n' :: unifyBreaks cs
  | c :: cs => (if c = '\r' || c = '\u0085' then '\n' else c) :: unifyBreaks cs

/-- The characters that a text may hold. -/
def isAllowed (c : Char) : Bool :=
  c = '\t' || c = '\n' || c = '\r' || c = '\u0085' || (' ' ≤ c && c ≤ '~')
    || ('\u00a0' ≤ c && c ≤ '\ufffd') || 0x10000 ≤ c.toNat

/-- Whether a token that has to stand alone may end here. -/
def endsToken : List Char → Bool
  | [] => true
  | c :: _ => isSpace c

/-- Whether a line starts that separates documents. -/
def startsMarker : List Char → Bool
  | '-' :: '-' :: '-' :: cs => endsToken cs
  | '.' :: '.' :: '.' :: cs => endsToken cs
  | _ => false

/-- A place in a text. -/
structure Cursor where
  rest : List Char
  /-- The number of bytes before the place. -/
  offset : Nat := 0
  line : Nat := 0
  column : Nat := 0

namespace Cursor

/-- The place after the next character. -/
def next (c : Cursor) : Cursor :=
  match c.rest with
  | [] => c
  | ch :: rest =>
    let offset := c.offset + ch.utf8Size
    if isBreak ch then { rest, offset, line := c.line + 1, column := 0 }
    else { c with rest, offset, column := c.column + 1 }

/-- The place after the next `n` characters. -/
def skip (c : Cursor) : Nat → Cursor
  | 0 => c
  | n + 1 => c.next.skip n

theorem rest_next (c : Cursor) : c.next.rest = c.rest.tail := by
  unfold next
  split
  · simp_all
  · split <;> simp_all

theorem rest_skip (c : Cursor) (n : Nat) : (c.skip n).rest = c.rest.drop n := by
  induction n generalizing c with
  | zero => rfl
  | succ n ih => simp [skip, ih, rest_next]

/-- The place at which a text that ends the rest begins. -/
def goTo (c : Cursor) (rest : List Char) : Cursor := c.skip (c.rest.length - rest.length)

/-- Whether a line that separates documents starts here. -/
def atMarker (c : Cursor) : Bool := c.column = 0 && startsMarker c.rest

end Cursor

end BattleOdds.YamlText
