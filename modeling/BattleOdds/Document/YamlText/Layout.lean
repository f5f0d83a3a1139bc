import BattleOdds.Document.YamlText.Directive
import BattleOdds.Document.YamlText.Scalar

/-!
# YAML tokens

`scan?` cuts a YAML text into tokens. Blocks begin and end by indentation, so the scanner keeps the
columns of the blocks that are open. What a scalar or a flow collection is becomes known only when a
colon follows on the same line: until then it is a pending name, and the colon puts the token that
says so, and the one that opens a block, before it. An anchor or a tag may begin a name as well.
Some tokens stand for no characters at all: where a block ends, or that a scalar which has been read
already is the name of a member.
-/
namespace BattleOdds.YamlText

/-- A token of a YAML text. -/
inductive Token
  | directive (d : Directive)
  | documentStart | documentEnd
  | openList | closeList | openRecord | closeRecord | comma
  | blockList | blockRecord | blockEnd
  /-- An item of a block follows. -/
  | entry
  /-- The name of a member follows. -/
  | key
  /-- The value of a member follows. -/
  | value
  /-- The next node can be referred to. -/
  | anchor (name : String)
  /-- The node with an anchor. -/
  | alias (name : String)
  | tag (tag : Tag)
  | plain (s : String)
  /-- A scalar in quotes, or one whose lines have been folded. -/
  | quoted (s : String)
  /-- A scalar whose lines stand as they are. -/
  | literal (s : String)
deriving DecidableEq

/-- A token that may turn out to begin the name of a member. -/
structure PendingKey where
  /-- Whether anything else than a name would be wrong in its place. -/
  required : Bool
  /-- The number of tokens before it. -/
  position : Nat
  offset : Nat
  line : Nat
  column : Nat

/-- What has been scanned of a text, and what is known of its layout. -/
structure Layout where
  cursor : Cursor
  tokens : Array Token := #[]
  /-- The columns of the open blocks, the inner ones first. -/
  indents : List Nat := []
  /-- The pending name of the block level, and then of each open flow collection; the inner ones
  first. -/
  keys : List (Option PendingKey) := [none]
  /-- Whether a name may begin here. -/
  keyAllowed : Bool := true

namespace Layout

/-- Whether the place is in a flow collection. -/
def inFlow (l : Layout) : Bool := 1 < l.keys.length

def push (l : Layout) (token : Token) : Layout := { l with tokens := l.tokens.push token }

def skip (l : Layout) (n : Nat) : Layout := { l with cursor := l.cursor.skip n }

/-! ## Blanks and comments -/

/-- The mark of the byte order. -/
def byteOrderMark : Char := '\ufeff'

/-- The number of characters up to the next token, and whether a name may begin there. Tabs are
blanks only where a name may not begin, and a mark of the byte order is one only where a line
starts (`fresh`). -/
def gapLength (flow : Bool) : (fresh keyAllowed comment : Bool) → List Char → Nat × Bool
  | _, keyAllowed, _, [] => (0, keyAllowed)
  | fresh, keyAllowed, comment, c :: cs =>
    let counted := fun ((n, allowed) : Nat × Bool) => (n + 1, allowed)
    if isBreak c then counted (gapLength flow true (keyAllowed || !flow) false cs)
    else if comment || c = '#' then counted (gapLength flow false keyAllowed true cs)
    else if c = ' ' || (c = '\t' && (flow || !keyAllowed)) || (c = byteOrderMark && fresh) then
      counted (gapLength flow false keyAllowed false cs)
    else (0, keyAllowed)

/-- Goes to the next token. -/
def toToken (l : Layout) : Layout :=
  let fresh : Bool := l.cursor.column = 0
  let (n, keyAllowed) := gapLength l.inFlow fresh l.keyAllowed false l.cursor.rest
  { l.skip n with keyAllowed }

/-! ## Pending names -/

/-- Drops a pending name, unless there has to be one. -/
def dropKey? : Option PendingKey → Option (Option PendingKey)
  | some key => if key.required then none else some none
  | none => some none

/-- Drops the innermost pending name. -/
def dropInnermost? (l : Layout) : Option Layout :=
  match l.keys with
  | [] => some l
  | key :: keys => (fun key => { l with keys := key :: keys }) <$> dropKey? key

/-- Drops the pending names that a colon can no longer follow: those of earlier lines, and those too
far back. -/
def dropStale? (l : Layout) : Option Layout := do
  let isStale (key : PendingKey) : Bool :=
    key.line < l.cursor.line || key.offset + 1024 < l.cursor.offset
  let keys ← l.keys.mapM fun key => if key.any isStale then dropKey? key else some key
  return { l with keys }

/-- Notes that the next token may begin a name. -/
def saveKey? (l : Layout) : Option Layout := do
  if !l.keyAllowed then return l
  let l ← l.dropInnermost?
  let key : PendingKey :=
    { required := !l.inFlow && l.indents.head? = some l.cursor.column
      position := l.tokens.size
      offset := l.cursor.offset
      line := l.cursor.line
      column := l.cursor.column }
  return { l with keys := some key :: l.keys.tail }

/-! ## Blocks -/

/-- Ends the blocks whose columns are not before a column; all of them if there is none. -/
def closeBlocks (l : Layout) (column : Option Nat) : Layout :=
  let ends (indent : Nat) : Bool := column.all fun c => c < indent
  { l with
    tokens := l.tokens ++ Array.replicate (l.indents.takeWhile ends).length .blockEnd
    indents := l.indents.dropWhile ends }

/-- Begins a block at a column, unless one stands there. Its token goes to a position. -/
def openBlock (l : Layout) (column position : Nat) (token : Token) : Layout :=
  if l.inFlow || !l.indents.head?.all fun indent => indent < column then l
  else
    { l with
      tokens := l.tokens.insertIdxIfInBounds position token
      indents := column :: l.indents }

/-- The column from which on the lines of a scalar have to be indented. -/
def scalarIndent (l : Layout) : Nat :=
  match l.indents.head? with
  | some indent => indent + 1
  | none => 0

/-! ## Tokens -/

/-- A line that separates documents. -/
def marker? (l : Layout) (token : Token) : Option Layout := do
  let l ← (l.closeBlocks none).dropInnermost?
  return { (l.push token).skip 3 with keyAllowed := false }

/-- A line before the start of a document. -/
def directive? (l : Layout) : Option Layout := do
  let l ← (l.closeBlocks none).dropInnermost?
  let (directive, rest) ← YamlText.directive? l.cursor.rest.tail
  return { l.push (.directive directive) with cursor := l.cursor.goTo rest, keyAllowed := false }

/-- The start of a flow collection. It may be a name itself. -/
def openFlow? (l : Layout) (token : Token) : Option Layout := do
  let l ← l.saveKey?
  return { (l.push token).skip 1 with keys := none :: l.keys, keyAllowed := true }

/-- The end of a flow collection. -/
def closeFlow? (l : Layout) (token : Token) : Option Layout := do
  let l ← l.dropInnermost?
  let keys := if l.inFlow then l.keys.tail else l.keys
  return { (l.push token).skip 1 with keys, keyAllowed := false }

/-- A comma in a flow collection. -/
def comma? (l : Layout) : Option Layout := do
  let l ← l.dropInnermost?
  return { (l.push .comma).skip 1 with keyAllowed := true }

/-- A dash before an item. -/
def entry? (l : Layout) : Option Layout := do
  if !l.inFlow && !l.keyAllowed then none
  let l ← (l.openBlock l.cursor.column l.tokens.size .blockList).dropInnermost?
  return { (l.push .entry).skip 1 with keyAllowed := true }

/-- A question mark before a name. -/
def key? (l : Layout) : Option Layout := do
  if !l.inFlow && !l.keyAllowed then none
  let l ← (l.openBlock l.cursor.column l.tokens.size .blockRecord).dropInnermost?
  return { (l.push .key).skip 1 with keyAllowed := !l.inFlow }

/-- A colon before a value. The pending name before it is one; without it the name is empty. -/
def value? (l : Layout) : Option Layout :=
  match l.keys with
  | some key :: keys =>
    let named := { l with
      tokens := l.tokens.insertIdxIfInBounds key.position .key
      keys := none :: keys
      keyAllowed := false }
    some (((named.openBlock key.column key.position .blockRecord).push .value).skip 1)
  | _ =>
    if !l.inFlow && !l.keyAllowed then none
    else
      let opened := l.openBlock l.cursor.column l.tokens.size .blockRecord
      some { (opened.push .value).skip 1 with keyAllowed := !l.inFlow }

/-- The name of an anchor or of an alias, after its indicator. -/
def anchor? (l : Layout) (token : String → Token) : Option Layout := do
  let l ← l.saveKey?
  let (name, rest) ← anchorName? l.cursor.rest.tail
  return { l.push (token name) with cursor := l.cursor.goTo rest, keyAllowed := false }

/-- A tag, of which the exclamation mark has been seen. -/
def tag? (l : Layout) : Option Layout := do
  let l ← l.saveKey?
  let (tag, rest) ← YamlText.tag? l.inFlow l.cursor.rest.tail
  return { l.push (.tag tag) with cursor := l.cursor.goTo rest, keyAllowed := false }

/-- A block scalar, of which the indicator has been seen. It is no name. -/
def block? (l : Layout) (folded : Bool) : Option Layout := do
  let l ← l.dropInnermost?
  let (text, rest) ← blockScalar? folded l.indents.head? l.cursor.rest.tail
  let text := String.ofList text
  let token : Token := if folded then .quoted text else .literal text
  return { l.push token with cursor := l.cursor.goTo rest, keyAllowed := true }

/-- A scalar in quotes, of which the first has been seen. -/
def quoted? (l : Layout) (read : List Char → Option (List Char × List Char)) :
    Option Layout := do
  let l ← l.saveKey?
  let (text, rest) ← read l.cursor.rest.tail
  let cursor := l.cursor.goTo rest
  return { l.push (.quoted (String.ofList text)) with cursor, keyAllowed := false }

/-- A plain scalar. -/
def plain? (l : Layout) : Option Layout := do
  let l ← l.saveKey?
  let scalar ← YamlText.plain? l.inFlow l.scalarIndent l.cursor
  let l := l.push (.plain (String.ofList scalar.text))
  return { l with cursor := scalar.cursor, keyAllowed := scalar.endsLine }

/-- Whether a character cannot begin a plain scalar. -/
def isIndicator (c : Char) : Bool :=
  isFlowIndicator c || c = '-' || c = '?' || c = ':' || c = '#' || c = '&' || c = '*' || c = '!'
    || c = '|' || c = '>' || c = '\'' || c = '"' || c = '%' || c = '@' || c = '\x60'

/-- Whether a plain scalar begins with a character. Some indicators begin one where no blank follows
them. -/
def startsPlain (flow : Bool) (c : Char) (cs : List Char) : Bool :=
  !(isSpace c || isIndicator c) || (c = '-' && !cs.head?.any isBlank)
    || (!flow && (c = '?' || c = ':') && !endsToken cs)

/-- Scans the token at the place. -/
def token? (l : Layout) (c : Char) (cs : List Char) : Option Layout :=
  if l.cursor.column = 0 && c = '%' then l.directive?
  else if l.cursor.atMarker then
    l.marker? (if c = '-' then .documentStart else .documentEnd)
  else match c with
    | '[' => l.openFlow? .openList
    | ']' => l.closeFlow? .closeList
    | '\x7b' => l.openFlow? .openRecord
    | '\x7d' => l.closeFlow? .closeRecord
    | ',' => l.comma?
    | '*' => l.anchor? .alias
    | '&' => l.anchor? .anchor
    | '!' => l.tag?
    | '\'' => l.quoted? singleQuoted?
    | '"' => l.quoted? doubleQuoted?
    | c =>
      if c = '-' && endsToken cs then l.entry?
      else if c = ':' && (l.inFlow || endsToken cs) then l.value?
      else if c = '?' && (l.inFlow || endsToken cs) then l.key?
      else if (c = '|' || c = '>') && !l.inFlow then l.block? (c = '>')
      else if startsPlain l.inFlow c cs then l.plain?
      else none

/-- Scans up to the end of the text; each round but the last takes a character at least. -/
def scanFrom? (l : Layout) : Nat → Option (Array Token)
  | 0 => none
  | rounds + 1 => do
    let l ← l.toToken.dropStale?
    let l := if l.inFlow then l else l.closeBlocks (some l.cursor.column)
    match l.cursor.rest with
    | [] => return (← (l.closeBlocks none).dropInnermost?).tokens
    | c :: cs => (← l.token? c cs).scanFrom? rounds

end Layout

/-- The tokens of a text. -/
def scan? (s : String) : Option (Array Token) :=
  let cs := s.toList
  if !cs.all isAllowed then none
  else
    let cursor : Cursor := { rest := unifyBreaks cs }
    Layout.scanFrom? { cursor } (cursor.rest.length + 1)

end BattleOdds.YamlText
