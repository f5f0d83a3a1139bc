import BattleOdds.Document.Plain
import BattleOdds.Document.YamlText.Cursor

/-!
# Anchors and tags

Before a YAML node there may be an anchor, by whose name aliases refer to the node, and a tag, which
says what type the node has. A tag begins with a handle, a short name that the document may give to
the start of its tags; the rest is written out. Any octet may be escaped in a tag, so that it need
not be a text.
-/
namespace BattleOdds.YamlText

/-- The characters of the names of anchors and handles. -/
def isWord (c : Char) : Bool :=
  ('0' ≤ c && c ≤ '9') || ('A' ≤ c && c ≤ 'Z') || ('a' ≤ c && c ≤ 'z') || c = '_' || c = '-'

/-! ## Anchors -/

/-- Whether the name of an anchor may end before a character. -/
def endsAnchor (c : Char) : Bool :=
  isSpace c || c = '?' || c = ':' || c = ',' || c = ']' || c = '\x7d' || c = '%' || c = '@'
    || c = '\x60'

/-- Reads the name of an anchor, or of an alias. -/
def anchorName? (cs : List Char) : Option (String × List Char) :=
  let name := cs.takeWhile isWord
  let rest := cs.dropWhile isWord
  if name.isEmpty || !rest.head?.all endsAnchor then none else some (String.ofList name, rest)

/-! ## Octets -/

/-- How many octets follow the first one of a character. -/
def octetsAfter? (octet : UInt8) : Option Nat :=
  if octet < 0x80 then some 0
  else if octet < 0xc0 then none
  else if octet < 0xe0 then some 1
  else if octet < 0xf0 then some 2
  else if octet < 0xf8 then some 3
  else none

/-- Takes an octet of a character of which `due` octets are missing: the number of those that are
missing then. -/
def stillDue? (octet : UInt8) : (due : Nat) → Option Nat
  | 0 => octetsAfter? octet
  | due + 1 => if 0x80 ≤ octet && octet < 0xc0 then some due else none

/-- The octet of a character that has only one. -/
def octetOf (c : Char) : UInt8 := UInt8.ofNat c.toNat

/-- The characters of a tag. A tag that is written out whole has some more. -/
def isTagCharacter (whole : Bool) (c : Char) : Bool :=
  isWord c || c = ';' || c = '/' || c = '?' || c = ':' || c = '@' || c = '&' || c = '=' || c = '+'
    || c = '$' || c = '.' || c = '!' || c = '~' || c = '*' || c = '\'' || c = '(' || c = ')'
    || (whole && (c = ',' || c = '[' || c = ']'))

/-- Reads octets as far as they go. One is escaped by a percent sign before its two digits, and then
all of its character are. -/
def octets? (whole : Bool) : (due : Nat) → List Char → Option (List UInt8 × List Char)
  | due, '%' :: a :: b :: cs => do
    let octet := UInt8.ofNat (← Plain.radix? 16 [a, b])
    let due ← stillDue? octet due
    let (octets, rest) ← octets? whole due cs
    return (octet :: octets, rest)
  | 0, '%' :: _ => none
  | 0, c :: cs =>
    if isTagCharacter whole c then
      (fun (octets, rest) => (octetOf c :: octets, rest)) <$> octets? whole 0 cs
    else some ([], c :: cs)
  | 0, [] => some ([], [])
  | _ + 1, _ => none

/-- Reads octets, one at least. A zero ends them: what is read after it does not count. -/
def someOctets? (whole : Bool) (cs : List Char) : Option (List UInt8 × List Char) := do
  let (octets, rest) ← octets? whole 0 cs
  if octets.isEmpty then none else some (octets.takeWhile (· ≠ 0), rest)

/-! ## Tags -/

/-- A tag as it is written. Without a handle it is written out whole. -/
structure Tag where
  handle : String
  rest : List UInt8
deriving DecidableEq

/-- The tag that is an exclamation mark and nothing else. -/
def Tag.bare : Tag := ⟨"", [octetOf '!']⟩

/-- Reads a tag after its exclamation mark. A handle ends with another one, and without it the tag
has the handle that is only one. -/
def tagBody? : List Char → Option (Tag × List Char)
  | '<' :: cs => do
    let (octets, rest) ← someOctets? true cs
    if rest.head? = some '>' then some (⟨"", octets⟩, rest.tail) else none
  | cs =>
    let word := cs.takeWhile isWord
    match cs.dropWhile isWord with
    | '!' :: cs => do
      let (octets, rest) ← someOctets? false cs
      return (⟨"!" ++ String.ofList word ++ "!", octets⟩, rest)
    | cs => do
      let (octets, rest) ← octets? false 0 cs
      let octets := word.map octetOf ++ octets.takeWhile (· ≠ 0)
      return (if octets.isEmpty then .bare else ⟨"!", octets⟩, rest)

/-- Reads a tag after its exclamation mark, and sees that it ends there. -/
def tag? (flow : Bool) (cs : List Char) : Option (Tag × List Char) := do
  let (tag, rest) ← tagBody? cs
  if endsToken rest || (flow && rest.head? = some ',') then some (tag, rest) else none

end BattleOdds.YamlText
