import BattleOdds.Decimal.Style
import BattleOdds.Tag

/-!
# JSON values and their text

Values are written in two layouts: `compact` without blanks, and `pretty` with one element a line
and two blanks for each level. The members of a record keep their order.
-/
namespace BattleOdds

/-- A JSON value. -/
inductive Json
  | null
  | bool (b : Bool)
  | integer (i : Int)
  | figure (x : Binary64)
  | text (s : String)
  | list (items : List Json)
  | record (members : List (String × Json))

namespace Json

/-- The hexadecimal digit of a number below 16. -/
def hexDigit (n : Nat) : Char := "0123456789abcdef".toList.getD n '0'

/-- A character inside quotes. Quotes, backslashes and control characters are escaped. -/
def escape (c : Char) : List Char :=
  match c with
  | '"' => ['\\', '"']
  | '\\' => ['\\', '\\']
  | '\x08' => ['\\', 'b']
  | '\x0c' => ['\\', 'f']
  | '\n' => ['\\', 'n']
  | '\r' => ['\\', 'r']
  | '\t' => ['\\', 't']
  | c =>
    if c.toNat < 32 then ['\\', 'u', '0', '0', hexDigit (c.toNat / 16), hexDigit (c.toNat % 16)]
    else [c]

/-- A text in quotes. -/
def quoted (s : String) : String :=
  String.ofList ('"' :: s.toList.flatMap escape ++ ['"'])

/-- A value of at most one line: anything but a list or a record. -/
def scalar : Json → String
  | .bool b => if b then "true" else "false"
  | .integer i => toString i
  | .figure x => FigureStyle.json.text x
  | .text s => quoted s
  | _ => "null"

mutual

/-- The text of a value without blanks. -/
def compact : Json → String
  | .list items => "[" ++ compactItems items ++ "]"
  | .record members => "\x7b" ++ compactMembers members ++ "\x7d"
  | value => value.scalar

def compactItems : List Json → String
  | [] => ""
  | [item] => item.compact
  | item :: items => item.compact ++ "," ++ compactItems items

def compactMembers : List (String × Json) → String
  | [] => ""
  | [(name, value)] => quoted name ++ ":" ++ value.compact
  | (name, value) :: members =>
    quoted name ++ ":" ++ value.compact ++ "," ++ compactMembers members

end

/-- The start of a line at a level. -/
def indent (level : Nat) : String := "\n" ++ String.ofList (List.replicate (2 * level) ' ')

mutual

/-- The text of a value at a level, with one element a line. -/
def layout (level : Nat) : Json → String
  | .list [] => "[]"
  | .list items => "[" ++ layoutItems (level + 1) items ++ indent level ++ "]"
  | .record [] => "\x7b\x7d"
  | .record members => "\x7b" ++ layoutMembers (level + 1) members ++ indent level ++ "\x7d"
  | value => value.scalar

def layoutItems (level : Nat) : List Json → String
  | [] => ""
  | [item] => indent level ++ item.layout level
  | item :: items => indent level ++ item.layout level ++ "," ++ layoutItems level items

def layoutMembers (level : Nat) : List (String × Json) → String
  | [] => ""
  | [(name, value)] => indent level ++ quoted name ++ ": " ++ value.layout level
  | (name, value) :: members =>
    indent level ++ quoted name ++ ": " ++ value.layout level ++ "," ++ layoutMembers level members

end

/-- The text of a value with one element a line. -/
def pretty (value : Json) : String := value.layout 0

/-- An optional value, `null` where it is absent. -/
def optional (encode : α → Json) : Option α → Json
  | some a => encode a
  | none => .null

/-- A whole number of 64 bits. -/
def whole (n : UInt64) : Json := .integer n.toNat

/-- The word of a tag. -/
def tag [Tagged α] (a : α) : Json := .text (Tagged.word a)

end Json

end BattleOdds
