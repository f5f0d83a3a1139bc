import BattleOdds.Decimal.Style
import BattleOdds.Document.Node
import BattleOdds.Tag
import BattleOdds.Text.Shown
import BattleOdds.Whole

/-!
# Misfits

A misfit is the first place at which a document that is whole does not fit what is read from it. A
document can also be broken, which has no message: where and how is the matter of its notation.
-/
namespace BattleOdds

/-- What a place holds, as messages name it. -/
inductive Found
  | null
  | bool (b : Bool)
  | integer (i : Int)
  | figure (x : Binary64)
  | text (s : String)
  | list
  | record

def Found.message : Found → String
  | .null => "null"
  | .bool b => "boolean `" ++ (if b then "true" else "false") ++ "`"
  | .integer i => "integer `" ++ toString i ++ "`"
  | .figure x => "floating point `" ++ FigureStyle.json.text x ++ "`"
  | .text s => "string " ++ Text.shown s
  | .list => "sequence"
  | .record => "map"

/-- What a node holds, if it can be told. -/
def Node.found? (node : Node) : Option Found :=
  match node.bare with
  | .null => some .null
  | .bool b => some (.bool b)
  | .integer i => some (.integer i)
  | .figure x => some (.figure x)
  | .text s => some (.text s)
  | .plain s => some (.text s)
  | .literal s => some (.text s)
  | .list .. => some .list
  | .record .. => some .record
  | _ => none

/-- What a place wants, as messages name it. -/
inductive Wanted
  | whole (range : WholeRange)
  | figure
  | flag
  /-- A value of a named type. -/
  | type (name : String)
  /-- A list of all members of a named type. -/
  | members (name : String) (count : Nat)
  /-- A list of so many items and no more. -/
  | items (count : Nat)
  /-- The word of a tag. -/
  | tag
  /-- Any form of a tag. -/
  | tagForm
  /-- A record that holds a tag. -/
  | tagRecord
  | nothing

/-- A number of elements, as messages name it. -/
def elements (count : Nat) : String :=
  toString count ++ if count = 1 then " element" else " elements"

def Wanted.message : Wanted → String
  | .whole range => range.name
  | .figure => "f64"
  | .flag => "a boolean"
  | .type name => name
  | .members name count => name ++ " with " ++ elements count
  | .items count => elements count ++ " in sequence"
  | .tag => "variant identifier"
  | .tagForm => "string or map"
  | .tagRecord => "map with a single key"
  | .nothing => "unit"

/-- How a document does not fit. -/
inductive Misfit
  | wrongType (found : Found) (wanted : Wanted)
  | wrongValue (found : Found) (wanted : Wanted)
  | wrongLength (length : Nat) (wanted : Wanted)
  /-- A word that is none of the known tags. -/
  | unknownTag (word : String) (known : List String)
  | missingMember (name : String)
  | repeatedMember (name : String)

/-- A word between backticks. -/
def ticked (word : String) : String := "`" ++ word ++ "`"

def Misfit.message : Misfit → String
  | .wrongType found wanted =>
    "invalid type: " ++ found.message ++ ", expected " ++ wanted.message
  | .wrongValue found wanted =>
    "invalid value: " ++ found.message ++ ", expected " ++ wanted.message
  | .wrongLength length wanted =>
    "invalid length " ++ toString length ++ ", expected " ++ wanted.message
  | .unknownTag word known =>
    "unknown variant " ++ ticked word ++ ", expected one of "
      ++ ", ".intercalate (known.map ticked)
  | .missingMember name => "missing field " ++ ticked name
  | .repeatedMember name => "duplicate field " ++ ticked name

/-- Why a document cannot be decoded. -/
inductive Fault
  | broken
  | misfit (m : Misfit)

/-- The fault of a node that is of the wrong type. -/
def Node.refuse (node : Node) (wanted : Wanted) : Except Fault α :=
  match node.found? with
  | some found => .error (.misfit (.wrongType found wanted))
  | none => .error .broken

end BattleOdds
