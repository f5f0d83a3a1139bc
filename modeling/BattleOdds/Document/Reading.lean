import BattleOdds.Document.Decoding
import BattleOdds.Document.JsonText.Assembly
import BattleOdds.Document.YamlText.Assembly

/-!
# Reading documents

`decode` reads a value of any type that documents can hold. A JSON text is decoded as far as it
goes, so a misfit before the place where it breaks off is what is reported. A YAML text that breaks
off anywhere is reported as that.
-/
namespace BattleOdds

/-- The ways in which documents are written. -/
inductive DocumentFormat
  | json | yaml
deriving DecidableEq

/-- Why a document cannot be read. -/
structure DocumentError where
  format : DocumentFormat
  fault : Fault

/-- What breaks a document off is not told. -/
def DocumentError.message (e : DocumentError) : String :=
  let format := match e.format with
    | .json => "JSON error: "
    | .yaml => "YAML error: "
  format ++ match e.fault with
    | .broken => "malformed document"
    | .misfit m => m.message

/-- Decodes a document, which must not go on after its node. -/
def Document.decode [FromNode α] (document : Document) : Except Fault α := do
  let a ← FromNode.read .json document.root
  if document.clean then .ok a else .error .broken

/-- Reads a value from the text of a document. -/
def decode [FromNode α] (format : DocumentFormat) (s : String) : Except DocumentError α :=
  let decoded : Except Fault α := match format with
    | .json => (Document.ofJson s).decode
    | .yaml => match YamlDocument.ofText? s with
      | some document => FromNode.read (.yaml document.maxSteps) document.root
      | none => .error .broken
  decoded.mapError fun fault => { format, fault }

end BattleOdds
