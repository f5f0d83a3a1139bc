import BattleOdds.Document.Reading

/-!
# Files by name

What can go wrong with a file, and what its name says of its format.
-/
namespace BattleOdds

/-- Why a file cannot be read or made. -/
inductive FileFault
  | missing
  /-- A name goes on after the name of a file. -/
  | notFolder
  | isFolder
  | notText
  | badName
  | longName
  /-- Any other reason, in the words of the system. -/
  | other (description : String)
deriving DecidableEq

namespace FileFault

def message : FileFault → String
  | missing => "No such file or directory (os error 2)"
  | notFolder => "Not a directory (os error 20)"
  | isFolder => "Is a directory (os error 21)"
  | notText => "stream did not contain valid UTF-8"
  | badName => "file name contained an unexpected NUL byte"
  | longName => "File name too long (os error 36)"
  | other description => description

/-- Whether the fault is that there is no file of the name. -/
def isAbsent : FileFault → Bool
  | missing => true
  | notFolder => true
  | badName => true
  | longName => true
  | _ => false

end FileFault

/-- The parts of a name between its slashes, without those that stay where they are. -/
def pathParts (path : String) : List (List Char) :=
  (path.toList.splitOn '/').filter fun part => part ≠ [] && part ≠ ['.']

/-- What follows the last dot of a name, if something stands before that dot. -/
def extension? (name : List Char) : Option (List Char) :=
  let extension := (name.reverse.takeWhile (· ≠ '.')).reverse
  let stem := name.take (name.length - extension.length - 1)
  if name = ['.', '.'] || stem.isEmpty then none else some extension

/-- Documents are YAML if their names say so, and JSON otherwise. -/
def DocumentFormat.ofPath (path : String) : DocumentFormat :=
  match (pathParts path).getLast?.bind extension? with
  | some extension =>
    let word := extension.map Char.toLower
    if word = "yaml".toList || word = "yml".toList then .yaml else .json
  | none => .json

end BattleOdds
