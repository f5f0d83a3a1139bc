import BattleOdds.Files

/-!
# Folders in memory

A folder as a list of the files in it and around it. Paths lead through it as they do on a disk: a
path with slashes goes from folder to folder, and it may leave the folder upwards, or start at the
root, above which there is nothing.
-/
namespace BattleOdds

/-- What a name in a folder stands for. -/
inductive FileContent
  | text (s : String)
  /-- Bytes that are not the encoding of a text. -/
  | garbled
  | folder
deriving DecidableEq

/-- A file, with the names that lead to it from the root. -/
structure FolderEntry where
  place : List String
  content : FileContent
deriving DecidableEq

/-- A folder with the files that can be reached from it. -/
structure Folder where
  /-- The names that lead to the folder from the root. -/
  home : List String
  entries : List FolderEntry
deriving DecidableEq

namespace Folder

/-- What is at a place. A place on the way to another is a folder, and so is one on the way home. -/
def at? (f : Folder) (place : List String) : Option FileContent :=
  match f.entries.find? fun entry => entry.place = place with
  | some entry => some entry.content
  | none =>
    if place.isPrefixOf f.home || f.entries.any (place.isPrefixOf ·.place) then some .folder
    else none

/-- No path has more bytes than this. -/
def pathLimit : Nat := 4095

/-- No name in a folder has more bytes than this. -/
def nameLimit : Nat := 255

/-- The names in a path, between its slashes. -/
def names? (path : String) : Except FileFault (List String) :=
  if path.contains '\x00' then .error .badName
  else if path.isEmpty then .error .missing
  else if pathLimit < path.utf8ByteSize then .error .longName
  else .ok ((path.toList.splitOn '/').map String.ofList)

/-- The place at which a path starts. -/
def start (f : Folder) (path : String) : List String := if path.startsWith "/" then [] else f.home

/-- The place that names lead to from another. All on the way must be folders; what is at the end
may be missing. -/
def walk (f : Folder) (place : List String) : List String → Except FileFault (List String)
  | [] => .ok place
  | name :: names =>
    match f.at? place with
    | none => .error .missing
    | some .folder =>
      if name = "" || name = "." then f.walk place names
      else if name = ".." then f.walk place.dropLast names
      else if nameLimit < name.utf8ByteSize then .error .longName
      else f.walk (place ++ [name]) names
    | some _ => .error .notFolder

/-- The text of a file. -/
def load (f : Folder) (path : String) : Except FileFault String := do
  let place ← f.walk (f.start path) (← names? path)
  match f.at? place with
  | none => .error .missing
  | some .folder => .error .isFolder
  | some .garbled => .error .notText
  | some (.text s) => .ok s

/-- Whether a name stands for a folder, whatever is in that folder. -/
def isFolderName (name : String) : Bool := name = "" || name = "." || name = ".."

/-- The folder after a text has been written to a file, which is made if it is missing. A path with
a slash at its end names no file. -/
def store (f : Folder) (path s : String) : Except FileFault Folder := do
  let names ← names? path
  let stem := names.reverse.dropWhile (· = "")
  match stem with
  | [] => .error .isFolder
  | last :: parents =>
    let parent ← f.walk (f.start path) parents.reverse
    match f.at? parent with
    | none => .error .missing
    | some .folder =>
      if isFolderName last || stem.length < names.length then .error .isFolder
      else
        let place ← f.walk parent [last]
        if f.at? place = some .folder then .error .isFolder
        else
          let others := f.entries.filter fun entry => entry.place ≠ place
          .ok { f with entries := others ++ [⟨place, .text s⟩] }
    | some _ => .error .notFolder

end Folder

end BattleOdds
