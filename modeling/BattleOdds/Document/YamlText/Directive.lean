import BattleOdds.Document.YamlText.BlockScalar
import BattleOdds.Document.YamlText.Property

/-!
# Directives

Lines before the start of a document say which version of the notation it is written in, and what
the handles of its tags stand for.
-/
namespace BattleOdds.YamlText

/-- What a line before a document says. -/
inductive Directive
  | version (major minor : Nat)
  | handle (name : String) (octets : List UInt8)
deriving DecidableEq

/-- Reads a number of a version, of nine digits at most. -/
def versionNumber? (cs : List Char) : Option (Nat × List Char) :=
  let (digits, rest) := Plain.takeDigits cs
  if digits.isEmpty || 9 < digits.length then none else some (digitsValue digits, rest)

/-- Reads the two numbers of a version. -/
def version? (cs : List Char) : Option (Directive × List Char) := do
  let (major, rest) ← versionNumber? cs
  if rest.head? ≠ some '.' then none
  let (minor, rest) ← versionNumber? rest.tail
  return (.version major minor, rest)

/-- Reads a handle. Only the shortest one may be a single exclamation mark. -/
def handle? : List Char → Option (String × List Char)
  | '!' :: cs =>
    let word := cs.takeWhile isWord
    match cs.dropWhile isWord with
    | '!' :: rest => some ("!" ++ String.ofList word ++ "!", rest)
    | rest => if word.isEmpty then some ("!", rest) else none
  | _ => none

/-- Reads a handle and what it stands for. -/
def handleMeaning? (cs : List Char) : Option (Directive × List Char) := do
  let (name, rest) ← handle? cs
  if !rest.head?.any isBlank then none
  let (octets, rest) ← someOctets? true (rest.dropWhile isBlank)
  if endsToken rest then some (.handle name octets, rest) else none

/-- Reads a directive after its percent sign, and the end of its line. -/
def directive? (cs : List Char) : Option (Directive × List Char) := do
  let name := String.ofList (cs.takeWhile isWord)
  let rest := cs.dropWhile isWord
  if !endsToken rest then none
  let rest := rest.dropWhile isBlank
  let (directive, rest) ←
    if name = "YAML" then version? rest
    else if name = "TAG" then handleMeaning? rest
    else none
  let rest ← lineEnd? rest
  return (directive, rest.tail)

/-! ## Handles -/

/-- What the handles of tags stand for. -/
abbrev Handles := List (String × List UInt8)

/-- The octets of a text. -/
def octetsOf (s : String) : List UInt8 := s.toUTF8.toList

/-- The handles that every document has, unless it gives them another meaning. -/
def Handles.standard : Handles := [("!", octetsOf "!"), ("!!", octetsOf "tag:yaml.org,2002:")]

/-- The versions of the notation that can be read. -/
def isKnownVersion (major minor : Nat) : Bool := major = 1 && (minor = 1 || minor = 2)

/-- The handles that directives give a meaning to. There is one version at most, a known one, and no
handle gets two meanings. -/
def Handles.given? : (versioned : Bool) → Handles → List Directive → Option Handles
  | _, handles, [] => some handles
  | versioned, handles, .version major minor :: directives =>
    if versioned || !isKnownVersion major minor then none
    else given? true handles directives
  | versioned, handles, .handle name octets :: directives =>
    if (handles.lookup name).isSome then none
    else given? versioned ((name, octets) :: handles) directives

/-- The handles of a document. -/
def Handles.ofDirectives? (directives : List Directive) : Option Handles :=
  (· ++ standard) <$> given? false [] directives

/-- The octets of a tag, if its handle has a meaning. -/
def Tag.octets? (handles : Handles) (tag : Tag) : Option (List UInt8) :=
  if tag.handle.isEmpty then some tag.rest else (· ++ tag.rest) <$> handles.lookup tag.handle

end BattleOdds.YamlText
