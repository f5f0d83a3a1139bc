import BattleOdds.Document.YamlText.Layout
import BattleOdds.Document.YamlText.Outline

/-!
# Outlines from YAML tokens

Where a node may be missing it is an empty plain scalar, and an anchor or a tag alone stands before
one. Block collections are opened and ended by tokens of their own, but a list may also stand at the
column of the member that it is the value of, and then only its dashes mark it.
-/
namespace BattleOdds

namespace YamlText

namespace Properties

/-- Whether nothing stands before a node. -/
def isEmpty (properties : Properties Anchor) : Bool :=
  properties.anchor.isNone && properties.tag.isNone

/-- Takes what stands before a node: an anchor and a tag, in any order. -/
def take? (handles : Handles) : List Token → Option (Properties String × List Token)
  | .anchor name :: .tag tag :: tokens => do
    return ({ anchor := some name, tag := some (← tag.octets? handles) }, tokens)
  | .anchor name :: tokens => some ({ anchor := some name }, tokens)
  | .tag tag :: .anchor name :: tokens => do
    return ({ anchor := some name, tag := some (← tag.octets? handles) }, tokens)
  | .tag tag :: tokens => do
    return ({ tag := some (← tag.octets? handles) }, tokens)
  | tokens => some ({}, tokens)

/-- What stands before a scalar. A single exclamation mark says no more than that it is one. -/
def ofScalar (properties : Properties Anchor) : Properties Anchor :=
  if properties.tag = some [octetOf '!'] then { properties with tag := none } else properties

end Properties

/-- A node where there is none. -/
def Outline.absent : Outline Anchor := .scalar {} .plain ""

variable (handles : Handles)

mutual

/-- Reads a node. In flow collections it is no block; as the value of a member it may be a list that
only dashes mark. Each call takes one from `fuel`, and of five calls one takes a token at least. -/
def node? (fuel : Nat) (block dashes : Bool) (tokens : List Token) :
    Option (Outline String × List Token) :=
  match fuel, tokens with
  | 0, _ => none
  | _, .alias name :: tokens => some (.alias name, tokens)
  | fuel + 1, tokens => do
    let (properties, tokens) ← Properties.take? handles tokens
    match block, dashes, tokens with
    | _, _, .plain s :: tokens => return (.scalar properties.ofScalar .plain s, tokens)
    | _, _, .quoted s :: tokens => return (.scalar properties.ofScalar .quoted s, tokens)
    | _, _, .literal s :: tokens => return (.scalar properties.ofScalar .literal s, tokens)
    | _, _, .openList :: tokens => do
      let (items, tokens) ← flowItems? fuel true tokens
      return (.list properties items, tokens)
    | _, _, .openRecord :: tokens => do
      let (members, tokens) ← flowMembers? fuel true tokens
      return (.record properties members, tokens)
    | true, _, .blockList :: tokens => do
      let (items, tokens) ← blockItems? fuel tokens
      return (.list properties items, tokens)
    | true, _, .blockRecord :: tokens => do
      let (members, tokens) ← blockMembers? fuel tokens
      return (.record properties members, tokens)
    | _, true, .entry :: tokens => do
      let (items, tokens) ← dashItems? fuel (.entry :: tokens)
      return (.list properties items, tokens)
    | _, _, tokens =>
      if properties.isEmpty then none else some (.scalar properties .plain "", tokens)

/-- Reads a node that may be missing: it is if one of `ends` comes next. -/
def nodeOr? (fuel : Nat) (block dashes : Bool) (ends : List Token) (tokens : List Token) :
    Option (Outline String × List Token) :=
  match fuel with
  | 0 => none
  | fuel + 1 =>
    if tokens.head?.any ends.contains then some (.absent, tokens)
    else node? fuel block dashes tokens

/-- Reads the value of a member, after its name; without a colon it is missing. -/
def value? (fuel : Nat) (block dashes : Bool) (ends : List Token) (tokens : List Token) :
    Option (Outline String × List Token) :=
  match fuel, tokens with
  | 0, _ => none
  | fuel + 1, .value :: tokens => nodeOr? fuel block dashes ends tokens
  | _, tokens => some (.absent, tokens)

/-- Reads the items of a block, up to its end. -/
def blockItems? (fuel : Nat) (tokens : List Token) : Option (List (Outline String) × List Token) :=
  match fuel, tokens with
  | _, .blockEnd :: tokens => some ([], tokens)
  | fuel + 1, .entry :: tokens => do
    let (item, tokens) ← nodeOr? fuel true false [.entry, .blockEnd] tokens
    let (items, tokens) ← blockItems? fuel tokens
    return (item :: items, tokens)
  | _, _ => none

/-- Reads items as long as there are dashes. -/
def dashItems? (fuel : Nat) (tokens : List Token) : Option (List (Outline String) × List Token) :=
  match fuel, tokens with
  | 0, _ => none
  | fuel + 1, .entry :: tokens => do
    let (item, tokens) ← nodeOr? fuel true false [.entry, .key, .value, .blockEnd] tokens
    let (items, tokens) ← dashItems? fuel tokens
    return (item :: items, tokens)
  | _, tokens => some ([], tokens)

/-- Reads the members of a block, up to its end. -/
def blockMembers? (fuel : Nat) (tokens : List Token) :
    Option (List (Outline String × Outline String) × List Token) :=
  match fuel, tokens with
  | _, .blockEnd :: tokens => some ([], tokens)
  | fuel + 1, .key :: tokens => do
    let (key, tokens) ← nodeOr? fuel true true [.key, .value, .blockEnd] tokens
    let (value, tokens) ← value? fuel true true [.key, .value, .blockEnd] tokens
    let (members, tokens) ← blockMembers? fuel tokens
    return ((key, value) :: members, tokens)
  | _, _ => none

/-- Reads the items of a flow list, up to its end. A comma comes before all items but the first, and
may come before the end. A name makes its item a record with one member; where the name is missing,
the token that shows it is passed over with it. -/
def flowItems? (fuel : Nat) (first : Bool) (tokens : List Token) :
    Option (List (Outline String) × List Token) :=
  match fuel, first, tokens with
  | _, _, .closeList :: tokens => some ([], tokens)
  | fuel + 1, false, .comma :: tokens => flowItems? fuel true tokens
  | fuel + 1, true, .key :: tokens => do
    let nameless := tokens.head?.any [.value, .comma, .closeList].contains
    let (key, tokens) ←
      if nameless then some (.absent, tokens.tail) else node? fuel false false tokens
    let (value, tokens) ← value? fuel false false [.comma, .closeList] tokens
    let (items, tokens) ← flowItems? fuel false tokens
    return (.record {} [(key, value)] :: items, tokens)
  | fuel + 1, true, tokens => do
    let (item, tokens) ← node? fuel false false tokens
    let (items, tokens) ← flowItems? fuel false tokens
    return (item :: items, tokens)
  | _, _, _ => none

/-- Reads the members of a flow record, up to its end. A node that is no name stands for a member
without a value. -/
def flowMembers? (fuel : Nat) (first : Bool) (tokens : List Token) :
    Option (List (Outline String × Outline String) × List Token) :=
  match fuel, first, tokens with
  | _, _, .closeRecord :: tokens => some ([], tokens)
  | fuel + 1, false, .comma :: tokens => flowMembers? fuel true tokens
  | fuel + 1, true, .key :: tokens => do
    let (key, tokens) ← nodeOr? fuel false false [.value, .comma, .closeRecord] tokens
    let (value, tokens) ← value? fuel false false [.comma, .closeRecord] tokens
    let (members, tokens) ← flowMembers? fuel false tokens
    return ((key, value) :: members, tokens)
  | fuel + 1, true, tokens => do
    let (key, tokens) ← node? fuel false false tokens
    let (members, tokens) ← flowMembers? fuel false tokens
    return ((key, .absent) :: members, tokens)
  | _, _, _ => none

end

/-- Takes the directives before a document. -/
def takeDirectives : List Token → List Directive × List Token
  | .directive directive :: tokens =>
    let (directives, tokens) := takeDirectives tokens
    (directive :: directives, tokens)
  | tokens => ([], tokens)

/-- Reads the only document of a text. After directives its start has to be marked, and without any
token it is an empty node. -/
def outline? (tokens : List Token) : Option (Outline String) := do
  let (directives, tokens) := takeDirectives tokens
  let handles ← Handles.ofDirectives? directives
  let fuel := 5 * tokens.length + 5
  let (root, rest) ← match directives, tokens with
    | [], [] => some (.absent, [])
    | _, [.documentStart] => some (.absent, [])
    | _, .documentStart :: tokens =>
      nodeOr? handles fuel true false [.documentStart, .documentEnd] tokens
    | [], tokens => node? handles fuel true false tokens
    | _, _ => none
  if (rest.dropWhile (· = .documentEnd)).isEmpty then some root else none

end YamlText

/-- A YAML document that has been read. -/
structure YamlDocument where
  root : Node
  /-- How many steps a kept node may take to read. -/
  maxSteps : Nat

/-- Reads a YAML text, of one document. Aliases can make a short text endless, so the steps that may
be taken to read it are as many as a hundred times its size. -/
def YamlDocument.ofText? (s : String) : Option YamlDocument := do
  let tokens ← YamlText.scan? s
  let outline ← YamlText.outline? tokens.toList
  let (numbered, _) ← outline.numbered? []
  return { root := numbered.node, maxSteps := 100 * outline.size }

end BattleOdds
