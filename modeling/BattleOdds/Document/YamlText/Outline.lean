import BattleOdds.Document.Node
import BattleOdds.Document.YamlText.Directive

/-!
# Outlines of YAML documents

An outline is a document as it is written: its aliases are names yet. `Outline.node` puts the nodes
in their places. An alias may stand within the node that it refers to, and then the document has no
end; it is followed as far as anything can be read from it.

Anchors are numbered, and it is by number that a node is found. A number is how many names there are
before it, so an anchor that takes up an old name can have the number of a later one, and then the
last node with the number is found.
-/
namespace BattleOdds.YamlText

/-- How a scalar is written. -/
inductive ScalarStyle
  | plain | quoted | literal
deriving DecidableEq

/-- What stands before a node. Anchors are names, or numbers once they have been numbered. -/
structure Properties (Anchor : Type) where
  anchor : Option Anchor := none
  /-- The octets of the tag. -/
  tag : Option (List UInt8) := none

/-- A node as it is written. -/
inductive Outline (Anchor : Type)
  | alias (anchor : Anchor)
  | scalar (properties : Properties Anchor) (style : ScalarStyle) (s : String)
  | list (properties : Properties Anchor) (items : List (Outline Anchor))
  | record (properties : Properties Anchor) (members : List (Outline Anchor × Outline Anchor))

namespace Outline

/-! ## Size -/

mutual

/-- The number of marks that an outline is made of: containers have two, and all else one. -/
def size : Outline Anchor → Nat
  | .alias _ => 1
  | .scalar .. => 1
  | .list _ items => sizeOfItems items + 2
  | .record _ members => sizeOfMembers members + 2

def sizeOfItems : List (Outline Anchor) → Nat
  | [] => 0
  | item :: items => item.size + sizeOfItems items

def sizeOfMembers : List (Outline Anchor × Outline Anchor) → Nat
  | [] => 0
  | (key, value) :: members => key.size + value.size + sizeOfMembers members

end

/-! ## Numbers of anchors -/

/-- The names that anchors have had so far, each with the number of the last of them. -/
abbrev Names := List (String × Nat)

/-- Numbers an anchor. -/
def Names.add (names : Names) (name : String) : Names :=
  (name, names.length) :: names.filter fun other => other.1 ≠ name

/-- Numbers the anchor before a node. -/
def numberedProperties (names : Names) (properties : Properties String) : Properties Nat × Names :=
  match properties.anchor with
  | none => ({ tag := properties.tag }, names)
  | some name => ({ anchor := some names.length, tag := properties.tag }, names.add name)

mutual

/-- Numbers the anchors of an outline, and its aliases with them. An alias refers to an anchor that
comes before it, and of two with its name to the later one. -/
def numbered? (names : Names) : Outline String → Option (Outline Nat × Names)
  | .alias name => (fun number => (.alias number, names)) <$> names.lookup name
  | .scalar properties style s =>
    let (properties, names) := numberedProperties names properties
    some (.scalar properties style s, names)
  | .list properties items => do
    let (properties, names) := numberedProperties names properties
    let (items, names) ← numberedItems? names items
    return (.list properties items, names)
  | .record properties members => do
    let (properties, names) := numberedProperties names properties
    let (members, names) ← numberedMembers? names members
    return (.record properties members, names)

def numberedItems? (names : Names) : List (Outline String) → Option (List (Outline Nat) × Names)
  | [] => some ([], names)
  | item :: items => do
    let (item, names) ← item.numbered? names
    let (items, names) ← numberedItems? names items
    return (item :: items, names)

def numberedMembers? (names : Names) :
    List (Outline String × Outline String) → Option (List (Outline Nat × Outline Nat) × Names)
  | [] => some ([], names)
  | (key, value) :: members => do
    let (key, names) ← key.numbered? names
    let (value, names) ← value.numbered? names
    let (members, names) ← numberedMembers? names members
    return ((key, value) :: members, names)

end

/-- The number of the anchor of an outline. -/
def anchor? : Outline Nat → Option Nat
  | .alias _ => none
  | .scalar properties .. => properties.anchor
  | .list properties _ => properties.anchor
  | .record properties _ => properties.anchor

mutual

/-- The outlines with anchors in an outline, in the order of the document. -/
def anchored (outline : Outline Nat) : List (Nat × Outline Nat) :=
  let inner := match outline with
    | .list _ items => anchoredItems items
    | .record _ members => anchoredMembers members
    | _ => []
  match outline.anchor? with
  | some number => (number, outline) :: inner
  | none => inner

def anchoredItems : List (Outline Nat) → List (Nat × Outline Nat)
  | [] => []
  | item :: items => item.anchored ++ anchoredItems items

def anchoredMembers : List (Outline Nat × Outline Nat) → List (Nat × Outline Nat)
  | [] => []
  | (key, value) :: members => key.anchored ++ value.anchored ++ anchoredMembers members

end

/-- The outline that each number finds, the last one with it. -/
def targets (outline : Outline Nat) : Array (Outline Nat) :=
  let anchored := outline.anchored
  anchored.foldl (fun targets (number, target) => targets.setIfInBounds number target)
    (Array.replicate anchored.length (.scalar {} .plain ""))

end Outline

/-! ## Nodes -/

/-- The tags of the notation for types of scalars, by their last parts. -/
def scalarLabels : List (String × Label) :=
  [("null", .null), ("bool", .flag), ("int", .whole), ("float", .figure)]

/-- What the octets of a tag say. One that only the reader knows begins with an exclamation mark,
which is not part of its name unless it is all of it. -/
def labelOf (octets : List UInt8) : Label :=
  if octets.head? = some (octetOf '!') then
    let name := if octets.length = 1 then octets else octets.tail
    match String.fromUTF8? ⟨name.toArray⟩ with
    | some name => .own name
    | none => .nameless
  else
    let meant? := scalarLabels.find? fun (name, _) =>
      octets = octetsOf ("tag:yaml.org,2002:" ++ name)
    meant?.elim .other Prod.snd

/-- A node with its tag. -/
def Properties.put (properties : Properties Anchor) (node : Node) : Node :=
  match properties.tag with
  | some octets => .labelled (labelOf octets) node
  | none => node

namespace ScalarStyle

/-- The node of a scalar. -/
def node : ScalarStyle → String → Node
  | plain => .plain
  | quoted => .text
  | literal => .literal

end ScalarStyle

namespace Outline

mutual

/-- The node of an outline, given the nodes for its aliases. -/
def nodeWith (aliases : Array Node) : Outline Nat → Node
  | .alias number => aliases[number]?.getD .broken
  | .scalar properties style s => properties.put (style.node s)
  | .list properties items => properties.put (.list (itemNodes aliases items) true)
  | .record properties members => properties.put (.record (memberNodes aliases members) true)

def itemNodes (aliases : Array Node) : List (Outline Nat) → List Node
  | [] => []
  | item :: items => item.nodeWith aliases :: itemNodes aliases items

def memberNodes (aliases : Array Node) : List (Outline Nat × Outline Nat) → List (Node × Node)
  | [] => []
  | (key, value) :: members =>
    (key.nodeWith aliases, value.nodeWith aliases) :: memberNodes aliases members

end

/-- The nodes for the aliases, if they are followed `links` times in a row. -/
def aliasNodes (targets : Array (Outline Nat)) : (links : Nat) → Array Node
  | 0 => #[]
  | links + 1 =>
    let aliases := aliasNodes targets links
    targets.map fun target =>
      let node := target.nodeWith aliases
      .alias node (node.steps + 1)

/-- The most aliases that are followed in a row. Each leads into a container or ends at a scalar, so
no more fit into the levels that a node can have. -/
def maxLinks : Nat := 130

/-- The node of an outline. Aliases in a row lead to as many anchors, unless they go in a circle. -/
def node (outline : Outline Nat) : Node :=
  let targets := outline.targets
  outline.nodeWith (aliasNodes targets (min maxLinks (targets.size + 1)))

end Outline

end BattleOdds.YamlText
