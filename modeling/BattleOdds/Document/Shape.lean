import BattleOdds.Document.Misfit

/-!
# Shapes

A shape lists the members of a type in order, and says of each how it is read. A document gives the
members of a value by name, or without names as a list in the order of the shape. Members that it
does not give keep the values of `blank`, unless they are required.
-/
namespace BattleOdds

/-- Where a node stands. -/
inductive Origin
  /-- In a JSON document. -/
  | json
  /-- In a YAML document, where a node that is kept may take so many steps to read. -/
  | yaml (maxSteps : Nat)
  /-- Among the members of an action, which are kept until its type is known. -/
  | held
deriving DecidableEq

/-- A way to read a value from a node. -/
abbrev Reader (α : Type) := Origin → Node → Except Fault α

/-- A member of a type. -/
structure Field (α : Type) where
  name : String
  required : Bool
  /-- Reads the member from its node and puts it into a value. -/
  read : Origin → Node → α → Except Fault α

namespace Field

/-- A member that has a value of its own where a document does not give it. -/
def optional (name : String) (read : Reader β) (put : β → α → α) : Field α where
  name
  required := false
  read origin node a := (put · a) <$> read origin node

/-- A member that a document must give. -/
def mandatory (name : String) (read : Reader β) (put : β → α → α) : Field α :=
  { optional name read put with required := true }

end Field

/-- The members of a type, in order. -/
structure Shape (α : Type) where
  /-- The type as messages name it. -/
  name : String
  /-- A value before its members are read. What it holds for a required member is never seen. -/
  blank : α
  fields : List (Field α)

namespace Shape

/-- The member that a name stands for, if the name can be used at all. Any scalar is a name in YAML,
and a kept name that is a number stands for the member at that position. -/
def field? (shape : Shape α) (origin : Origin) (key : Node) : Except Fault (Option (Field α)) :=
  let named (name : String) := shape.fields.find? fun field => field.name == name
  match origin, key with
  | .yaml _, key =>
    match key.word? with
    | some name => .ok (named name)
    | none => .error .broken
  | _, .text name => .ok (named name)
  | .held, .integer (.ofNat position) => .ok shape.fields[position]?
  | _, _ => .error .broken

/-- Reads members by name, in the order of the document, of which those in `given` have been read.
Unknown members are passed over. -/
def ofMembers (shape : Shape α) (origin : Origin) (closed : Bool) :
    List (Node × Node) → List String → α → Except Fault α
  | [], given, a =>
    if !closed then .error .broken
    else match shape.fields.find? fun field => field.required && !given.contains field.name with
      | some field => .error (.misfit (.missingMember field.name))
      | none => .ok a
  | (key, value) :: members, given, a => do
    match ← shape.field? origin key with
    | none =>
      if value.intact then shape.ofMembers origin closed members given a else .error .broken
    | some field =>
      if given.contains field.name then .error (.misfit (.repeatedMember field.name))
      let a ← field.read origin value a
      shape.ofMembers origin closed members (field.name :: given) a

/-- Reads members from a list, of which the first `count` have been read; the others are `fields`. A
kept list that is too long is a misfit, a list in a document breaks off where it should end. -/
def ofItems (shape : Shape α) (origin : Origin) (closed : Bool) :
    (fields : List (Field α)) → (count : Nat) → List Node → α → Except Fault α
  | [], _, [], a =>
    if closed then .ok a else .error .broken
  | [], count, items@(_ :: _), _ =>
    match origin with
    | .held => .error (.misfit (.wrongLength (count + items.length) (.items count)))
    | _ => .error .broken
  | fields@(_ :: _), count, [], a =>
    if !closed then .error .broken
    else match fields.findIdx? (·.required) with
      | some more =>
        let all : Wanted := .members shape.name shape.fields.length
        .error (.misfit (.wrongLength (count + more) all))
      | none => .ok a
  | field :: fields, count, item :: items, a => do
    let a ← field.read origin item a
    shape.ofItems origin closed fields (count + 1) items a

/-- Reads a value of the shape, with any label. A list is one in JSON only; an empty place is one in
YAML only, and gives no members. -/
def read (shape : Shape α) : Reader α := fun origin node =>
  match origin, node.bare with
  | _, .record members closed => shape.ofMembers origin closed members [] shape.blank
  | .json, .list items closed => shape.ofItems origin closed shape.fields 0 items shape.blank
  | .held, .list items closed => shape.ofItems origin closed shape.fields 0 items shape.blank
  | .yaml _, .plain "" => shape.ofMembers origin true [] [] shape.blank
  | _, node => node.refuse (.type shape.name)

end Shape

/-! ## Values without members -/

namespace Node

/-- Reads a whole number of a range. In YAML only a range with negative numbers takes a minus sign.
-/
def whole (range : WholeRange) : Reader Int := fun _ node =>
  let wanted : Wanted := .whole range
  match node, node.unquoted? .whole with
  | .integer i, _ =>
    if range.holds i then .ok i else .error (.misfit (.wrongValue (.integer i) wanted))
  | node, some s =>
    let read := if range = .signed64 then Plain.int? s else Int.ofNat <$> Plain.nat? s
    match read.filter range.holds with
    | some i => .ok i
    | none => node.refuse wanted
  | node, none => node.refuse wanted

/-- Reads a figure; a whole number is one, too. -/
def toFigure : Reader Binary64 := fun _ node =>
  match node, (node.unquoted? .figure).bind Plain.figure? with
  | .figure x, _ => .ok x
  | .integer i, _ => .ok (.ofInt i)
  | _, some x => .ok x
  | node, none => node.refuse .figure

/-- Reads a flag. -/
def flag : Reader Bool := fun _ node =>
  match node, (node.unquoted? .flag).bind Plain.bool? with
  | .bool b, _ => .ok b
  | _, some b => .ok b
  | node, none => node.refuse .flag

/-- Reads a value that may be absent. Where a label says that it is, it has to be, and any other one
says that there is a value. -/
def optional (read : Reader α) : Reader (Option α) := fun origin node =>
  match node.target with
  | .null => .ok none
  | .plain s => if s.isEmpty || Plain.isNull s then .ok none else some <$> read origin node
  | .labelled .null (.plain s) => if Plain.isNull s then .ok none else node.refuse .nothing
  | _ => some <$> read origin node

def word64 : Reader UInt64 := fun origin node =>
  (fun i => UInt64.ofInt i) <$> node.whole .word64 origin

end Node

end BattleOdds
