import BattleOdds.Document.Plain

/-!
# Nodes

A document is read into a node first, whatever its notation, and the node is then decoded member by
member. A notation that breaks off leaves a node all the same: its last containers are not closed,
so that decoding finds the misfits that come before the break, and the break where it is.

A notation may let a place repeat what stands at another one, and it may label a node with its type.
What an alias or a label changes depends on what its place wants, so nodes keep both.
-/
namespace BattleOdds

/-- What a document says of the type of a node. -/
inductive Label
  | null
  | flag
  | whole
  | figure
  /-- A type that only the reader of the document knows. -/
  | own (name : String)
  /-- The same, with a name that is no text. -/
  | nameless
  /-- Any other type of the notation. -/
  | other
deriving DecidableEq

/-- What a document holds at one place. -/
inductive Node
  | null
  | bool (b : Bool)
  | integer (i : Int)
  | figure (x : Binary64)
  | text (s : String)
  /-- A text without quotes, whose type follows from what its place wants. -/
  | plain (s : String)
  /-- A text whose lines stand as they are written. -/
  | literal (s : String)
  | list (items : List Node) (closed : Bool)
  /-- The members of a record in the order of the document. Names may be any nodes. -/
  | record (members : List (Node × Node)) (closed : Bool)
  | labelled (label : Label) (node : Node)
  /-- A node that stands elsewhere. To read it with all the aliases in it takes so many `steps`, one
  for each alias. -/
  | alias (node : Node) (steps : Nat)
  /-- A number out of range, or a text with half of a surrogate pair: it does no harm where nothing
  reads it. -/
  | unusable
  /-- The place at which the document breaks off. -/
  | broken
deriving Inhabited

namespace Node

/-! ## Aliases and labels -/

/-- The node that is meant: for an alias the one that it stands for. -/
def target : Node → Node
  | .alias node _ => node
  | node => node

/-- The node that is meant, without its label. -/
def bare (node : Node) : Node :=
  match node.target with
  | .labelled _ node => node
  | node => node

/-- The name of the label that only the reader of the document knows. -/
def ownLabel? (node : Node) : Option String :=
  match node.target with
  | .labelled (.own name) _ => some name
  | _ => none

/-- The text of a scalar that is written as one, whatever its label. -/
def word? (node : Node) : Option String :=
  match node.bare with
  | .text s => some s
  | .plain s => some s
  | .literal s => some s
  | _ => none

/-- The text of a scalar that may be more than a text: it has no quotes, whatever its label, or its
lines stand as they are and it has the label that is wanted. -/
def unquoted? (label : Label) (node : Node) : Option String :=
  match node.target with
  | .plain s => some s
  | .labelled _ (.plain s) => some s
  | .labelled own (.literal s) => if own = label then some s else none
  | _ => none

mutual

/-- The number of steps that the aliases in a node take. -/
def steps : Node → Nat
  | .list items _ => itemsSteps items
  | .record members _ => membersSteps members
  | .labelled _ node => node.steps
  | .alias _ steps => steps
  | _ => 0

def itemsSteps : List Node → Nat
  | [] => 0
  | item :: items => item.steps + itemsSteps items

def membersSteps : List (Node × Node) → Nat
  | [] => 0
  | (key, value) :: members => key.steps + value.steps + membersSteps members

end

/-! ## Nodes that are passed over -/

mutual

/-- Whether a node is whole, so that it can be passed over. An alias is, whatever it stands for. -/
def intact : Node → Bool
  | .list items closed => intactItems items && closed
  | .record members closed => intactMembers members && closed
  | .labelled _ node => node.intact
  | .broken => false
  | _ => true

def intactItems : List Node → Bool
  | [] => true
  | item :: items => item.intact && intactItems items

def intactMembers : List (Node × Node) → Bool
  | [] => true
  | (key, value) :: members => key.intact && value.intact && intactMembers members

end

/-! ## Nodes that are kept -/

/-- The whole number that a text names, if it fits into 64 bits. -/
def integer? (s : String) : Option Node :=
  ((Plain.int? s).filter fun i => fitsUnsigned 64 i || fitsSigned 64 i).map .integer

/-- A plain text as what it means where nothing is known of its place. A whole number that is too
wide for 64 bits but not for 128 cannot be kept, and digits after a needless zero are a text. -/
def ofPlain? (s : String) : Option Node :=
  if s.isEmpty || Plain.isNull s then some .null
  else if Plain.isWide s then none
  else
    let figure := if Plain.isPadded s then none else (Plain.figure? s).map .figure
    let flag := (Plain.bool? s).map .bool
    flag <|> integer? s <|> figure <|> some (.text s)

/-- A scalar with a label as what it means where nothing is known of its place: a label that names a
type of scalars asks for one of these, whether there are quotes or not. -/
def ofLabelled? (label : Label) (scalar : Node) (s : String) : Option Node :=
  match label, scalar with
  | .null, _ => if Plain.isNull s then some .null else none
  | .flag, _ => (Plain.bool? s).map .bool
  | .whole, _ => integer? s
  | .figure, _ => (Plain.figure? s).map .figure
  | .own _, _ => none
  | .nameless, .plain _ => ofPlain? s
  | _, _ => some (.text s)

/-- What the name of a member is kept as, given what it would be kept as elsewhere. A number that is
written with a minus sign stands for no position, not even a zero, and so it is kept as a figure. -/
def asName (name held : Node) : Node :=
  match held with
  | .integer i => if name.word?.any (·.startsWith "-") then .figure (.ofInt i) else held
  | _ => held

mutual

/-- A node as it is kept for later, when it is not yet known what its place wants: plain texts take
the type that they have by themselves. Only a usable node can be kept, and only `depth` levels of
it; what has a type that only the reader knows cannot. -/
def held? (depth : Nat) : Node → Option Node
  | .plain s => ofPlain? s
  | .literal s => some (.text s)
  | .unusable => none
  | .broken => none
  | .alias node _ => node.held? depth
  | .labelled label node =>
    match label, node.word? with
    | label, some s => ofLabelled? label node s
    | .own _, none => none
    | _, none => node.held? depth
  | .list items closed =>
    if depth = 0 || !closed then none
    else (fun items => .list items true) <$> heldItems? (depth - 1) items
  | .record members closed =>
    if depth = 0 || !closed then none
    else (fun members => .record members true) <$> heldMembers? (depth - 1) members
  | node => some node

def heldItems? (depth : Nat) : List Node → Option (List Node)
  | [] => some []
  | item :: items => do
    let item ← item.held? depth
    let items ← heldItems? depth items
    return item :: items

def heldMembers? (depth : Nat) : List (Node × Node) → Option (List (Node × Node))
  | [] => some []
  | (key, value) :: members => do
    let key ← key.asName <$> key.held? depth
    let value ← value.held? depth
    let members ← heldMembers? depth members
    return (key, value) :: members

end

end Node

end BattleOdds
