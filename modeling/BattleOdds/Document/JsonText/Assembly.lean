import BattleOdds.Document.JsonText.Token

/-!
# Nodes from JSON tokens

The tokens are taken one by one. The containers that are open stand on a stack of frames, the inner
ones first, and `Awaiting` says what may come next. Where a token may not come, the containers on
the stack are left open, and a member that has a name but no value yet gets a broken one.
-/
namespace BattleOdds

/-- A document that has been read. -/
structure Document where
  root : Node
  /-- Whether nothing but blanks follows the node. -/
  clean : Bool

namespace JsonText

/-- An open container: what it holds so far, the last first, and the name of a member whose value
has not come yet. -/
inductive Frame
  | list (items : List Node)
  | record (members : List (Node × Node)) (key : Option Node)

namespace Frame

/-- The container, left open. -/
def unclosed : Frame → Node
  | list items => .list items.reverse false
  | record members none => .record members.reverse false
  | record members (some key) => .record ((key, .broken) :: members).reverse false

/-- Adds a node: as an item, or as the value of the member whose name has come. -/
def put (node : Node) : Frame → Frame
  | list items => list (node :: items)
  | record members none => record members none
  | record members (some key) => record ((key, node) :: members) none

end Frame

/-- What may come next. -/
inductive Awaiting
  | value | valueOrEnd | key | keyOrEnd | colon | separator
deriving DecidableEq

/-- What a token leads to. -/
inductive Step
  | more (awaiting : Awaiting) (frames : List Frame)
  /-- The outermost node is complete. -/
  | done (node : Node)
  /-- The text breaks off. -/
  | stop (frames : List Frame)

/-- A node is complete: it goes into the innermost open container. -/
def complete (node : Node) : List Frame → Step
  | [] => .done node
  | frame :: frames => .more .separator (frame.put node :: frames)

/-- A token where a value may come. -/
def stepValue (frames : List Frame) : Token → Step
  | .openList => .more .valueOrEnd (.list [] :: frames)
  | .openRecord => .more .keyOrEnd (.record [] none :: frames)
  | .text node => complete node frames
  | .scalar node => complete node frames
  | _ => .stop frames

/-- A token where the name of a member may come. Only a text in quotes is one; any other node is
kept as the name of a broken value. -/
def stepKey (members : List (Node × Node)) (frames : List Frame) : Token → Step
  | .text node => .more .colon (.record members (some node) :: frames)
  | .scalar node => .stop (.record members (some node) :: frames)
  | .openList => .stop (.record members (some (.list [] false)) :: frames)
  | .openRecord => .stop (.record members (some (.record [] false)) :: frames)
  | _ => .stop (.record members none :: frames)

/-- A token that ends the innermost container or leads to its next element. -/
def stepSeparator (frames : List Frame) (token : Token) : Step :=
  match token, frames with
  | .comma, .list _ :: _ => .more .value frames
  | .comma, .record .. :: _ => .more .key frames
  | .closeList, .list items :: frames => complete (.list items.reverse true) frames
  | .closeRecord, .record members none :: frames => complete (.record members.reverse true) frames
  | _, _ => .stop frames

/-- Takes one token. -/
def step (awaiting : Awaiting) (frames : List Frame) (token : Token) : Step :=
  match awaiting, token, frames with
  | .value, token, _ => stepValue frames token
  | .valueOrEnd, .closeList, _ => stepSeparator frames token
  | .valueOrEnd, token, _ => stepValue frames token
  | .keyOrEnd, .closeRecord, _ => stepSeparator frames token
  | .keyOrEnd, token, .record members _ :: frames => stepKey members frames token
  | .key, token, .record members _ :: frames => stepKey members frames token
  | .colon, .colon, _ => .more .value frames
  | .separator, token, _ => stepSeparator frames token
  | _, _, _ => .stop frames

/-- The node of a text that breaks off. -/
def abandon : List Frame → Node
  | [] => .broken
  | frame :: frames => frames.foldl (fun node outer => (outer.put node).unclosed) frame.unclosed

/-- The document that tokens make up. -/
def assemble (awaiting : Awaiting) (frames : List Frame) : List Token → Document
  | [] => ⟨abandon frames, false⟩
  | token :: tokens =>
    match step awaiting frames token with
    | .more awaiting frames => assemble awaiting frames tokens
    | .done node => ⟨node, tokens.isEmpty⟩
    | .stop frames => ⟨abandon frames, false⟩

end JsonText

/-- Reads a JSON text. -/
def Document.ofJson (s : String) : Document :=
  JsonText.assemble .value [] (JsonText.scan s.toList)

end BattleOdds
