import BattleOdds.Document.Shape
import BattleOdds.Run

/-!
# Requests and settings from documents

How each type that a document can hold is read from a node. The members of an action are kept until
all have come, because the one that says which action it is may be the last.
-/
namespace BattleOdds

/-- A type that a document can hold. -/
class FromNode (α : Type) where
  read : Reader α

/-! ## Tags -/

namespace Tagged

/-- The choice that a word names, or else a misfit. -/
def ofWord [Tagged α] (w : String) : Except Fault α :=
  match ofWord? w with
  | some a => .ok a
  | none => .error (.misfit (.unknownTag w (words α)))

/-- Reads the word of a tag. A kept number stands for the tag at that position. -/
def ofIdentifier [Tagged α] : Reader α := fun origin node =>
  match origin, node with
  | .yaml _, node =>
    match node.word? with
    | some w => ofWord w
    | none => node.refuse .tag
  | _, .text w => ofWord w
  | .held, .integer (.ofNat position) =>
    match (all : List α)[position]? with
    | some a => .ok a
    | none => node.refuse .tag
  | _, node => node.refuse .tag

/-- Reads nothing at all. A kept record without members is nothing, too. -/
def nothing : Reader Unit := fun origin node =>
  match origin, node with
  | _, .null => .ok ()
  | .held, .record [] _ => .ok ()
  | _, node => node.refuse .nothing

/-- Reads the tag that a YAML document gives, as its word or as the label of an empty place. -/
def ofYaml [Tagged α] (node : Node) : Except Fault α :=
  match node.target with
  | .labelled (.own w) content => do
    let a ← ofWord w
    match content with
    | .plain s => if s.isEmpty || Plain.isNull s then .ok a else content.refuse .nothing
    | content => content.refuse .nothing
  | _ =>
    match node.word? with
    | some w => ofWord w
    | none => .error .broken

/-- Reads a tag: its word, or, but not from a YAML document, a record with the word as the name of
nothing. Names in a JSON document are texts. -/
def read [Tagged α] : Reader α := fun origin node =>
  match origin, node with
  | .yaml _, node => ofYaml node
  | _, .text w => ofWord w
  | .json, .record ((.text w, value) :: others) closed => do
    let a ← ofWord w
    nothing origin value
    if others.isEmpty && closed then .ok a else .error .broken
  | .held, .record [(key, value)] _ => do
    let a ← ofIdentifier origin key
    nothing origin value
    .ok a
  | .held, .record .. => .error (.misfit (.wrongValue .record .tagRecord))
  | .held, node => node.refuse .tagForm
  | _, _ => .error .broken

end Tagged

instance [Tagged α] : FromNode α := ⟨Tagged.read⟩

/-! ## Records -/

def Profile.shape : Shape Profile where
  name := "struct NationCombatProfile"
  blank := {}
  fields :=
    [.optional "soldiers" Node.word64 fun n p => { p with soldiers := n },
      .optional "tanks" Node.word64 fun n p => { p with tanks := n },
      .optional "aircraft" Node.word64 fun n p => { p with aircraft := n },
      .optional "ships" Node.word64 fun n p => { p with ships := n },
      .optional "war_policy" Tagged.read fun policy p => { p with warPolicy := policy },
      .optional "is_fortified" Node.flag fun b p => { p with isFortified := b },
      .optional "money" (Node.optional Node.toFigure) fun x p => { p with money := x },
      .optional "cities" (Node.whole .word32) fun i p => { p with cities := UInt32.ofInt i },
      .optional "highest_city_infra" Node.toFigure fun x p => { p with highestCityInfra := x },
      .optional "highest_city_population" Node.toFigure
        fun x p => { p with highestCityPopulation := x },
      .optional "avg_infra" Node.toFigure fun x p => { p with averageInfra := x }]

def Context.shape : Shape Context where
  name := "struct CombatContext"
  blank := {}
  fields :=
    [.optional "war_type" Tagged.read fun kind c => { c with warType := kind },
      .optional "attacker_policy" Tagged.read fun policy c => { c with attackerPolicy := policy },
      .optional "defender_policy" Tagged.read fun policy c => { c with defenderPolicy := policy },
      .optional "air_superiority" Tagged.read fun holder c => { c with airSuperiority := holder },
      .optional "ground_control" Tagged.read fun holder c => { c with groundControl := holder },
      .optional "naval_blockade" Tagged.read fun holder c => { c with navalBlockade := holder },
      .optional "attacker_blitz" Node.flag fun b c => { c with attackerBlitz := b },
      .optional "defender_blitz" Node.flag fun b c => { c with defenderBlitz := b }]

def Prices.shape : Shape Prices where
  name := "struct ResourcePrices"
  blank := {}
  fields :=
    [.optional "gasoline" Node.toFigure fun x p => { p with gasoline := x },
      .optional "munitions" Node.toFigure fun x p => { p with munitions := x },
      .optional "steel" Node.toFigure fun x p => { p with steel := x },
      .optional "aluminum" Node.toFigure fun x p => { p with aluminum := x }]

def Settings.shape : Shape Settings where
  name := "struct Settings"
  blank := {}
  fields :=
    [.optional "prices" Prices.shape.read fun prices s => { s with prices },
      .optional "parallel" Node.flag fun b s => { s with parallel := b },
      .optional "workers" (Node.whole .size) fun i s => { s with workers := UInt64.ofInt i }]

/-! ## Actions -/

/-- How many levels of containers a document can have where nodes are kept. -/
def Origin.maxDepth : Origin → Nat
  | .json => 127
  | .yaml _ => 128
  | .held => 0

/-- Whether a node may be kept, given the steps that reading it takes. -/
def Origin.allows (origin : Origin) (node : Node) : Bool :=
  match origin with
  | .yaml maxSteps => node.steps ≤ maxSteps
  | _ => true

namespace Action

/-- What a ground action says of itself. -/
def groundShape : Shape GroundOrder where
  name := "struct variant ActionSpec::Ground"
  blank := { soldiers := 0, tanks := 0, armed := false }
  fields :=
    [.mandatory "attacking_soldiers" Node.word64 fun n order => { order with soldiers := n },
      .mandatory "attacking_tanks" Node.word64 fun n order => { order with tanks := n },
      .optional "arm_soldiers_with_munitions" Node.flag fun b order => { order with armed := b }]

/-- What an air action says of itself: how many aircraft fly against what. -/
def airShape : Shape (UInt64 × AirTarget) where
  name := "struct variant ActionSpec::Air"
  blank := (0, .infra)
  fields :=
    [.mandatory "attacking_aircraft" Node.word64 fun n (_, target) => (n, target),
      .mandatory "target" Tagged.read fun target (n, _) => (n, target)]

/-- What a naval action says of itself: how many ships sail. -/
def navalShape : Shape UInt64 where
  name := "struct variant ActionSpec::Naval"
  blank := 0
  fields := [.mandatory "attacking_ships" Node.word64 fun n _ => n]

/-- Reads an action of a known kind from what has been kept of it. -/
def ofHeld (kind : ActionKind) (node : Node) : Except Fault Action :=
  match kind with
  | .ground =>
    (fun order : GroundOrder => .ground order.soldiers order.tanks order.armed)
      <$> groundShape.read .held node
  | .air => (fun (n, target) => .air n target) <$> airShape.read .held node
  | .naval => .naval <$> navalShape.read .held node

/-- What has been read of an action so far: its kind, and the other members, the last first. -/
structure Kept where
  kind : Option ActionKind := none
  members : List (Node × Node) := []

/-- The name of the member that says which action it is. -/
def kindName : String := "type"

/-- Whether a kept name is the one of the member that says which action it is. -/
def isKindName : Node → Bool
  | .text name => name == kindName
  | _ => false

/-- Reads one more member, of which at most `depth` levels can be kept. -/
def Kept.add (kept : Kept) (origin : Origin) (depth : Nat) (key value : Node) :
    Except Fault Kept := do
  match key.asName <$> key.held? depth with
  | none => .error .broken
  | some name =>
    if isKindName name then
      if kept.kind.isSome then .error (.misfit (.repeatedMember kindName))
      let kind ← Tagged.ofIdentifier origin value
      return { kept with kind := some kind }
    else
      match value.held? depth with
      | some value => return { kept with members := (name, value) :: kept.members }
      | none => .error .broken

/-- Reads an action that stands at a level of its document, the outermost being 1: a record with its
kind among the members, or a list with its kind as the first item. No label of its own can say which
action it is. -/
def readAt (level : Nat) : Reader Action := fun origin node => do
  let depth := origin.maxDepth - level
  if node.ownLabel?.isSome || !origin.allows node then .error .broken
  match node.bare with
  | .record members closed =>
    let kept : Kept ← members.foldlM
      (fun (kept : Kept) (key, value) => kept.add origin depth key value) {}
    if !closed then .error .broken
    match kept.kind with
    | some kind => ofHeld kind (.record kept.members.reverse true)
    | none => .error (.misfit (.missingMember kindName))
  | .list [] closed =>
    if closed then .error (.misfit (.missingMember kindName)) else .error .broken
  | .list (first :: items) closed =>
    let kind ← Tagged.ofIdentifier origin first
    match Node.heldItems? depth items with
    | some items => if closed then ofHeld kind (.list items true) else .error .broken
    | none => .error .broken
  | node => node.refuse (.type "internally tagged enum ActionSpec")

end Action

/-! ## Requests -/

def Request.shape : Shape Request where
  name := "struct SimulationRequest"
  blank := { action := .naval 0 }
  fields :=
    [.optional "iterations" (Node.whole .signed64)
        fun i r => { r with iterations := Int64.ofInt i },
      .optional "seed" (Node.optional Node.word64) fun seed r => { r with seed },
      .mandatory "nation_attacker" Profile.shape.read fun attacker r => { r with attacker },
      .mandatory "nation_defender" Profile.shape.read fun defender r => { r with defender },
      .optional "context" Context.shape.read fun context r => { r with context },
      .mandatory "action" (Action.readAt 2) fun action r => { r with action }]

instance : FromNode Profile := ⟨Profile.shape.read⟩

instance : FromNode Context := ⟨Context.shape.read⟩

instance : FromNode Prices := ⟨Prices.shape.read⟩

instance : FromNode Settings := ⟨Settings.shape.read⟩

instance : FromNode Action := ⟨Action.readAt 1⟩

instance : FromNode Request := ⟨Request.shape.read⟩

end BattleOdds
