/-!
# Tags

A tag is the word by which a document names one of finitely many choices: a policy, a kind of war,
the holder of a control, the target of an air strike, the kind of an action. Each such type lists
its choices in the order in which messages name them, with the word of each.
-/
namespace BattleOdds

/-- A finite choice that documents name by a word. -/
class Tagged (α : Type) where
  /-- All choices, in the order in which messages list them. -/
  all : List α
  /-- The word of a choice. -/
  word : α → String

namespace Tagged

/-- The words of all choices. -/
def words (α : Type) [Tagged α] : List String := (all : List α).map word

/-- The choice that a word names. -/
def ofWord? [Tagged α] (w : String) : Option α := all.find? fun a => word a == w

end Tagged

/-- The doctrine that a nation follows. -/
inductive WarPolicy
  | none | attrition | turtle | blitzkrieg | fortress | moneybags | pirate | tactician | guardian
  | covert | arcane
deriving DecidableEq

instance : Tagged WarPolicy where
  all := [.none, .attrition, .turtle, .blitzkrieg, .fortress, .moneybags, .pirate, .tactician,
    .guardian, .covert, .arcane]
  word
    | .none => "NONE"
    | .attrition => "ATTRITION"
    | .turtle => "TURTLE"
    | .blitzkrieg => "BLITZKRIEG"
    | .fortress => "FORTRESS"
    | .moneybags => "MONEYBAGS"
    | .pirate => "PIRATE"
    | .tactician => "TACTICIAN"
    | .guardian => "GUARDIAN"
    | .covert => "COVERT"
    | .arcane => "ARCANE"

/-- The kind of a war, which trades infrastructure damage for loot. -/
inductive WarType
  | ordinary | raid | attrition
deriving DecidableEq

instance : Tagged WarType where
  all := [.ordinary, .raid, .attrition]
  word
    | .ordinary => "ordinary"
    | .raid => "raid"
    | .attrition => "attrition"

/-- The holder of a control: air superiority, ground control or a naval blockade. -/
inductive Holder
  | attacker | defender | none
deriving DecidableEq

instance : Tagged Holder where
  all := [.attacker, .defender, .none]
  word
    | .attacker => "attacker"
    | .defender => "defender"
    | .none => "none"

/-- What an air strike is sent against. -/
inductive AirTarget
  | infra | aircraft | soldiers | tanks | ships | money
deriving DecidableEq

instance : Tagged AirTarget where
  all := [.infra, .aircraft, .soldiers, .tanks, .ships, .money]
  word
    | .infra => "infra"
    | .aircraft => "aircraft"
    | .soldiers => "soldiers"
    | .tanks => "tanks"
    | .ships => "ships"
    | .money => "money"

/-- The arm that an action is fought with. -/
inductive ActionKind
  | ground | air | naval
deriving DecidableEq

instance : Tagged ActionKind where
  all := [.ground, .air, .naval]
  word
    | .ground => "ground"
    | .air => "air"
    | .naval => "naval"

/-- The kind as a title in messages. -/
def ActionKind.title : ActionKind → String
  | .ground => "Ground"
  | .air => "Air"
  | .naval => "Naval"

end BattleOdds
