import BattleOdds.Document.Encoding
import BattleOdds.Document.Reading
import BattleOdds.Proofs.Document.Decoding
import BattleOdds.Proofs.Document.JsonText.Assembly

/-!
# Round trips of requests and settings

What is written for a request, for settings, or for a part of them is read back as it was. Numbers
and words are read back one by one, and a record of all members is read as the list of their values.
-/
namespace BattleOdds

open Json

/-! ## Values without members -/

namespace Tagged

variable {α : Type} [Tagged α]

/-- Each choice has a word of its own. -/
class Distinct (α : Type) [Tagged α] : Prop where
  ofWord?_word (a : α) : ofWord? (word a) = some a

instance : Distinct WarPolicy := ⟨fun a => by cases a <;> rfl⟩

instance : Distinct WarType := ⟨fun a => by cases a <;> rfl⟩

instance : Distinct Holder := ⟨fun a => by cases a <;> rfl⟩

instance : Distinct AirTarget := ⟨fun a => by cases a <;> rfl⟩

instance : Distinct ActionKind := ⟨fun a => by cases a <;> rfl⟩

variable [Distinct α]

theorem ofWord_word (a : α) : ofWord (word a) = .ok a := by
  rw [ofWord, Distinct.ofWord?_word]

@[simp] theorem read_json_tag (a : α) : read .json (tag a).node = .ok a := ofWord_word a

@[simp] theorem read_held_tag (a : α) : read .held (tag a).node = .ok a := ofWord_word a

theorem ofIdentifier_json_tag (a : α) : ofIdentifier .json (tag a).node = .ok a := ofWord_word a

end Tagged

namespace Node

variable (origin : Origin)

theorem whole_integer {range : WholeRange} {i : ℤ} (h : range.holds i = true) :
    Node.whole range origin (.integer i) = .ok i := by
  rw [Node.whole, if_pos h]

@[simp] theorem word64_whole (n : UInt64) : word64 origin (Json.whole n).node = .ok n := by
  have hread : Node.whole .word64 origin (Json.whole n).node = .ok n.toNat :=
    whole_integer origin (fitsUnsigned_word64 n)
  rw [word64, hread]
  simp [Functor.map, Except.map]

@[simp] theorem whole_word32 (n : UInt32) :
    Node.whole .word32 origin (Json.integer n.toNat).node = .ok n.toNat :=
  whole_integer origin (fitsUnsigned_word32 n)

@[simp] theorem whole_size (n : UInt64) :
    Node.whole .size origin (Json.whole n).node = .ok n.toNat :=
  whole_integer origin (fitsUnsigned_word64 n)

@[simp] theorem whole_signed64 (i : Int64) :
    Node.whole .signed64 origin (Json.integer i.toInt).node = .ok i.toInt :=
  whole_integer origin (fitsSigned_signed64 i)

@[simp] theorem toFigure_figure (x : Binary64) : toFigure origin (Json.figure x).node = .ok x := rfl

@[simp] theorem flag_bool (b : Bool) : flag origin (Json.bool b).node = .ok b := rfl

@[simp] theorem optional_toFigure (x : Option Binary64) :
    Node.optional toFigure origin (Json.optional .figure x).node = .ok x := by
  cases x <;> rfl

@[simp] theorem optional_word64 (n : Option UInt64) :
    Node.optional word64 origin (Json.optional Json.whole n).node = .ok n := by
  cases n with
  | none => rfl
  | some n =>
    change some <$> word64 origin (Json.whole n).node = _
    rw [word64_whole]
    rfl

end Node

/-! ## Records -/

namespace Shape

variable {α : Type} {shape : Shape α} {origin : Origin} {a : α}

/-- A record of all members is read as the list of their values. -/
theorem read_record (hreg : shape.Regular) (values : List Node)
    (hlength : values.length = shape.fields.length)
    (h : shape.ofItems origin true shape.fields 0 values shape.blank = .ok a) :
    shape.read origin (.record (entries (shape.names.zip values)) true) = .ok a :=
  (read_entries_eq_ok_iff hreg true).mpr ⟨rfl, gives_of_ofItems hreg hlength h⟩

end Shape

theorem Profile.read_toJson (p : Profile) : Profile.shape.read .json p.toJson.node = .ok p := by
  refine Shape.read_record Profile.regular_shape [(whole p.soldiers).node, (whole p.tanks).node,
    (whole p.aircraft).node, (whole p.ships).node, (tag p.warPolicy).node,
    (Json.bool p.isFortified).node, (Json.optional .figure p.money).node,
    (Json.integer p.cities.toNat).node, (Json.figure p.highestCityInfra).node,
    (Json.figure p.highestCityPopulation).node, (Json.figure p.averageInfra).node] rfl ?_
  simp [Profile.shape, Shape.ofItems_cons, Shape.ofItems_nil, Field.optional]

theorem Context.read_toJson (c : Context) : Context.shape.read .json c.toJson.node = .ok c := by
  refine Shape.read_record Context.regular_shape [(tag c.warType).node, (tag c.attackerPolicy).node,
    (tag c.defenderPolicy).node, (tag c.airSuperiority).node, (tag c.groundControl).node,
    (tag c.navalBlockade).node, (Json.bool c.attackerBlitz).node,
    (Json.bool c.defenderBlitz).node] rfl ?_
  simp [Context.shape, Shape.ofItems_cons, Shape.ofItems_nil, Field.optional]

theorem Prices.read_toJson (p : Prices) : Prices.shape.read .json p.toJson.node = .ok p := by
  refine Shape.read_record Prices.regular_shape [(Json.figure p.gasoline).node,
    (Json.figure p.munitions).node, (Json.figure p.steel).node,
    (Json.figure p.aluminum).node] rfl ?_
  simp [Prices.shape, Shape.ofItems_cons, Shape.ofItems_nil, Field.optional]

theorem Settings.read_toJson (s : Settings) : Settings.shape.read .json s.toJson.node = .ok s := by
  refine Shape.read_record Settings.regular_shape [s.prices.toJson.node,
    (Json.bool s.parallel).node, (whole s.workers).node] rfl ?_
  simp [Settings.shape, Shape.ofItems_cons, Shape.ofItems_nil, Field.optional, Prices.read_toJson]

/-! ## Actions -/

namespace Action

variable {named : List (String × Node)} {depth level : ℕ}

/-- Numbers, words and flags are kept as they are. -/
theorem keeps_self {origin : Origin} (h : ∀ member ∈ named, member.1 ≠ kindName
    ∧ member.2.held? depth = some member.2) : Keeps origin depth named [] named := by
  induction named with
  | nil => exact .nil
  | cons member named ih =>
    obtain ⟨hname, hvalue⟩ := h member (by simp)
    exact .other hname hvalue (ih fun other hother => h other (by simp [hother]))

/-- A record that names its kind first and then all other members, none of which is a container, is
read as the list of their values. -/
theorem readAt_record_of_items (kind : ActionKind) (order : kind.variant.Order) (values : List Node)
    (hscalar : ∀ value ∈ values, value.held? (Origin.json.maxDepth - level) = some value)
    (hlength : values.length = kind.variant.shape.fields.length)
    (h : kind.variant.shape.ofItems .held true kind.variant.shape.fields 0 values
      kind.variant.shape.blank = .ok order) :
    readAt level .json (.record (Shape.entries ((kindName, (tag kind).node)
      :: kind.variant.shape.names.zip values)) true) = .ok (kind.variant.make order) := by
  have hnames : kindName ∉ kind.variant.shape.names := by cases kind <;> decide
  refine readAt_entries_eq_ok_iff.mpr ⟨kind, kind.variant.shape.names.zip values,
    .named (Tagged.ofIdentifier_json_tag kind) (keeps_self ?others), ?read⟩
  case others =>
    intro member hmember
    have hparts := List.of_mem_zip hmember
    exact ⟨fun hname => hnames (hname ▸ hparts.1), hscalar _ hparts.2⟩
  case read =>
    exact ofHeld_entries_eq_ok_iff.mpr
      ⟨order, Shape.gives_of_ofItems kind.variant.regular hlength h, rfl⟩

theorem read_toJson (level : ℕ) (action : Action) :
    readAt level .json action.toJson.node = .ok action := by
  cases action with
  | ground soldiers tanks armed =>
    refine readAt_record_of_items .ground ⟨soldiers, tanks, armed⟩
      [(whole soldiers).node, (whole tanks).node, (Json.bool armed).node] ?scalars rfl ?items
    case scalars => simp [Json.node, whole, Node.held?]
    case items =>
      simp [ActionKind.variant, groundShape, Shape.ofItems_cons, Shape.ofItems_nil, Field.mandatory,
        Field.optional]
  | air aircraft target =>
    refine readAt_record_of_items .air ⟨aircraft, target⟩
      [(whole aircraft).node, (tag target).node] ?scalars rfl ?items
    case scalars => simp [Json.node, whole, tag, Node.held?]
    case items =>
      simp [ActionKind.variant, airShape, Shape.ofItems_cons, Shape.ofItems_nil, Field.mandatory,
        Field.optional]
  | naval ships =>
    refine readAt_record_of_items .naval ships [(whole ships).node] ?scalars rfl ?items
    case scalars => simp [Json.node, whole, Node.held?]
    case items =>
      simp [ActionKind.variant, navalShape, Shape.ofItems_cons, Shape.ofItems_nil, Field.mandatory,
        Field.optional]

end Action

theorem Request.read_toJson (r : Request) : Request.shape.read .json r.toJson.node = .ok r := by
  refine Shape.read_record Request.regular_shape [(Json.integer r.iterations.toInt).node,
    (Json.optional whole r.seed).node, r.attacker.toJson.node, r.defender.toJson.node,
    r.context.toJson.node, r.action.toJson.node] rfl ?_
  simp [Request.shape, Shape.ofItems_cons, Shape.ofItems_nil, Field.mandatory, Field.optional,
    Profile.read_toJson, Context.read_toJson, Action.read_toJson]

/-! ## Texts -/

namespace Json

@[simp] theorem readable_whole (n : UInt64) : (whole n).Readable :=
  .integer (Or.inl (fitsUnsigned_word64 n))

@[simp] theorem readable_tag {α : Type} [Tagged α] (a : α) : (tag a).Readable := .text _

end Json

/-- The figures that are written for a profile. -/
def Profile.figures (p : Profile) : List Binary64 :=
  p.money.toList ++ [p.highestCityInfra, p.highestCityPopulation, p.averageInfra]

def Request.figures (r : Request) : List Binary64 := r.attacker.figures ++ r.defender.figures

theorem Profile.readable_toJson {p : Profile} (h : ∀ x ∈ p.figures, x.ReadsBack) :
    p.toJson.Readable := by
  have hcities : (Json.integer p.cities.toNat).Readable := by
    have hlt := p.cities.toNat_lt
    exact .integer (Or.inl (fitsUnsigned_64_iff.mpr (by omega)))
  have hmoney : ∀ x ∈ p.money, x.ReadsBack := fun x hx => h x (by simp_all [figures])
  have hinfra := h p.highestCityInfra (by simp [figures])
  have hpopulation := h p.highestCityPopulation (by simp [figures])
  have haverage := h p.averageInfra (by simp [figures])
  simpa [toJson, hcities, hinfra, hpopulation, haverage] using hmoney

theorem Context.readable_toJson (c : Context) : c.toJson.Readable := by
  simp [toJson]

theorem Action.readable_toJson (action : Action) : action.toJson.Readable := by
  cases action <;> simp [toJson]

theorem Prices.readable_toJson {p : Prices} (h : ∀ x ∈ p.figures, x.ReadsBack) :
    p.toJson.Readable := by
  simpa [toJson, figures] using h

theorem Settings.readable_toJson {s : Settings} (h : ∀ x ∈ s.prices.figures, x.ReadsBack) :
    s.toJson.Readable := by
  simp [toJson, Prices.readable_toJson h]

theorem Request.readable_toJson {r : Request} (h : ∀ x ∈ r.figures, x.ReadsBack) :
    r.toJson.Readable := by
  have hattacker : r.attacker.toJson.Readable :=
    Profile.readable_toJson fun x hx => h x (List.mem_append_left _ hx)
  have hdefender : r.defender.toJson.Readable :=
    Profile.readable_toJson fun x hx => h x (List.mem_append_right _ hx)
  have hiterations : (Json.integer r.iterations.toInt).Readable :=
    .integer (Or.inr (fitsSigned_signed64 r.iterations))
  simp [toJson, hattacker, hdefender, hiterations, Context.readable_toJson, Action.readable_toJson]

/-- What a JSON text is decoded as is what its node is read as. -/
theorem decode_json_eq_ok_iff {α : Type} [FromNode α] {s : String} {a : α} :
    decode .json s = .ok a
      ↔ FromNode.read .json (Document.ofJson s).root = .ok a
        ∧ (Document.ofJson s).clean = true := by
  simp only [decode, Document.decode]
  cases FromNode.read (α := α) .json (Document.ofJson s).root with
  | error e => simp [bind, Except.bind, Except.mapError]
  | ok b => cases (Document.ofJson s).clean <;> simp [bind, Except.bind, Except.mapError]

/-- A value that is read from the node of a readable one is read from its text. -/
theorem decode_compact {α : Type} [FromNode α] {value : Json} {a : α} (h : value.Readable)
    (hread : FromNode.read .json value.node = .ok a) : decode .json value.compact = .ok a := by
  rw [decode_json_eq_ok_iff, Document.ofJson_compact h]
  exact ⟨hread, rfl⟩

/-! ## Names -/

/-- The members of a value that has any. -/
def Json.members : Json → List (String × Json)
  | .record members => members
  | _ => []

/-- Whether a word is one of capitals, perhaps with underscores. -/
def inCapitals (w : String) : Bool := w.toList.all fun c => ('A' ≤ c && c ≤ 'Z') || c == '_'

/-- Whether a word is one of small letters, perhaps with underscores. -/
def inSmallLetters (w : String) : Bool := w.toList.all fun c => ('a' ≤ c && c ≤ 'z') || c == '_'

/-- Policies are written in capitals, and all other tags in small letters. -/
structure TagsWritten : Prop where
  policy (policy : WarPolicy) : inCapitals (Tagged.word policy) = true
  warType (warType : WarType) : inSmallLetters (Tagged.word warType) = true
  holder (holder : Holder) : inSmallLetters (Tagged.word holder) = true
  target (target : AirTarget) : inSmallLetters (Tagged.word target) = true
  kind (kind : ActionKind) : inSmallLetters (Tagged.word kind) = true

theorem tagsWritten : TagsWritten where
  policy policy := by cases policy <;> decide
  warType warType := by cases warType <;> decide
  holder holder := by cases holder <;> decide
  target target := by cases target <;> decide
  kind kind := by cases kind <;> decide

/-- Every request is read back from its text without blanks, and so are profiles, contexts, actions,
prices and settings. All that is asked is that each figure is read back from its own text, as no
figure is that is not finite. -/
theorem documents_round_trip :
    (∀ r : Request, (∀ x ∈ r.figures, x.ReadsBack) → decode .json r.toJson.compact = .ok r)
      ∧ (∀ p : Profile, (∀ x ∈ p.figures, x.ReadsBack) → decode .json p.toJson.compact = .ok p)
      ∧ (∀ c : Context, decode .json c.toJson.compact = .ok c)
      ∧ (∀ action : Action, decode .json action.toJson.compact = .ok action)
      ∧ (∀ p : Prices, (∀ x ∈ p.figures, x.ReadsBack) → decode .json p.toJson.compact = .ok p)
      ∧ (∀ s : Settings, (∀ x ∈ s.prices.figures, x.ReadsBack) →
        decode .json s.toJson.compact = .ok s)
      ∧ (∀ r : Request, ("nation_attacker", r.attacker.toJson) ∈ r.toJson.members
        ∧ ("nation_defender", r.defender.toJson) ∈ r.toJson.members
        ∧ ("type", tag r.action.kind) ∈ r.action.toJson.members)
      ∧ TagsWritten := by
  refine ⟨fun r h => ?request, fun p h => ?profile, fun c => ?context, fun action => ?action,
    fun p h => ?prices, fun s h => ?settings, fun r => ?names, tagsWritten⟩
  case request => exact decode_compact (Request.readable_toJson h) r.read_toJson
  case profile => exact decode_compact (Profile.readable_toJson h) p.read_toJson
  case context => exact decode_compact c.readable_toJson c.read_toJson
  case action => exact decode_compact action.readable_toJson (action.read_toJson 1)
  case prices => exact decode_compact (Prices.readable_toJson h) p.read_toJson
  case settings => exact decode_compact (Settings.readable_toJson h) s.read_toJson
  case names =>
    refine ⟨by simp [Request.toJson, Json.members], by simp [Request.toJson, Json.members], ?_⟩
    cases r.action <;> simp [Action.toJson, Json.members, Action.kind]

/-- A request with limits of all whole numbers and known cash is read back, and so are settings with
other prices than the built-in ones. -/
theorem documents_round_trip_at_limits :
    let attacker : Profile :=
      { soldiers := 18446744073709551615, aircraft := 75, warPolicy := .blitzkrieg,
        isFortified := true, money := some 1250000.75, cities := 4294967295,
        highestCityInfra := 2400.0, highestCityPopulation := 321000.0, averageInfra := 1999.5 }
    let r : Request :=
      { iterations := -9223372036854775808, seed := some 18446744073709551615, attacker,
        defender := {}, context := { warType := .raid, airSuperiority := .defender },
        action := .air 75 .money }
    let s : Settings := { prices := { gasoline := 2900.25 }, parallel := true, workers := 8 }
    decode .json r.toJson.compact = .ok r ∧ decode .json attacker.toJson.compact = .ok attacker
      ∧ decode .json s.prices.toJson.compact = .ok s.prices
      ∧ decode .json s.toJson.compact = .ok s := by
  intro attacker r s
  exact ⟨documents_round_trip.1 r (by decide +kernel),
    documents_round_trip.2.1 attacker (by decide +kernel),
    documents_round_trip.2.2.2.2.1 s.prices (by decide +kernel),
    documents_round_trip.2.2.2.2.2.1 s (by decide +kernel)⟩

end BattleOdds
