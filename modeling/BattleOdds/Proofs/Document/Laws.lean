import BattleOdds.Proofs.Document.Encoding
import BattleOdds.Proofs.Document.Restating

/-!
# Laws of request documents

The members of a request are those of its own record and those of four parts: the two nations, the
circumstances and the action. A document is accepted with the same request when one of these records
is restated, and it is rejected when one of them is spoilt.
-/
namespace BattleOdds.Request

open Shape

/-- A relation between two nodes for each type that a request is made of. -/
structure NodeRelation where
  request : Node → Node → Prop
  profile : Node → Node → Prop
  context : Node → Node → Prop
  action : Node → Node → Prop

/-- The second node is a record that says the same as the first. The outermost levels of a document
are the request and its parts, so that an action can keep the levels that remain. -/
def restating : NodeRelation where
  request := Node.OnMembers (Request.shape.Restates .json)
  profile := Node.OnMembers (Profile.shape.Restates .json)
  context := Node.OnMembers (Context.shape.Restates .json)
  action := Node.OnMembers (Action.Restates (Origin.json.maxDepth - 2))

/-- A list of which one item is missing. -/
inductive Shortens : Node → Node → Prop
  | intro {items : List Node} {i : ℕ} (hi : i < items.length) :
    Shortens (.list items true) (.list (items.eraseIdx i) true)

/-- The second node is like the first, but lacks something that it needs or has something twice. -/
def spoiling : NodeRelation where
  request node node' := node.OnMembers Request.shape.Spoils node' ∨ Shortens node node'
  profile := Node.OnMembers Profile.shape.Spoils
  context := Node.OnMembers Context.shape.Spoils
  action node node' := node.OnMembers Action.Spoils node' ∨ Action.Shortens node node'

/-- Nodes that are related as values of the same part. -/
inductive PartRelated (rel : NodeRelation) : String → Node → Node → Prop
  | attacker {value value'} (h : rel.profile value value') :
    PartRelated rel "nation_attacker" value value'
  | defender {value value'} (h : rel.profile value value') :
    PartRelated rel "nation_defender" value value'
  | context {value value'} (h : rel.context value value') : PartRelated rel "context" value value'
  | action {value value'} (h : rel.action value value') : PartRelated rel "action" value value'

/-- Documents that are related, either as a whole or in one of their parts. The parts may be members
of a record or items of a list. -/
inductive Related (rel : NodeRelation) : Node → Node → Prop
  | whole {root root'} (h : rel.request root root') : Related rel root root'
  | member {before after : List (String × Node)} {name value value'}
    (h : PartRelated rel name value value') :
    Related rel (.object (before ++ (name, value) :: after))
      (.object (before ++ (name, value') :: after))
  | item {items : List Node} {i : ℕ} {name value value'}
    (hname : Request.shape.names[i]? = some name) (hitem : items[i]? = some value)
    (h : PartRelated rel name value value') :
    Related rel (.list items true) (.list (items.set i value') true)

variable {name : String} {value value' root root' : Node} {r r' : Request} {field : Field Request}
  {u v : Request → Request} {rel : NodeRelation}

/-! ## Parts -/

section Part

variable (hfield : field ∈ Request.shape.fields)
include hfield

theorem eq_attacker (hname : field.name = "nation_attacker") :
    field = .mandatory "nation_attacker" Profile.shape.read fun attacker r => { r with attacker } :=
  regular_shape.eq_of_name hfield (by simp [Request.shape]) hname

theorem eq_defender (hname : field.name = "nation_defender") :
    field = .mandatory "nation_defender" Profile.shape.read fun defender r => { r with defender } :=
  regular_shape.eq_of_name hfield (by simp [Request.shape]) hname

theorem eq_context (hname : field.name = "context") :
    field = .optional "context" Context.shape.read fun context r => { r with context } :=
  regular_shape.eq_of_name hfield (by simp [Request.shape]) hname

theorem eq_action (hname : field.name = "action") :
    field = .mandatory "action" (Action.readAt 2) fun action r => { r with action } :=
  regular_shape.eq_of_name hfield (by simp [Request.shape]) hname

/-- A part that says the same is read as the same. -/
theorem changes_of_restating (hname : field.name = name)
    (h : PartRelated restating name value value') (hu : field.Changes .json value u) :
    field.Changes .json value' u := by
  cases h with
  | attacker h =>
    rw [eq_attacker hfield hname] at hu ⊢
    exact Field.changes_congr "nation_attacker" (fun _ => read_restate Profile.regular_shape h) hu
  | defender h =>
    rw [eq_defender hfield hname] at hu ⊢
    exact Field.changes_congr "nation_defender" (fun _ => read_restate Profile.regular_shape h) hu
  | context h =>
    rw [eq_context hfield hname] at hu ⊢
    exact Field.changes_congr "context" (fun _ => read_restate Context.regular_shape h) hu
  | action h =>
    rw [eq_action hfield hname] at hu ⊢
    exact Field.changes_congr "action" (fun _ => Action.readAt_restate h) hu

/-- A part that is spoilt is not read. -/
theorem not_changes_of_spoiling (hname : field.name = name)
    (h : PartRelated spoiling name value value') (hu : field.Changes .json value u) :
    ¬ field.Changes .json value' v := by
  cases h with
  | attacker h =>
    rw [eq_attacker hfield hname] at hu ⊢
    exact Field.not_changes_of_ne "nation_attacker"
      (fun _ _ => read_ne_ok_of_spoils Profile.regular_shape h) hu
  | defender h =>
    rw [eq_defender hfield hname] at hu ⊢
    exact Field.not_changes_of_ne "nation_defender"
      (fun _ _ => read_ne_ok_of_spoils Profile.regular_shape h) hu
  | context h =>
    rw [eq_context hfield hname] at hu ⊢
    exact Field.not_changes_of_ne "context"
      (fun _ _ => read_ne_ok_of_spoils Context.regular_shape h) hu
  | action h =>
    rw [eq_action hfield hname] at hu ⊢
    refine Field.not_changes_of_ne "action" (fun _ _ hread => ?_) hu
    rcases h with h | h
    · exact Action.readAt_ne_ok_of_spoils h hread
    · exact Action.readAt_ne_ok_of_shortens h hread

end Part

theorem PartRelated.mem_names (h : PartRelated rel name value value') :
    name ∈ Request.shape.names := by
  cases h <;> decide

/-! ## Documents -/

/-- A document that says the same is read as the same request. -/
theorem read_restating (h : Related restating root root')
    (hread : Request.shape.read .json root = .ok r) : Request.shape.read .json root' = .ok r := by
  cases h with
  | whole h => exact read_restate regular_shape h hread
  | member h =>
    obtain ⟨field, hfield, rfl⟩ := List.mem_map.mp h.mem_names
    have hgives := ((read_entries_eq_ok_iff regular_shape true).mp hread).2
    exact (read_entries_eq_ok_iff regular_shape true).mpr ⟨rfl,
      hgives.replace regular_shape hfield fun v hv => changes_of_restating hfield rfl h hv⟩
  | item hname hitem h =>
    obtain ⟨field, hfield, rfl⟩ := exists_field_of_names hname
    refine ofItems_set hread hfield hitem fun c d hc => ?_
    have hmem := List.mem_of_getElem? hfield
    obtain ⟨u, hu, rfl⟩ := regular_shape.uniform field hmem _ _ c d hc
    exact changes_of_restating hmem rfl h hu c

theorem read_of_restatings (h : Relation.ReflTransGen (Related restating) root root')
    (hread : Request.shape.read .json root = .ok r) : Request.shape.read .json root' = .ok r := by
  induction h with
  | refl => exact hread
  | tail _ hstep ih => exact read_restating hstep ih

/-- The action is required and comes last, so that a list has to be complete. -/
theorem length_items {items : List Node} (h : Request.shape.read .json (.list items true) = .ok r) :
    items.length = Request.shape.fields.length := by
  obtain ⟨hle, hdropped⟩ := length_le_of_ofItems h
  by_contra hne
  have hlt : items.length ≤ 5 := by
    have hcount : Request.shape.fields.length = 6 := rfl
    omega
  have hlast : Field.mandatory "action" (Action.readAt 2) (fun action r => { r with action })
      ∈ (Request.shape.fields.drop items.length).drop (5 - items.length) := by
    rw [List.drop_drop, Nat.add_sub_cancel' hlt]
    simp [Request.shape]
  cases hdropped _ (List.mem_of_mem_drop hlast)

/-- A document that is spoilt is not read. -/
theorem read_ne_ok_of_spoiling (h : Related spoiling root root')
    (hread : Request.shape.read .json root = .ok r) : Request.shape.read .json root' ≠ .ok r' := by
  intro hread'
  cases h with
  | whole h =>
    rcases h with h | h
    · exact read_ne_ok_of_spoils regular_shape h hread hread'
    · obtain @⟨items, i, hi⟩ := h
      have hlength := List.length_eraseIdx_add_one hi
      have hall := length_items hread
      have hall' := length_items hread'
      omega
  | member h =>
    obtain ⟨field, hfield, rfl⟩ := List.mem_map.mp h.mem_names
    have hgives := ((read_entries_eq_ok_iff regular_shape true).mp hread).2
    have hgives' := ((read_entries_eq_ok_iff regular_shape true).mp hread').2
    obtain ⟨u, hu⟩ := hgives.exists_changes regular_shape hfield
    obtain ⟨v, hv⟩ := hgives'.exists_changes regular_shape hfield
    exact not_changes_of_spoiling hfield rfl h hu hv
  | item hname hitem h =>
    obtain ⟨field, hfield, rfl⟩ := exists_field_of_names hname
    have hmem := List.mem_of_getElem? hfield
    have hlt := (List.getElem?_eq_some_iff.mp hitem).1
    obtain ⟨c, d, hc⟩ := exists_read_of_ofItems hread hfield hitem
    obtain ⟨c', d', hc'⟩ := exists_read_of_ofItems hread' hfield (List.getElem?_set_self hlt)
    obtain ⟨u, hu, -⟩ := regular_shape.uniform field hmem _ _ c d hc
    obtain ⟨v, hv, -⟩ := regular_shape.uniform field hmem _ _ c' d' hc'
    exact not_changes_of_spoiling hmem rfl h hu hv

/-! ## Texts -/

/-- For every request document that is accepted: any number of changes that restate one of its
records leave it accepted with the same request, and a change that spoils one has it rejected. What
a request and an action require is told by the names. -/
theorem document_shape_laws {s s' : String} {r : Request} (h : decode .json s = .ok r) :
    (Relation.ReflTransGen (Related restating) (Document.ofJson s).root (Document.ofJson s').root →
        (Document.ofJson s').clean = true → decode .json s' = .ok r)
      ∧ (Related spoiling (Document.ofJson s).root (Document.ofJson s').root →
        ∃ e, (decode .json s' : Except DocumentError Request) = .error e)
      ∧ Request.shape.requiredNames = ["nation_attacker", "nation_defender", "action"]
      ∧ ∀ kind : ActionKind, kind.variant.shape.requiredNames
        = kind.variant.shape.names.filter (· ≠ "arm_soldiers_with_munitions") := by
  obtain ⟨hread, -⟩ := decode_json_eq_ok_iff.mp h
  refine ⟨fun hrestating hclean => ?restated, fun hspoiling => ?spoilt, rfl, fun kind => ?actions⟩
  case restated => exact decode_json_eq_ok_iff.mpr ⟨read_of_restatings hrestating hread, hclean⟩
  case spoilt =>
    cases hdecode : (decode .json s' : Except DocumentError Request) with
    | error e => exact ⟨e, rfl⟩
    | ok r' =>
      obtain ⟨hread', -⟩ := decode_json_eq_ok_iff.mp hdecode
      exact absurd hread' (read_ne_ok_of_spoiling hspoiling hread)
  case actions => cases kind <;> decide

/-- The action of a request may come first, with a note in it and its kind last, and the usual
number of trials may be asked for, but the action cannot be left out. -/
theorem document_shape_laws_of_naval :
    let ships : String × Json := ("attacking_ships", .integer 3)
    let kind : String × Json := ("type", .text "naval")
    let note : String × Json := ("note", .text "at dawn")
    let trials : String × Json := ("iterations", .integer 1000)
    let nations : List (String × Json) :=
      [("nation_attacker", .record [("ships", .integer 5)]), ("nation_defender", .record [])]
    let given : Json := .record (nations ++ [("action", .record [kind, ships])])
    let moved : Json := .record (trials :: ("action", .record [note, ships, kind]) :: nations)
    let r : Request := { attacker := { ships := 5 }, action := .naval 3 }
    decode .json given.compact = .ok r ∧ decode .json moved.compact = .ok r
      ∧ ∃ e, (decode .json (Json.record nations).compact : Except DocumentError Request)
        = .error e := by
  intro ships kind note trials nations given moved r
  have hgiven : Document.ofJson given.compact = ⟨given.node, true⟩ :=
    Document.ofJson_compact (by simp [given, nations, kind, ships, Json.readable_integer]; decide)
  have hmoved : Document.ofJson moved.compact = ⟨moved.node, true⟩ :=
    Document.ofJson_compact
      (by simp [moved, nations, trials, note, kind, ships, Json.readable_integer]; decide)
  have hlacking : Document.ofJson (Json.record nations).compact
      = ⟨(Json.record nations).node, true⟩ :=
    Document.ofJson_compact (by simp [nations, Json.readable_integer]; decide)
  have h : decode .json given.compact = .ok r :=
    decode_json_eq_ok_iff.mpr (by rw [hgiven]; exact ⟨rfl, rfl⟩)
  have hfirst (action : Json) : (Json.memberNodes (nations ++ [("action", action)])).Perm
      (("action", action.node) :: Json.memberNodes nations) := by
    change (Json.memberNodes nations ++ [("action", action.node)]).Perm
      ([("action", action.node)] ++ Json.memberNodes nations)
    exact List.perm_append_comm
  have hkind : Action.NamesKind (Json.memberNodes [kind, ships]) .naval := List.mem_cons_self
  have hnoted : Action.Restates (Origin.json.maxDepth - 2) (Json.memberNodes [kind, ships])
      (Json.memberNodes [note, ships, kind]) :=
    .foreign hkind (by decide) rfl (.cons _ (.swap _ _ _))
  have hasked : Request.shape.Restates .json
      (Json.memberNodes (("action", .record [note, ships, kind]) :: nations))
      (Json.memberNodes (trials :: ("action", .record [note, ships, kind]) :: nations)) := by
    have hfield : .optional "iterations" (Node.whole .signed64)
        (fun i r => { r with iterations := Int64.ofInt i }) ∈ Request.shape.fields := by
      simp [Request.shape]
    exact .default hfield rfl (by decide) ⟨_, Field.changes_optional rfl, rfl⟩ (List.Perm.refl _)
  have haction : .mandatory "action" (Action.readAt 2) (fun action r => { r with action })
      ∈ Request.shape.fields := by simp [Request.shape]
  refine ⟨h, (document_shape_laws h).1 ?moved (by rw [hmoved]),
    (document_shape_laws h).2.1 ?lacking⟩
  case moved =>
    rw [hgiven, hmoved]
    exact .head (.whole ⟨.reordered (hfirst _)⟩)
      (.head (@Related.member restating [] _ _ _ _ (.action ⟨hnoted⟩)) (.single (.whole ⟨hasked⟩)))
  case lacking =>
    rw [hgiven, hlacking]
    exact .whole (Or.inl ⟨.removed haction rfl (hfirst _)⟩)

end BattleOdds.Request
