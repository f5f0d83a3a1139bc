import BattleOdds.Document.Decoding
import Mathlib.Data.List.Nodup
import Mathlib.Data.List.Pairwise
import Mathlib.Data.List.Perm.Basic

/-!
# What a record gives to a shape

A field that can be read changes the value that it is put into in one way, whatever that value is.
Where such changes commute, a record of named members is read as the composition of the changes of
its members: it is accepted just if the members that the shape declares come once each, those that
it requires come, and each can be read. So the order of the members does not matter, and
members that the shape does not declare change nothing.
-/
namespace BattleOdds

variable {α β γ : Type}

/-! ## Fields -/

namespace Field

/-- A node can be read as the field, and changes what it is put into in this way. -/
def Changes (field : Field α) (origin : Origin) (value : Node) (u : α → α) : Prop :=
  ∀ a, field.read origin value a = .ok (u a)

/-- Whether a node can be read, and as what, does not depend on what it is put into. -/
def Uniform (field : Field α) : Prop :=
  ∀ origin value a b, field.read origin value a = .ok b →
    ∃ u, field.Changes origin value u ∧ b = u a

/-- The order in which two fields are read does not matter. -/
def Commutes (field other : Field α) : Prop :=
  ∀ origin value u origin' value' v, field.Changes origin value u →
    other.Changes origin' value' v → u ∘ v = v ∘ u

variable {name name' : String} {read : Reader β} {read' : Reader γ} {put : β → α → α}
  {put' : γ → α → α} {origin : Origin} {value : Node}

theorem changes_optional {b : β} (h : read origin value = .ok b) :
    (optional name read put).Changes origin value (put b) := fun a => by
  simp only [optional, h]
  rfl

theorem exists_of_read_optional {a a' : α}
    (h : (optional name read put).read origin value a = .ok a') :
    ∃ b, read origin value = .ok b ∧ a' = put b a := by
  cases hread : read origin value with
  | error e =>
    simp only [optional, hread] at h
    cases h
  | ok b => exact ⟨b, rfl, Except.ok.inj (h.symm.trans (changes_optional hread a))⟩

theorem exists_of_read_mandatory {a a' : α}
    (h : (mandatory name read put).read origin value a = .ok a') :
    ∃ b, read origin value = .ok b ∧ a' = put b a := by
  change (optional name read put).read origin value a = .ok a' at h
  exact exists_of_read_optional h

@[simp] theorem uniform_optional : (optional name read put).Uniform := by
  intro origin value a b h
  obtain ⟨c, hread, rfl⟩ := exists_of_read_optional h
  exact ⟨put c, changes_optional hread, rfl⟩

@[simp] theorem uniform_mandatory : (mandatory name read put).Uniform := by
  have h : (optional name read put).Uniform := uniform_optional
  exact h

theorem exists_of_changes_optional [Nonempty α] {u : α → α}
    (h : (optional name read put).Changes origin value u) :
    ∃ b, read origin value = .ok b ∧ u = put b := by
  obtain ⟨a₀⟩ := ‹Nonempty α›
  obtain ⟨b, hread, -⟩ := exists_of_read_optional (h a₀)
  exact ⟨b, hread, funext fun a => Except.ok.inj ((h a).symm.trans (changes_optional hread a))⟩

/-- A node may stand for another one that is read as the same. -/
theorem changes_congr [Nonempty α] (name : String) {value' : Node} {u : α → α}
    (hread : ∀ b, read origin value = .ok b → read origin value' = .ok b)
    (h : (optional name read put).Changes origin value u) :
    (optional name read put).Changes origin value' u := by
  obtain ⟨b, hb, rfl⟩ := exists_of_changes_optional h
  exact changes_optional (hread b hb)

theorem not_changes_of_ne [Nonempty α] (name : String) {value' : Node} {u v : α → α}
    (hread : ∀ b c, read origin value = .ok b → read origin value' ≠ .ok c)
    (h : (optional name read put).Changes origin value u) :
    ¬ (optional name read put).Changes origin value' v := by
  intro h'
  obtain ⟨b, hb, -⟩ := exists_of_changes_optional h
  obtain ⟨c, hc, -⟩ := exists_of_changes_optional h'
  exact hread b c hb hc

@[simp] theorem commutes_mandatory_left {other : Field α} :
    (mandatory name read put).Commutes other ↔ (optional name read put).Commutes other := Iff.rfl

@[simp] theorem commutes_mandatory_right {other : Field α} :
    other.Commutes (mandatory name read put) ↔ other.Commutes (optional name read put) := Iff.rfl

/-- Fields that put values into different places commute. -/
@[simp] theorem commutes_optional [Nonempty α] (h : ∀ b c a, put b (put' c a) = put' c (put b a)) :
    (optional name read put).Commutes (optional name' read' put') := by
  intro origin value u origin' value' v hu hv
  obtain ⟨b, -, rfl⟩ := exists_of_changes_optional hu
  obtain ⟨c, -, rfl⟩ := exists_of_changes_optional hv
  exact funext (h b c)

end Field

namespace Shape

/-! ## Members by name -/

/-- The names of the members that a shape declares. -/
def names (shape : Shape α) : List String := shape.fields.map Field.name

/-- The names of the members that a document has to give. -/
def requiredNames (shape : Shape α) : List String :=
  (shape.fields.filter Field.required).map Field.name

/-- Fields have names of their own, and can be read in any order. -/
structure Regular (shape : Shape α) : Prop where
  nodup : shape.names.Nodup
  uniform : ∀ field ∈ shape.fields, field.Uniform
  commutes : shape.fields.Pairwise Field.Commutes

/-- The members of a record that have texts as names, as in JSON all have. -/
def entries (named : List (String × Node)) : List (Node × Node) :=
  named.map fun member => (.text member.1, member.2)

@[simp] theorem entries_nil : entries [] = [] := rfl

@[simp] theorem entries_cons (name : String) (value : Node) (named : List (String × Node)) :
    entries ((name, value) :: named) = (.text name, value) :: entries named := rfl

/-- Those names among the members that a shape declares. -/
def declared (shape : Shape α) (named : List (String × Node)) : List String :=
  (named.map Prod.fst).filter (· ∈ shape.names)

/-- What members change, the first one first. Members that the shape does not declare are only
passed over. -/
inductive Collects (shape : Shape α) (origin : Origin) : List (String × Node) → (α → α) → Prop
  | nil : Collects shape origin [] id
  | foreign {name value named u} (hname : name ∉ shape.names) (hvalue : value.intact = true)
      (h : Collects shape origin named u) : Collects shape origin ((name, value) :: named) u
  | field {field value named u v} (hfield : field ∈ shape.fields)
      (hvalue : field.Changes origin value v) (h : Collects shape origin named u) :
      Collects shape origin ((field.name, value) :: named) (u ∘ v)

variable {shape : Shape α} {origin : Origin} {named : List (String × Node)} {name : String}
  {value : Node} {field : Field α} {u : α → α} {a b : α}

theorem mem_names (h : field ∈ shape.fields) : field.name ∈ shape.names :=
  List.mem_map_of_mem h

theorem mem_declared :
    name ∈ shape.declared named ↔ name ∈ named.map Prod.fst ∧ name ∈ shape.names := by
  simp [declared]

theorem Regular.eq_of_name (hreg : shape.Regular) {field other : Field α} (h : field ∈ shape.fields)
    (h' : other ∈ shape.fields) (hname : field.name = other.name) : field = other :=
  List.inj_on_of_nodup_map hreg.nodup h h' hname

theorem collects_cons_foreign (hname : name ∉ shape.names) :
    shape.Collects origin ((name, value) :: named) u
      ↔ value.intact = true ∧ shape.Collects origin named u := by
  constructor
  · intro h
    cases h with
    | foreign _ hvalue h => exact ⟨hvalue, h⟩
    | field hfield _ _ => exact absurd (mem_names hfield) hname
  · rintro ⟨hvalue, h⟩
    exact .foreign hname hvalue h

theorem collects_cons_field (hreg : shape.Regular) (hfield : field ∈ shape.fields) :
    shape.Collects origin ((field.name, value) :: named) u
      ↔ ∃ v w, field.Changes origin value v ∧ shape.Collects origin named w ∧ u = w ∘ v := by
  constructor
  · intro h
    generalize hname : field.name = name at h
    cases h with
    | foreign hforeign _ _ => exact absurd (hname ▸ mem_names hfield) hforeign
    | field hother hvalue h =>
      cases hreg.eq_of_name hfield hother hname
      exact ⟨_, _, hvalue, h, rfl⟩
  · rintro ⟨v, w, hvalue, h, rfl⟩
    exact .field hfield hvalue h

/-- The member that a text stands for. -/
theorem field?_text (shape : Shape α) (origin : Origin) (name : String) :
    shape.field? origin (.text name)
      = .ok (shape.fields.find? fun field => field.name == name) := by
  cases origin <;> rfl

theorem find?_eq_none_iff :
    (shape.fields.find? fun field => field.name == name) = none ↔ name ∉ shape.names := by
  simp [names]

theorem ofMembers_nil (closed : Bool) (given : List String) :
    shape.ofMembers origin closed [] given a = .ok b
      ↔ closed = true
        ∧ (∀ field ∈ shape.fields, field.required = true → field.name ∈ given) ∧ a = b := by
  cases closed with
  | false => simp [ofMembers]
  | true =>
    rw [ofMembers]
    cases hfind : shape.fields.find? fun field => field.required && !given.contains field.name with
    | none =>
      have hgiven : ∀ field ∈ shape.fields, field.required = true → field.name ∈ given := by
        simpa using hfind
      simpa using fun _ => hgiven
    | some field =>
      have hmem := List.mem_of_find?_eq_some hfind
      obtain ⟨hrequired, hmissing⟩ : field.required = true ∧ field.name ∉ given := by
        simpa using List.find?_some hfind
      refine iff_of_false (by simp) ?_
      rintro ⟨-, hgiven, -⟩
      exact hmissing (hgiven field hmem hrequired)

theorem ofMembers_cons_foreign (hname : name ∉ shape.names) (closed : Bool) (given : List String) :
    shape.ofMembers origin closed ((.text name, value) :: entries named) given a = .ok b
      ↔ value.intact = true ∧ shape.ofMembers origin closed (entries named) given a = .ok b := by
  rw [ofMembers, field?_text, find?_eq_none_iff.mpr hname]
  cases value.intact <;> simp [bind, Except.bind]

theorem ofMembers_cons_field (hreg : shape.Regular) (hfield : field ∈ shape.fields) (closed : Bool)
    (given : List String) :
    shape.ofMembers origin closed ((.text field.name, value) :: entries named) given a = .ok b
      ↔ field.name ∉ given ∧ ∃ v, field.Changes origin value v
        ∧ shape.ofMembers origin closed (entries named) (field.name :: given) (v a) = .ok b := by
  have hfind : (shape.fields.find? fun other => other.name == field.name) = some field := by
    cases h : shape.fields.find? fun other => other.name == field.name with
    | none => exact absurd (mem_names hfield) (find?_eq_none_iff.mp h)
    | some other =>
      have hname : other.name = field.name := by simpa using List.find?_some h
      rw [hreg.eq_of_name (List.mem_of_find?_eq_some h) hfield hname]
  rw [ofMembers, field?_text, hfind]
  by_cases hgiven : field.name ∈ given
  · simp [hgiven, bind, Except.bind]
  · cases hread : field.read origin value a with
    | error e =>
      refine iff_of_false (by simp [hgiven, hread, bind, Except.bind]) ?_
      rintro ⟨-, v, hv, -⟩
      cases hread.symm.trans (hv a)
    | ok c =>
      obtain ⟨v, hv, rfl⟩ := hreg.uniform field hfield origin value a c hread
      have hrest : (∃ w, field.Changes origin value w
          ∧ shape.ofMembers origin closed (entries named) (field.name :: given) (w a) = .ok b)
          ↔ shape.ofMembers origin closed (entries named) (field.name :: given) (v a) = .ok b := by
        refine ⟨?_, fun h => ⟨v, hv, h⟩⟩
        rintro ⟨w, hw, h⟩
        rwa [← Except.ok.inj ((hv a).symm.trans (hw a))] at h
      rw [hrest]
      simp [hgiven, hread, bind, Except.bind]

/-- What the members of a record come to, when those in `given` have been read. -/
theorem ofMembers_entries_eq_ok_iff (hreg : shape.Regular) (closed : Bool) (given : List String) :
    shape.ofMembers origin closed (entries named) given a = .ok b ↔
      closed = true ∧ (shape.declared named).Nodup ∧ (∀ name ∈ shape.declared named, name ∉ given)
        ∧ (∀ field ∈ shape.fields, field.required = true →
          field.name ∈ shape.declared named ∨ field.name ∈ given)
        ∧ ∃ u, shape.Collects origin named u ∧ u a = b := by
  induction named generalizing given a with
  | nil =>
    have hnil : (∃ u, shape.Collects origin [] u ∧ u a = b) ↔ a = b := by
      constructor
      · rintro ⟨u, h, rfl⟩
        cases h
        rfl
      · exact fun h => ⟨id, .nil, h⟩
    simp [ofMembers_nil, declared, hnil]
  | cons member named ih =>
    obtain ⟨name, value⟩ := member
    rw [entries_cons]
    by_cases hname : name ∈ shape.names
    · obtain ⟨field, hfield, rfl⟩ := List.mem_map.mp hname
      have hdeclared : shape.declared ((field.name, value) :: named)
          = field.name :: shape.declared named := by
        simp [declared, mem_names hfield]
      rw [ofMembers_cons_field hreg hfield, hdeclared]
      simp only [ih, collects_cons_field hreg hfield, List.nodup_cons, List.mem_cons, not_or]
      constructor
      · rintro ⟨hfirst, v, hv, hclosed, hnodup, hfresh, hrequired, u, hu, rfl⟩
        refine ⟨hclosed, ⟨fun h => (hfresh _ h).1 rfl, hnodup⟩, ?_, ?_, u ∘ v, ⟨v, u, hv, hu, rfl⟩,
          rfl⟩
        · rintro name (rfl | h)
          · exact hfirst
          · exact (hfresh name h).2
        · intro other hother h
          have := hrequired other hother h
          tauto
      · rintro ⟨hclosed, ⟨hnew, hnodup⟩, hfresh, hrequired, _, ⟨v, u, hv, hu, rfl⟩, rfl⟩
        refine ⟨hfresh _ (Or.inl rfl), v, hv, hclosed, hnodup, fun name h => ⟨?_, ?_⟩, ?_, u, hu,
          rfl⟩
        · rintro rfl
          exact hnew h
        · exact hfresh name (Or.inr h)
        · intro other hother h
          have := hrequired other hother h
          tauto
    · have hdeclared : shape.declared ((name, value) :: named) = shape.declared named := by
        simp [declared, hname]
      rw [ofMembers_cons_foreign hname, ih, hdeclared]
      simp only [collects_cons_foreign hname]
      tauto

/-- Members give a value to a shape: those that it declares come once each, those that it requires
come, and what they change makes up the value. -/
structure Gives (shape : Shape α) (origin : Origin) (named : List (String × Node)) (a : α) :
    Prop where
  nodup : (shape.declared named).Nodup
  complete : ∀ field ∈ shape.fields, field.required = true → field.name ∈ shape.declared named
  changes : ∃ u, shape.Collects origin named u ∧ u shape.blank = a

/-- A record is read as what its members give. -/
theorem read_entries_eq_ok_iff (hreg : shape.Regular) (closed : Bool) :
    shape.read origin (.record (entries named) closed) = .ok a
      ↔ closed = true ∧ shape.Gives origin named a := by
  have hread : shape.read origin (.record (entries named) closed)
      = shape.ofMembers origin closed (entries named) [] shape.blank := by
    cases origin <;> rfl
  rw [hread, ofMembers_entries_eq_ok_iff hreg]
  simp only [List.not_mem_nil, not_false_eq_true, implies_true, or_false, true_and]
  constructor
  · rintro ⟨hclosed, hnodup, hcomplete, hchanges⟩
    exact ⟨hclosed, hnodup, hcomplete, hchanges⟩
  · rintro ⟨hclosed, hnodup, hcomplete, hchanges⟩
    exact ⟨hclosed, hnodup, hcomplete, hchanges⟩

/-! ## Other members in place of these -/

variable {named' : List (String × Node)}

theorem declared_perm (h : named.Perm named') :
    (shape.declared named).Perm (shape.declared named') :=
  (h.map Prod.fst).filter _

/-- Two fields of a shape commute, whichever comes first. -/
theorem Regular.comp_comm (hreg : shape.Regular) {field other : Field α} {value value' : Node}
    {v : α → α} (hfield : field ∈ shape.fields) (hother : other ∈ shape.fields)
    (hne : field.name ≠ other.name) (hu : field.Changes origin value u)
    (hv : other.Changes origin value' v) : u ∘ v = v ∘ u := by
  have hsymm : Std.Symm (Field.Commutes (α := α)) :=
    ⟨fun _ _ h _ _ _ _ _ _ hu hv => (h _ _ _ _ _ _ hv hu).symm⟩
  have hdistinct : field ≠ other := fun h => hne (congrArg Field.name h)
  exact hreg.commutes.forall hfield hother hdistinct _ _ _ _ _ _ hu hv

/-- The order of members that are declared once does not matter. -/
theorem Collects.perm (hreg : shape.Regular) (hperm : named.Perm named')
    (hnodup : (shape.declared named).Nodup) (h : shape.Collects origin named u) :
    shape.Collects origin named' u := by
  induction hperm generalizing u with
  | nil => exact h
  | cons member _ ih =>
    have hrest := hnodup.sublist (((List.sublist_cons_self _ _).map Prod.fst).filter _)
    cases h with
    | foreign hname hvalue h => exact .foreign hname hvalue (ih hrest h)
    | field hfield hvalue h => exact .field hfield hvalue (ih hrest h)
  | swap first second named =>
    cases h with
    | foreign hname hvalue h =>
      cases h with
      | foreign hname' hvalue' h => exact .foreign hname' hvalue' (.foreign hname hvalue h)
      | field hfield hvalue' h => exact .field hfield hvalue' (.foreign hname hvalue h)
    | @field field _ _ _ _ hfield hvalue h =>
      cases h with
      | foreign hname hvalue' h => exact .foreign hname hvalue' (.field hfield hvalue h)
      | @field other _ _ _ _ hother hvalue' h =>
        have hne : field.name ≠ other.name := by
          intro heq
          simp [declared, mem_names hother, heq] at hnodup
        rw [Function.comp_assoc, hreg.comp_comm hother hfield hne.symm hvalue' hvalue,
          ← Function.comp_assoc]
        exact .field hother hvalue' (.field hfield hvalue h)
  | trans hfirst _ ih ih' => exact ih' ((declared_perm hfirst).nodup_iff.mp hnodup) (ih hnodup h)

theorem Gives.perm (hreg : shape.Regular) (hperm : named.Perm named')
    (h : shape.Gives origin named a) : shape.Gives origin named' a where
  nodup := (declared_perm hperm).nodup_iff.mp h.nodup
  complete field hfield hrequired :=
    (declared_perm hperm).mem_iff.mp (h.complete field hfield hrequired)
  changes := by
    obtain ⟨u, hu, ha⟩ := h.changes
    exact ⟨u, hu.perm hreg hperm h.nodup, ha⟩

/-- A member that is not declared gives nothing. -/
theorem Gives.foreign (h : shape.Gives origin named a) (hname : name ∉ shape.names)
    (hvalue : value.intact = true) : shape.Gives origin ((name, value) :: named) a := by
  have hdeclared : shape.declared ((name, value) :: named) = shape.declared named := by
    simp [declared, hname]
  obtain ⟨u, hu, ha⟩ := h.changes
  exact ⟨hdeclared ▸ h.nodup, hdeclared ▸ h.complete, u, .foreign hname hvalue hu, ha⟩

/-- A node is read as the value that a field has anyway. -/
def HoldsDefault (shape : Shape α) (field : Field α) (origin : Origin) (value : Node) : Prop :=
  ∃ u, field.Changes origin value u ∧ u shape.blank = shape.blank

/-- A member that is absent has its default value. -/
theorem Gives.default (h : shape.Gives origin named a) (hfield : field ∈ shape.fields)
    (habsent : field.name ∉ named.map Prod.fst) (hvalue : shape.HoldsDefault field origin value) :
    shape.Gives origin ((field.name, value) :: named) a := by
  have hdeclared : shape.declared ((field.name, value) :: named)
      = field.name :: shape.declared named := by
    simp [declared, mem_names hfield]
  obtain ⟨u, hu, rfl⟩ := h.changes
  obtain ⟨v, hv, hblank⟩ := hvalue
  refine ⟨?_, fun other hother hrequired => ?_, u ∘ v, .field hfield hv hu, ?_⟩
  · rw [hdeclared, List.nodup_cons]
    exact ⟨fun hmem => habsent (mem_declared.mp hmem).1, h.nodup⟩
  · rw [hdeclared]
    exact List.mem_cons_of_mem _ (h.complete other hother hrequired)
  · rw [Function.comp_apply, hblank]

/-- A required member that comes once cannot be left out. -/
theorem Gives.not_of_removed (h : shape.Gives origin named a) (hfield : field ∈ shape.fields)
    (hrequired : field.required = true) (hperm : named.Perm ((field.name, value) :: named')) :
    ¬ shape.Gives origin named' b := by
  intro h'
  have hnodup := (declared_perm hperm).nodup_iff.mp h.nodup
  have hmem := h'.complete field hfield hrequired
  simp only [declared, List.map_cons, List.filter_cons, mem_names hfield, decide_true, if_true,
    List.nodup_cons] at hnodup
  exact hnodup.1 hmem

/-- A member that is declared cannot come twice. -/
theorem not_gives_of_repeated (hname : name ∈ shape.names) (hmem : name ∈ named.map Prod.fst)
    (hperm : named'.Perm ((name, value) :: named)) : ¬ shape.Gives origin named' b := by
  intro h
  have hnodup := (declared_perm hperm).nodup_iff.mp h.nodup
  simp only [declared, List.map_cons, List.filter_cons, hname, decide_true, if_true,
    List.nodup_cons] at hnodup
  exact hnodup.1 (mem_declared.mpr ⟨hmem, hname⟩)

/-! ## Another value of one member -/

variable {before after : List (String × Node)} {value' : Node}

theorem Gives.exists_changes (hreg : shape.Regular) (hfield : field ∈ shape.fields)
    (h : shape.Gives origin (before ++ (field.name, value) :: after) a) :
    ∃ v, field.Changes origin value v := by
  obtain ⟨u, hu, -⟩ := (h.perm hreg List.perm_middle).changes
  obtain ⟨v, -, hv, -⟩ := (collects_cons_field hreg hfield).mp hu
  exact ⟨v, hv⟩

/-- A value may stand for another one that is read in the same way. -/
theorem Gives.replace (hreg : shape.Regular) (hfield : field ∈ shape.fields)
    (h : shape.Gives origin (before ++ (field.name, value) :: after) a)
    (hvalue : ∀ v, field.Changes origin value v → field.Changes origin value' v) :
    shape.Gives origin (before ++ (field.name, value') :: after) a := by
  have hfirst := h.perm hreg List.perm_middle
  have hreplaced : shape.Gives origin ((field.name, value') :: (before ++ after)) a := by
    refine ⟨hfirst.nodup, hfirst.complete, ?_⟩
    obtain ⟨u, hu, ha⟩ := hfirst.changes
    obtain ⟨v, w, hv, hw, rfl⟩ := (collects_cons_field hreg hfield).mp hu
    exact ⟨w ∘ v, .field hfield (hvalue v hv) hw, ha⟩
  exact hreplaced.perm hreg List.perm_middle.symm

end Shape

end BattleOdds
