import BattleOdds.Proofs.Document.Decoding
import BattleOdds.Proofs.Document.Node

/-!
# Documents that say the same

Members may stand in another order, members that nothing reads may be added, and so may members
that say what is taken anyway: the document is read as the same request. A member that is required
cannot be left out, and none that is read may come twice. Records of members obey these laws whether
they are read at once, or kept first as those of an action are.
-/
namespace BattleOdds

/-- A record of members that have texts as names. -/
abbrev Node.object (named : List (String × Node)) : Node := .record (Shape.entries named) true

/-- Two records whose members are related. -/
inductive Node.OnMembers (rel : List (String × Node) → List (String × Node) → Prop) :
    Node → Node → Prop
  | intro {named named'} (h : rel named named') : OnMembers rel (.object named) (.object named')

/-! ## Members of a shape -/

namespace Shape

variable {α : Type} {shape : Shape α} {origin : Origin} {named named' : List (String × Node)}
  {a b : α}

/-- Members that say the same as others: in another order, with one more member that is not
declared, or with one more that says what is taken where it is absent. -/
inductive Restates (shape : Shape α) (origin : Origin) (named named' : List (String × Node)) : Prop
  | reordered (h : named.Perm named')
  | foreign {name : String} {value : Node} (hname : name ∉ shape.names)
    (hvalue : value.intact = true) (h : named'.Perm ((name, value) :: named))
  | default {field : Field α} {value : Node} (hfield : field ∈ shape.fields)
    (hoptional : field.required = false) (habsent : field.name ∉ named.map Prod.fst)
    (hvalue : shape.HoldsDefault field origin value)
    (h : named'.Perm ((field.name, value) :: named))

/-- Members that leave out a required one of others, or repeat a declared one. -/
inductive Spoils (shape : Shape α) (named named' : List (String × Node)) : Prop
  | removed {field : Field α} {value : Node} (hfield : field ∈ shape.fields)
    (hrequired : field.required = true) (h : named.Perm ((field.name, value) :: named'))
  | repeated {name : String} {value : Node} (hname : name ∈ shape.names)
    (hgiven : name ∈ named.map Prod.fst) (h : named'.Perm ((name, value) :: named))

theorem Gives.restate (hreg : shape.Regular) (h : shape.Gives origin named a)
    (hrestates : shape.Restates origin named named') : shape.Gives origin named' a := by
  cases hrestates with
  | reordered hperm => exact h.perm hreg hperm
  | foreign hname hvalue hperm => exact (h.foreign hname hvalue).perm hreg hperm.symm
  | default hfield _ habsent hvalue hperm =>
    exact (h.default hfield habsent hvalue).perm hreg hperm.symm

theorem Gives.not_of_spoils (h : shape.Gives origin named a) (hspoils : shape.Spoils named named') :
    ¬ shape.Gives origin named' b := by
  cases hspoils with
  | removed hfield hrequired hperm => exact h.not_of_removed hfield hrequired hperm
  | repeated hname hgiven hperm => exact not_gives_of_repeated hname hgiven hperm

/-- Records whose members say the same are read as the same value. -/
theorem read_restate {node node' : Node} (hreg : shape.Regular)
    (hrestates : node.OnMembers (shape.Restates origin) node')
    (h : shape.read origin node = .ok a) : shape.read origin node' = .ok a := by
  obtain ⟨hmembers⟩ := hrestates
  have hgives := ((read_entries_eq_ok_iff hreg true).mp h).2
  exact (read_entries_eq_ok_iff hreg true).mpr ⟨rfl, hgives.restate hreg hmembers⟩

/-- A record whose members are spoilt is not read. -/
theorem read_ne_ok_of_spoils {node node' : Node} (hreg : shape.Regular)
    (hspoils : node.OnMembers shape.Spoils node') (h : shape.read origin node = .ok a) :
    shape.read origin node' ≠ .ok b := by
  intro h'
  obtain ⟨hmembers⟩ := hspoils
  have hgives := ((read_entries_eq_ok_iff hreg true).mp h).2
  exact hgives.not_of_spoils hmembers ((read_entries_eq_ok_iff hreg true).mp h').2

end Shape

/-! ## Members of an action -/

namespace Action

open Shape

variable {level depth : ℕ} {kind kind' : ActionKind} {action action' : Action} {value : Node}
  {named named' held : List (String × Node)}

/-- Members say of an action that it is of a kind. -/
def NamesKind (named : List (String × Node)) (kind : ActionKind) : Prop :=
  (kindName, .text (Tagged.word kind)) ∈ named

/-- Members that say the same of an action as others. What they add has to be kept, so that it may
have so many levels only. -/
inductive Restates (depth : ℕ) (named named' : List (String × Node)) : Prop
  | reordered (h : named.Perm named')
  | foreign {kind : ActionKind} {name : String} {value value' : Node} (hkind : NamesKind named kind)
    (hname : name ≠ kindName ∧ name ∉ kind.variant.shape.names)
    (hheld : value.held? depth = some value') (h : named'.Perm ((name, value) :: named))
  | default {kind : ActionKind} {field : Field kind.variant.Order} {value value' : Node}
    (hkind : NamesKind named kind) (hfield : field ∈ kind.variant.shape.fields)
    (hoptional : field.required = false) (habsent : field.name ∉ named.map Prod.fst)
    (hheld : value.held? depth = some value')
    (hvalue : kind.variant.shape.HoldsDefault field .held value')
    (h : named'.Perm ((field.name, value) :: named))

/-- Members that leave out the kind of an action or a required member of its kind, or that repeat
one of these. -/
inductive Spoils (named named' : List (String × Node)) : Prop
  | unnamed {value : Node} (h : named.Perm ((kindName, value) :: named'))
  | removed {kind : ActionKind} {field : Field kind.variant.Order} {value : Node}
    (hkind : NamesKind named kind) (hfield : field ∈ kind.variant.shape.fields)
    (hrequired : field.required = true) (h : named.Perm ((field.name, value) :: named'))
  | renamed {value : Node} (h : named'.Perm ((kindName, value) :: named))
  | repeated {kind : ActionKind} {name : String} {value : Node} (hkind : NamesKind named kind)
    (hname : name ∈ kind.variant.shape.names) (hgiven : name ∈ named.map Prod.fst)
    (h : named'.Perm ((name, value) :: named))

/-- The member that says which action it is belongs to no kind. -/
theorem kindName_notMem_names (kind : ActionKind) : kindName ∉ kind.variant.shape.names := by
  cases kind <;> decide

theorem ofIdentifier_word (kind : ActionKind) :
    Tagged.ofIdentifier .json (.text (Tagged.word kind)) = .ok kind := by
  cases kind <;> rfl

theorem Keeps.eq_of_namesKind (h : Keeps .json depth named [kind] held)
    (hkind : NamesKind named kind') : kind = kind' := by
  obtain ⟨other, hmem, hother⟩ := h.kind_of_mem hkind
  rw [List.mem_singleton.mp hmem, ofIdentifier_word] at hother
  exact (Except.ok.inj hother).symm

/-- The members of an action keep their meaning in any order. -/
theorem Keeps.perm_single {origin : Origin} (hperm : named.Perm named')
    (h : Keeps origin depth named [kind] held) :
    ∃ held', Keeps origin depth named' [kind] held' ∧ held.Perm held' := by
  obtain ⟨kinds', held', h', hkinds, hheld⟩ := h.perm hperm
  cases List.singleton_perm.mp hkinds
  exact ⟨held', h', hheld⟩

/-- Records whose members say the same of an action are read as the same action. -/
theorem readAt_restate {node node' : Node}
    (hrestates : node.OnMembers (Restates (Origin.json.maxDepth - level)) node')
    (h : readAt level .json node = .ok action) : readAt level .json node' = .ok action := by
  obtain @⟨named, named', hmembers⟩ := hrestates
  obtain ⟨kind, held, hkeeps, hread⟩ := readAt_entries_eq_ok_iff.mp h
  obtain ⟨order, hgives, rfl⟩ := ofHeld_entries_eq_ok_iff.mp hread
  -- What is kept of the other members gives the same to the shape of the kind.
  suffices hkept : ∃ held', Keeps .json (Origin.json.maxDepth - level) named' [kind] held'
      ∧ kind.variant.shape.Gives .held held' order by
    obtain ⟨held', hkeeps', hgives'⟩ := hkept
    exact readAt_entries_eq_ok_iff.mpr
      ⟨kind, held', hkeeps', ofHeld_entries_eq_ok_iff.mpr ⟨order, hgives', rfl⟩⟩
  cases hmembers with
  | reordered hperm =>
    obtain ⟨held', hkeeps', hheld⟩ := hkeeps.perm_single hperm
    exact ⟨held', hkeeps', hgives.perm kind.variant.regular hheld⟩
  | @foreign kind' name value value' hkind hname hheld hperm =>
    cases hkeeps.eq_of_namesKind hkind
    obtain ⟨held', hkeeps', hheld'⟩ := (hkeeps.other hname.1 hheld).perm_single hperm.symm
    have hgives' := hgives.foreign hname.2 (Node.settled_of_held? value hheld).intact
    exact ⟨held', hkeeps', hgives'.perm kind.variant.regular hheld'⟩
  | @default kind' field value value' hkind hfield _ habsent hheld hvalue hperm =>
    cases hkeeps.eq_of_namesKind hkind
    have hname : field.name ≠ kindName := fun heq =>
      kindName_notMem_names kind (heq ▸ mem_names hfield)
    obtain ⟨held', hkeeps', hheld'⟩ := (hkeeps.other hname hheld).perm_single hperm.symm
    have habsent' : field.name ∉ held.map Prod.fst := by
      rw [hkeeps.map_fst]
      exact fun hmem => habsent (List.mem_of_mem_filter hmem)
    exact ⟨held', hkeeps', (hgives.default hfield habsent' hvalue).perm kind.variant.regular hheld'⟩

/-- A record whose members are spoilt is not read as an action. -/
theorem readAt_ne_ok_of_spoils {node node' : Node} (hspoils : node.OnMembers Spoils node')
    (h : readAt level .json node = .ok action) : readAt level .json node' ≠ .ok action' := by
  intro h'
  obtain @⟨named, named', hmembers⟩ := hspoils
  obtain ⟨kind, held, hkeeps, hread⟩ := readAt_entries_eq_ok_iff.mp h
  obtain ⟨order, hgives, -⟩ := ofHeld_entries_eq_ok_iff.mp hread
  obtain ⟨kind', held', hkeeps', hread'⟩ := readAt_entries_eq_ok_iff.mp h'
  obtain ⟨order', hgives', -⟩ := ofHeld_entries_eq_ok_iff.mp hread'
  cases hmembers with
  | unnamed hperm =>
    obtain ⟨_, hfirst, -⟩ := hkeeps.perm_single hperm
    obtain ⟨_, _, _, hrest, heq⟩ := keeps_cons_named.mp hfirst
    cases heq
    exact absurd (hrest.unique hkeeps').1 (by simp)
  | @removed kind'' field value hkind hfield hrequired hperm =>
    cases hkeeps.eq_of_namesKind hkind
    have hname : field.name ≠ kindName := fun heq =>
      kindName_notMem_names kind (heq ▸ mem_names hfield)
    obtain ⟨_, hfirst, hheld⟩ := hkeeps.perm_single hperm
    obtain ⟨value', held'', -, hrest, rfl⟩ := (keeps_cons_other hname).mp hfirst
    obtain ⟨hkinds, rfl⟩ := hrest.unique hkeeps'
    cases hkinds
    exact hgives.not_of_removed hfield hrequired hheld hgives'
  | renamed hperm =>
    obtain ⟨_, hfirst, -⟩ := hkeeps'.perm_single hperm
    obtain ⟨_, _, _, hrest, heq⟩ := keeps_cons_named.mp hfirst
    cases heq
    exact absurd (hkeeps.unique hrest).1 (by simp)
  | @repeated kind'' name value hkind hname hgiven hperm =>
    cases hkeeps.eq_of_namesKind hkind
    have hne : name ≠ kindName := fun heq => kindName_notMem_names kind (heq ▸ hname)
    obtain ⟨_, hfirst, hheld⟩ := hkeeps'.perm_single hperm
    obtain ⟨value', held'', -, hrest, rfl⟩ := (keeps_cons_other hne).mp hfirst
    obtain ⟨hkinds, rfl⟩ := hkeeps.unique hrest
    cases hkinds
    have hmem : name ∈ held.map Prod.fst := by
      rw [hkeeps.map_fst]
      exact List.mem_filter.mpr ⟨hgiven, by simpa using hne⟩
    exact not_gives_of_repeated hname hmem hheld hgives'

/-! ### Lists of an action -/

/-- The list of an action without its kind, or without a required one of the other items. -/
inductive Shortens : Node → Node → Prop
  | kind {first : Node} {items : List Node} :
    Shortens (.list (first :: items) true) (.list items true)
  | required {kind : ActionKind} {items : List Node} {i : ℕ} {field : Field kind.variant.Order}
    (hfield : kind.variant.shape.fields[i]? = some field) (hrequired : field.required = true)
    (hi : i < items.length) : Shortens (.list (.text (Tagged.word kind) :: items) true)
      (.list (.text (Tagged.word kind) :: items.eraseIdx i) true)

theorem heldItems?_eraseIdx {items held : List Node} (h : Node.heldItems? depth items = some held)
    (i : ℕ) : Node.heldItems? depth (items.eraseIdx i) = some (held.eraseIdx i) := by
  induction items generalizing held i with
  | nil =>
    cases h
    rfl
  | cons item items ih =>
    simp only [Node.heldItems?, Option.bind_eq_bind, Option.bind_eq_some_iff, Option.pure_def,
      Option.some.injEq] at h
    obtain ⟨item', hitem, items', hitems, rfl⟩ := h
    cases i with
    | zero => exact hitems
    | succ i => simp [Node.heldItems?, hitem, ih hitems i]

theorem length_heldItems? {items held : List Node} (h : Node.heldItems? depth items = some held) :
    held.length = items.length := by
  induction items generalizing held with
  | nil =>
    cases h
    rfl
  | cons item items ih =>
    simp only [Node.heldItems?, Option.bind_eq_bind, Option.bind_eq_some_iff, Option.pure_def,
      Option.some.injEq] at h
    obtain ⟨item', hitem, items', hitems, rfl⟩ := h
    simp [ih hitems]

/-- What is kept of a flag is no whole number. -/
theorem word64_ne_ok_of_flag {origin : Origin} {b : Bool} {n : UInt64} (hsettled : value.Settled)
    (h : value.flag origin = .ok b) : value.word64 origin ≠ .ok n := by
  cases hsettled with
  | bool b => nofun
  | _ => cases h

/-- Without one of its counts a ground action lacks an item, or has its flag in the place of one. -/
theorem ground_ne_ok {held : List Node} {i : ℕ} {order order' : GroundOrder}
    {field : Field GroundOrder} (hsettled : ∀ item ∈ held, item.Settled)
    (h : groundShape.ofItems .held true groundShape.fields 0 held groundShape.blank = .ok order)
    (hfield : groundShape.fields[i]? = some field) (hrequired : field.required = true) :
    groundShape.ofItems .held true groundShape.fields 0 (held.eraseIdx i) groundShape.blank
      ≠ .ok order' := by
  intro h'
  have hi : i = 0 ∨ i = 1 := by
    rcases i with _ | _ | _ | i
    · exact Or.inl rfl
    · exact Or.inr rfl
    · cases hfield
      cases hrequired
    · simp [groundShape] at hfield
  rcases held with _ | ⟨a, _ | ⟨b, _ | ⟨c, _ | ⟨d, more⟩⟩⟩⟩
  · exact absurd ((length_le_of_ofItems h).2) (by decide)
  · exact absurd ((length_le_of_ofItems h).2) (by simp [groundShape, Field.mandatory])
  · have hrest := (length_le_of_ofItems h').2
    rcases hi with rfl | rfl <;> simp [groundShape, Field.mandatory] at hrest
  · obtain ⟨_, -, h⟩ := ofItems_cons.mp h
    obtain ⟨_, -, h⟩ := ofItems_cons.mp h
    obtain ⟨_, hflag, -⟩ := ofItems_cons.mp h
    obtain ⟨flag, hflag, -⟩ := Field.exists_of_read_optional hflag
    have hcount : ∃ n, c.word64 .held = .ok n := by
      rcases hi with rfl | rfl
      all_goals
        obtain ⟨_, -, h'⟩ := ofItems_cons.mp h'
        obtain ⟨_, hcount, -⟩ := ofItems_cons.mp h'
        obtain ⟨n, hn, -⟩ := Field.exists_of_read_mandatory hcount
        exact ⟨n, hn⟩
    obtain ⟨n, hn⟩ := hcount
    exact word64_ne_ok_of_flag (hsettled c (by simp)) hflag hn
  · have hlength := (length_le_of_ofItems h).1
    have hcount : groundShape.fields.length = 3 := rfl
    simp only [List.length_cons, hcount] at hlength
    omega

/-- An action cannot be read from a list that lacks a required item. -/
theorem ofHeld_ne_ok_of_eraseIdx {held : List Node} {i : ℕ} {field : Field kind.variant.Order}
    (hsettled : ∀ item ∈ held, item.Settled) (h : ofHeld kind (.list held true) = .ok action)
    (hfield : kind.variant.shape.fields[i]? = some field) (hrequired : field.required = true)
    (hi : i < held.length) : ofHeld kind (.list (held.eraseIdx i) true) ≠ .ok action' := by
  intro h'
  obtain ⟨order, h, -⟩ := ofHeld_eq_ok_iff.mp h
  obtain ⟨order', h', -⟩ := ofHeld_eq_ok_iff.mp h'
  have hlength := List.length_eraseIdx_add_one hi
  cases kind with
  | ground => exact ground_ne_ok hsettled h hfield hrequired h'
  | air =>
    have hall : ∀ field ∈ airShape.fields, field.required = true := by
      simp [airShape, Field.mandatory]
    have hcomplete := length_eq_of_ofItems hall h
    have hcomplete' := length_eq_of_ofItems hall h'
    omega
  | naval =>
    have hall : ∀ field ∈ navalShape.fields, field.required = true := by
      simp [navalShape, Field.mandatory]
    have hcomplete := length_eq_of_ofItems hall h
    have hcomplete' := length_eq_of_ofItems hall h'
    omega

/-- No item of an action but its kind starts with a word. -/
theorem ofHeld_text_ne_ok {w : String} {held : List Node} :
    ofHeld kind (.list (.text w :: held) true) ≠ .ok action := by
  intro h
  obtain ⟨order, h, -⟩ := ofHeld_eq_ok_iff.mp h
  cases kind with
  | ground =>
    obtain ⟨_, hcount, -⟩ := ofItems_cons.mp h
    cases hcount
  | air =>
    obtain ⟨_, hcount, -⟩ := ofItems_cons.mp h
    cases hcount
  | naval =>
    obtain ⟨_, hcount, -⟩ := ofItems_cons.mp h
    cases hcount

theorem exists_word_of_ofIdentifier {value : Node}
    (h : Tagged.ofIdentifier .json value = .ok kind) : ∃ w, value = .text w := by
  unfold Tagged.ofIdentifier at h
  split at h
  · contradiction
  · exact ⟨_, rfl⟩
  · contradiction
  · exact absurd h Node.refuse_ne_ok

theorem readAt_ne_ok_of_shortens {node node' : Node} (hshortens : Shortens node node')
    (h : readAt level .json node = .ok action) : readAt level .json node' ≠ .ok action' := by
  intro h'
  cases hshortens with
  | @kind first items =>
    cases items with
    | nil => cases h'
    | cons next items =>
      obtain ⟨kind, held, -, hheld, h⟩ := readAt_list_eq_ok_iff.mp h
      obtain ⟨kind', _, hkind', -, -⟩ := readAt_list_eq_ok_iff.mp h'
      obtain ⟨w, rfl⟩ := exists_word_of_ofIdentifier hkind'
      simp only [Node.heldItems?, Node.held?, Option.bind_eq_bind, Option.bind_eq_some_iff,
        Option.pure_def, Option.some.injEq] at hheld
      obtain ⟨_, rfl, held, -, rfl⟩ := hheld
      exact ofHeld_text_ne_ok h
  | @required kind items i field hfield hrequired hi =>
    obtain ⟨kind', held, hkind, hheld, h⟩ := readAt_list_eq_ok_iff.mp h
    obtain ⟨kind'', held', hkind', hheld', h'⟩ := readAt_list_eq_ok_iff.mp h'
    cases (ofIdentifier_word kind).symm.trans hkind
    cases (ofIdentifier_word kind).symm.trans hkind'
    cases (heldItems?_eraseIdx hheld i).symm.trans hheld'
    exact ofHeld_ne_ok_of_eraseIdx (Node.settled_of_heldItems? items hheld) h hfield hrequired
      (length_heldItems? hheld ▸ hi) h'

end Action

end BattleOdds
