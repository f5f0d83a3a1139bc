import BattleOdds.Proofs.Document.Items

/-!
# What the members of requests come to

The shapes of everything that a document can hold are regular. An action takes two steps: its
members are kept, all but the one that says which action it is, and what has been kept is then read
by the shape of its kind.
-/
namespace BattleOdds

open Shape

theorem Node.refuse_ne_ok {α : Type} {node : Node} {wanted : Wanted} {a : α} :
    node.refuse wanted ≠ .ok a := by
  unfold refuse
  split <;> nofun

/-! ## Shapes -/

theorem Profile.regular_shape : Profile.shape.Regular where
  nodup := by decide
  uniform := by simp [Profile.shape]
  commutes := by simp [Profile.shape, Field.commutes_optional]

theorem Context.regular_shape : Context.shape.Regular where
  nodup := by decide
  uniform := by simp [Context.shape]
  commutes := by simp [Context.shape, Field.commutes_optional]

theorem Prices.regular_shape : Prices.shape.Regular where
  nodup := by decide
  uniform := by simp [Prices.shape]
  commutes := by simp [Prices.shape, Field.commutes_optional]

theorem Settings.regular_shape : Settings.shape.Regular where
  nodup := by decide
  uniform := by simp [Settings.shape]
  commutes := by simp [Settings.shape, Field.commutes_optional]

theorem Request.regular_shape : Request.shape.Regular where
  nodup := by decide
  uniform := by simp [Request.shape]
  commutes := by simp [Request.shape, Field.commutes_optional]

namespace Action

theorem regular_groundShape : groundShape.Regular where
  nodup := by decide
  uniform := by simp [groundShape]
  commutes :=
    have : Nonempty GroundOrder := ⟨groundShape.blank⟩
    by simp [groundShape, Field.commutes_optional]

theorem regular_airShape : airShape.Regular where
  nodup := by decide
  uniform := by simp [airShape]
  commutes :=
    have : Nonempty (UInt64 × AirTarget) := ⟨airShape.blank⟩
    by simp [airShape, Field.commutes_optional]

theorem regular_navalShape : navalShape.Regular where
  nodup := by decide
  uniform := by simp [navalShape]
  commutes := by simp [navalShape]

/-- What actions of one kind say of themselves, and the action that they are. -/
structure Variant where
  Order : Type
  shape : Shape Order
  make : Order → Action
  regular : shape.Regular

end Action

/-- The actions of a kind. -/
def ActionKind.variant : ActionKind → Action.Variant
  | .ground =>
    { Order := GroundOrder
      shape := Action.groundShape
      make := fun order => .ground order.soldiers order.tanks order.armed
      regular := Action.regular_groundShape }
  | .air =>
    { Order := UInt64 × AirTarget
      shape := Action.airShape
      make := fun (n, target) => .air n target
      regular := Action.regular_airShape }
  | .naval =>
    { Order := UInt64
      shape := Action.navalShape
      make := .naval
      regular := Action.regular_navalShape }

namespace Action

variable {kind : ActionKind} {node value value' : Node} {name : String}
  {named named' held held' : List (String × Node)} {kinds kinds' : List ActionKind}
  {depth level : ℕ} {action : Action} {origin : Origin}

theorem ofHeld_eq (kind : ActionKind) (node : Node) :
    ofHeld kind node = kind.variant.make <$> kind.variant.shape.read .held node := by
  cases kind <;> rfl

/-- What is kept is read by the shape of its kind. -/
theorem ofHeld_eq_ok_iff :
    ofHeld kind node = .ok action
      ↔ ∃ order, kind.variant.shape.read .held node = .ok order
        ∧ kind.variant.make order = action := by
  rw [ofHeld_eq]
  cases kind.variant.shape.read .held node with
  | error e => simp
  | ok order => simp

/-- Kept members are read as what they give to the shape of their kind. -/
theorem ofHeld_entries_eq_ok_iff :
    ofHeld kind (.record (entries held) true) = .ok action
      ↔ ∃ order, kind.variant.shape.Gives .held held order ∧ kind.variant.make order = action := by
  simp only [ofHeld_eq_ok_iff, read_entries_eq_ok_iff kind.variant.regular, true_and]

/-! ## Keeping members -/

/-- Members are kept: the kinds that they name, and the others as they are kept, each time the first
one first. -/
inductive Keeps (origin : Origin) (depth : ℕ) :
    List (String × Node) → List ActionKind → List (String × Node) → Prop
  | nil : Keeps origin depth [] [] []
  | named {value : Node} {kind : ActionKind} {named kinds held}
      (hkind : Tagged.ofIdentifier origin value = .ok kind)
      (h : Keeps origin depth named kinds held) :
      Keeps origin depth ((kindName, value) :: named) (kind :: kinds) held
  | other {name : String} {value value' : Node} {named kinds held} (hname : name ≠ kindName)
      (hvalue : value.held? depth = some value') (h : Keeps origin depth named kinds held) :
      Keeps origin depth ((name, value) :: named) kinds ((name, value') :: held)

/-- Takes one more member. -/
def Kept.take (origin : Origin) (depth : ℕ) (kept : Kept) (member : Node × Node) :
    Except Fault Kept :=
  kept.add origin depth member.1 member.2

theorem take_kind (kept : Kept) :
    kept.take origin depth (.text kindName, value)
      = if kept.kind.isSome then .error (.misfit (.repeatedMember kindName))
        else (fun kind => { kept with kind := some kind })
          <$> Tagged.ofIdentifier origin value := by
  cases kept with
  | mk kind members =>
    cases kind <;> cases h : (Tagged.ofIdentifier origin value : Except Fault ActionKind) <;>
      simp [Kept.take, Kept.add, Node.held?, Node.asName, isKindName, bind, Except.bind, h, pure,
        Except.pure]

theorem take_other (kept : Kept) (hname : name ≠ kindName) :
    kept.take origin depth (.text name, value)
      = match value.held? depth with
        | some value => .ok { kept with members := (.text name, value) :: kept.members }
        | none => .error .broken := by
  simp only [Kept.take, Kept.add, Node.held?, Node.asName, isKindName, Option.map_eq_map,
    Option.map_some, beq_iff_eq, hname, if_false]
  cases value.held? depth <;> rfl

theorem keeps_cons_named : Keeps origin depth ((kindName, value) :: named) kinds held
    ↔ ∃ kind kinds', Tagged.ofIdentifier origin value = .ok kind
      ∧ Keeps origin depth named kinds' held ∧ kinds = kind :: kinds' := by
  constructor
  · intro h
    cases h with
    | named hkind h => exact ⟨_, _, hkind, h, rfl⟩
    | other hname _ _ => exact absurd rfl hname
  · rintro ⟨kind, kinds, hkind, h, rfl⟩
    exact .named hkind h

theorem keeps_cons_other (hname : name ≠ kindName) :
    Keeps origin depth ((name, value) :: named) kinds held
      ↔ ∃ value' held', value.held? depth = some value' ∧ Keeps origin depth named kinds held'
        ∧ held = (name, value') :: held' := by
  constructor
  · intro h
    cases h with
    | named _ _ => exact absurd rfl hname
    | other _ hvalue h => exact ⟨_, _, hvalue, h, rfl⟩
  · rintro ⟨value', held', hvalue, h, rfl⟩
    exact .other hname hvalue h

/-- Members are taken one by one, as long as they do not name a second kind. -/
theorem foldlM_take_eq_ok_iff {kept kept' : Kept} :
    (entries named).foldlM (Kept.take origin depth) kept = .ok kept'
      ↔ ∃ kinds held, Keeps origin depth named kinds held
        ∧ (kinds = [] ∨ kept.kind = none ∧ kinds.length = 1)
        ∧ kept' = ⟨kinds.head?.or kept.kind, (entries held).reverse ++ kept.members⟩ := by
  induction named generalizing kept with
  | nil =>
    constructor
    · intro h
      cases h
      exact ⟨[], [], .nil, Or.inl rfl, rfl⟩
    · rintro ⟨kinds, held, hkeeps, -, rfl⟩
      cases hkeeps
      rfl
  | cons member named ih =>
    obtain ⟨name, value⟩ := member
    rw [entries_cons, List.foldlM_cons]
    by_cases hname : name = kindName
    · subst hname
      simp only [keeps_cons_named]
      rw [take_kind]
      obtain ⟨kind, members⟩ := kept
      cases kind with
      | some first =>
        refine iff_of_false (by simp [bind, Except.bind]) ?_
        rintro ⟨_, held, ⟨kind, kinds, -, -, rfl⟩, hkinds, -⟩
        simp at hkinds
      | none =>
        cases hkind : (Tagged.ofIdentifier origin value : Except Fault ActionKind) with
        | error e => simp [bind, Except.bind]
        | ok kind =>
          simp [bind, Except.bind, ih]
    · simp only [keeps_cons_other hname]
      rw [take_other kept hname]
      cases hvalue : value.held? depth with
      | none => simp [bind, Except.bind]
      | some value' =>
        simp [bind, Except.bind, ih]

theorem readAt_record (members : List (Node × Node)) :
    readAt level .json (.record members true)
      = members.foldlM (Kept.take .json (Origin.json.maxDepth - level)) {} >>= fun kept =>
        match kept.kind with
        | some kind => ofHeld kind (.record kept.members.reverse true)
        | none => .error (.misfit (.missingMember kindName)) := by
  rfl

/-- An action is read in two steps: its members are kept, and those that are kept are read. -/
theorem readAt_entries_eq_ok_iff :
    readAt level .json (.record (entries named) true) = .ok action
      ↔ ∃ kind held, Keeps .json (Origin.json.maxDepth - level) named [kind] held
        ∧ ofHeld kind (.record (entries held) true) = .ok action := by
  rw [readAt_record]
  constructor
  · intro h
    cases htake : (entries named).foldlM (Kept.take .json (Origin.json.maxDepth - level)) {} with
    | error e =>
      rw [htake] at h
      cases h
    | ok kept =>
    rw [htake] at h
    obtain ⟨kinds, held, hkeeps, hkinds, rfl⟩ := foldlM_take_eq_ok_iff.mp htake
    rcases hkinds with rfl | ⟨-, hlength⟩
    · cases h
    · obtain ⟨kind, rfl⟩ := List.length_eq_one_iff.mp hlength
      refine ⟨kind, held, hkeeps, ?_⟩
      simpa [bind, Except.bind] using h
  · rintro ⟨kind, held, hkeeps, h⟩
    have htake : (entries named).foldlM (Kept.take .json (Origin.json.maxDepth - level)) {}
        = .ok ⟨some kind, (entries held).reverse⟩ :=
      foldlM_take_eq_ok_iff.mpr
        ⟨[kind], held, hkeeps, Or.inr ⟨rfl, rfl⟩, by rw [List.append_nil]; rfl⟩
    rw [htake]
    simpa [bind, Except.bind] using h

/-- An action that is a list starts with its kind. -/
theorem readAt_list_eq_ok_iff {first : Node} {items : List Node} :
    readAt level .json (.list (first :: items) true) = .ok action
      ↔ ∃ kind held, Tagged.ofIdentifier .json first = .ok kind
        ∧ Node.heldItems? (Origin.json.maxDepth - level) items = some held
        ∧ ofHeld kind (.list held true) = .ok action := by
  change (Tagged.ofIdentifier .json first >>= _ : Except Fault Action) = _ ↔ _
  cases (Tagged.ofIdentifier .json first : Except Fault ActionKind) with
  | error e => simp [bind, Except.bind]
  | ok kind =>
    cases Node.heldItems? (Origin.json.maxDepth - level) items <;> simp [bind, Except.bind]

/-! ## Keeping other members -/

namespace Keeps

theorem kind_of_mem (h : Keeps origin depth named kinds held) (hmem : (kindName, value) ∈ named) :
    ∃ kind ∈ kinds, Tagged.ofIdentifier origin value = .ok kind := by
  induction h with
  | nil => simp at hmem
  | named hkind _ ih =>
    rcases List.mem_cons.mp hmem with heq | hmem
    · cases heq
      exact ⟨_, by simp, hkind⟩
    · obtain ⟨kind, hmem, hkind⟩ := ih hmem
      exact ⟨kind, by simp [hmem], hkind⟩
  | other hname _ _ ih =>
    rcases List.mem_cons.mp hmem with heq | hmem
    · cases heq
      exact absurd rfl hname
    · exact ih hmem

/-- The members that are kept are those that do not name the kind. -/
theorem map_fst (h : Keeps origin depth named kinds held) :
    held.map Prod.fst = (named.map Prod.fst).filter (· ≠ kindName) := by
  induction h with
  | nil => rfl
  | named _ _ ih => simp [ih]
  | other hname _ _ ih => simp [hname, ih]

/-- What is kept follows from the members. -/
theorem unique (h : Keeps origin depth named kinds held)
    (h' : Keeps origin depth named kinds' held') : kinds = kinds' ∧ held = held' := by
  induction h generalizing kinds' held' with
  | nil =>
    cases h'
    exact ⟨rfl, rfl⟩
  | named hkind _ ih =>
    obtain ⟨kind', kinds', hkind', hrest, rfl⟩ := keeps_cons_named.mp h'
    cases hkind.symm.trans hkind'
    obtain ⟨rfl, rfl⟩ := ih hrest
    exact ⟨rfl, rfl⟩
  | other hname hvalue _ ih =>
    obtain ⟨value', held', hvalue', hrest, rfl⟩ := (keeps_cons_other hname).mp h'
    cases hvalue.symm.trans hvalue'
    obtain ⟨rfl, rfl⟩ := ih hrest
    exact ⟨rfl, rfl⟩

/-- The order of what is kept follows the order of the members. -/
theorem perm (hperm : named.Perm named') (h : Keeps origin depth named kinds held) :
    ∃ kinds' held', Keeps origin depth named' kinds' held' ∧ kinds.Perm kinds'
      ∧ held.Perm held' := by
  induction hperm generalizing kinds held with
  | nil => exact ⟨kinds, held, h, .rfl, .rfl⟩
  | cons member _ ih =>
    cases h with
    | named hkind h =>
      obtain ⟨kinds', held', h', hkinds, hheld⟩ := ih h
      exact ⟨_, _, .named hkind h', hkinds.cons _, hheld⟩
    | other hname hvalue h =>
      obtain ⟨kinds', held', h', hkinds, hheld⟩ := ih h
      exact ⟨_, _, .other hname hvalue h', hkinds, hheld.cons _⟩
  | swap first second named =>
    cases h with
    | named hkind h =>
      cases h with
      | named hkind' h => exact ⟨_, _, .named hkind' (.named hkind h), .swap _ _ _, .rfl⟩
      | other hname hvalue h => exact ⟨_, _, .other hname hvalue (.named hkind h), .rfl, .rfl⟩
    | other hname hvalue h =>
      cases h with
      | named hkind h => exact ⟨_, _, .named hkind (.other hname hvalue h), .rfl, .rfl⟩
      | other hname' hvalue' h =>
        exact ⟨_, _, .other hname' hvalue' (.other hname hvalue h), .rfl, .swap _ _ _⟩
  | trans _ _ ih ih' =>
    obtain ⟨kinds', held', h', hkinds, hheld⟩ := ih h
    obtain ⟨kinds'', held'', h'', hkinds', hheld'⟩ := ih' h'
    exact ⟨kinds'', held'', h'', hkinds.trans hkinds', hheld.trans hheld'⟩

end Keeps

end Action

end BattleOdds
