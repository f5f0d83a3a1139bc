import BattleOdds.Proofs.Document.Shape

/-!
# What a list gives to a shape

A list gives the values of a shape in the order of its fields. It can leave out the last ones, if
they are not required, and it says what the record says that names all of its items.
-/
namespace BattleOdds.Shape

variable {α : Type} {shape : Shape α} {origin : Origin} {value : Node} {field : Field α} {a b : α}
  {fields : List (Field α)} {items : List Node} {closed : Bool} {count i : ℕ}

theorem ofItems_nil : shape.ofItems origin closed fields count [] a = .ok b
    ↔ closed = true ∧ (∀ field ∈ fields, field.required = false) ∧ a = b := by
  cases fields with
  | nil => cases closed <;> simp [ofItems]
  | cons field fields =>
    cases closed with
    | false => simp [ofItems]
    | true =>
      rw [ofItems]
      cases hfind : (field :: fields).findIdx? (·.required) with
      | none =>
        have hoptional : ∀ other ∈ field :: fields, other.required = false := by
          simpa using hfind
        simpa using fun _ => hoptional
      | some more =>
        refine iff_of_false (by simp) ?_
        rintro ⟨-, hoptional, -⟩
        rw [List.findIdx?_eq_none_iff.mpr hoptional] at hfind
        cases hfind

theorem ofItems_cons {item : Node} :
    shape.ofItems origin closed (field :: fields) count (item :: items) a = .ok b
      ↔ ∃ c, field.read origin item a = .ok c
        ∧ shape.ofItems origin closed fields (count + 1) items c = .ok b := by
  rw [ofItems]
  cases field.read origin item a with
  | error e => simp [bind, Except.bind]
  | ok c => simp [bind, Except.bind]

/-- A list has no more items than the shape has fields, and what it leaves out is not required. -/
theorem length_le_of_ofItems (h : shape.ofItems origin closed fields count items a = .ok b) :
    items.length ≤ fields.length ∧ ∀ field ∈ fields.drop items.length, field.required = false := by
  induction items generalizing fields count a with
  | nil => simpa using (ofItems_nil.mp h).2.1
  | cons item items ih =>
    cases fields with
    | nil => cases origin <;> simp [ofItems] at h
    | cons field fields =>
      obtain ⟨c, -, hrest⟩ := ofItems_cons.mp h
      simpa using ih hrest

/-- A list of required values is complete. -/
theorem length_eq_of_ofItems (hall : ∀ field ∈ fields, field.required = true)
    (h : shape.ofItems origin closed fields count items a = .ok b) :
    items.length = fields.length := by
  obtain ⟨hle, hdropped⟩ := length_le_of_ofItems h
  refine Nat.le_antisymm hle (List.drop_eq_nil_iff.mp (List.eq_nil_iff_forall_not_mem.mpr ?_))
  intro field hfield
  have hoptional := hdropped field hfield
  rw [hall field (List.mem_of_mem_drop hfield)] at hoptional
  cases hoptional

/-- The field at the place of a name. -/
theorem exists_field_of_names {name : String} (h : shape.names[i]? = some name) :
    ∃ field, shape.fields[i]? = some field ∧ field.name = name := by
  rw [names, List.getElem?_map] at h
  exact Option.map_eq_some_iff.mp h

/-- An item may stand for another one that is read in the same way. -/
theorem ofItems_set {value' : Node} (h : shape.ofItems origin closed fields count items a = .ok b)
    (hfield : fields[i]? = some field) (hitem : items[i]? = some value)
    (hvalue : ∀ c d, field.read origin value c = .ok d → field.read origin value' c = .ok d) :
    shape.ofItems origin closed fields count (items.set i value') a = .ok b := by
  induction items generalizing fields count a i with
  | nil => simp at hitem
  | cons item items ih =>
    cases fields with
    | nil => simp at hfield
    | cons first fields =>
      obtain ⟨c, hread, hrest⟩ := ofItems_cons.mp h
      cases i with
      | zero =>
        simp only [List.getElem?_cons_zero, Option.some.injEq] at hfield hitem
        subst hfield hitem
        exact ofItems_cons.mpr ⟨c, hvalue a c hread, hrest⟩
      | succ i =>
        have hset := ih hrest (by simpa using hfield) (by simpa using hitem)
        exact ofItems_cons.mpr ⟨c, hread, hset⟩

/-- An item that is read is read as the field at its place. -/
theorem exists_read_of_ofItems (h : shape.ofItems origin closed fields count items a = .ok b)
    (hfield : fields[i]? = some field) (hitem : items[i]? = some value) :
    ∃ c d, field.read origin value c = .ok d := by
  induction items generalizing fields count a i with
  | nil => simp at hitem
  | cons item items ih =>
    cases fields with
    | nil => simp at hfield
    | cons first fields =>
      obtain ⟨c, hread, hrest⟩ := ofItems_cons.mp h
      cases i with
      | zero =>
        simp only [List.getElem?_cons_zero, Option.some.injEq] at hfield hitem
        subst hfield hitem
        exact ⟨a, c, hread⟩
      | succ i => exact ih hrest (by simpa using hfield) (by simpa using hitem)

/-- Items in the order of the fields change what the members of their names do. -/
theorem exists_collects_of_ofItems (hreg : shape.Regular)
    (hfields : ∀ field ∈ fields, field ∈ shape.fields) (hlength : items.length = fields.length)
    (h : shape.ofItems origin closed fields count items a = .ok b) :
    ∃ u, shape.Collects origin ((fields.map Field.name).zip items) u ∧ u a = b := by
  induction fields generalizing count items a with
  | nil =>
    cases List.length_eq_zero_iff.mp hlength
    exact ⟨id, .nil, (ofItems_nil.mp h).2.2⟩
  | cons field fields ih =>
    obtain ⟨item, items, rfl⟩ := List.exists_cons_of_length_eq_add_one hlength
    obtain ⟨c, hread, hrest⟩ := ofItems_cons.mp h
    obtain ⟨v, hv, rfl⟩ := hreg.uniform field (hfields field (by simp)) origin item a c hread
    obtain ⟨u, hu, hb⟩ :=
      ih (fun other hother => hfields other (by simp [hother])) (by simpa using hlength) hrest
    exact ⟨u ∘ v, .field (hfields field (by simp)) hv hu, hb⟩

/-- A record of all members in the order of the shape says what the list of their values says. -/
theorem gives_of_ofItems (hreg : shape.Regular) (hlength : items.length = shape.fields.length)
    (h : shape.ofItems origin closed shape.fields 0 items shape.blank = .ok a) :
    shape.Gives origin (shape.names.zip items) a := by
  have hnames : (shape.names.zip items).map Prod.fst = shape.names :=
    List.map_fst_zip (by simp [names, hlength])
  have hdeclared : shape.declared (shape.names.zip items) = shape.names := by
    rw [declared, hnames, List.filter_eq_self]
    simp
  refine ⟨?_, fun field hfield _ => ?_, exists_collects_of_ofItems hreg (fun _ h => h) hlength h⟩
  · rw [hdeclared]
    exact hreg.nodup
  · rw [hdeclared]
    exact mem_names hfield

end BattleOdds.Shape
