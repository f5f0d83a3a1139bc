import BattleOdds.Document.Node
import Mathlib.Tactic.Common

/-!
# Nodes that are kept

A node that is kept for later means the same wherever it is read then: it is whole, and no text in
it has a type that would follow from its place.
-/
namespace BattleOdds.Node

/-- A node that means the same at every place. -/
inductive Settled : Node → Prop
  | null : Settled .null
  | bool (b : Bool) : Settled (.bool b)
  | integer (i : Int) : Settled (.integer i)
  | figure (x : Binary64) : Settled (.figure x)
  | text (s : String) : Settled (.text s)
  | list {items : List Node} (h : ∀ item ∈ items, item.Settled) : Settled (.list items true)
  | record {members : List (Node × Node)} (hkeys : ∀ member ∈ members, member.1.Settled)
    (hvalues : ∀ member ∈ members, member.2.Settled) : Settled (.record members true)

theorem intactItems_eq_true_iff {items : List Node} :
    intactItems items = true ↔ ∀ item ∈ items, item.intact = true := by
  induction items with
  | nil => simp [intactItems]
  | cons item items ih => simp [intactItems, ih]

theorem intactMembers_eq_true_iff {members : List (Node × Node)} :
    intactMembers members = true
      ↔ ∀ member ∈ members, member.1.intact = true ∧ member.2.intact = true := by
  induction members with
  | nil => simp [intactMembers]
  | cons member members ih => simp [intactMembers, ih]

namespace Settled

variable {node : Node}

theorem intact (h : node.Settled) : node.intact = true := by
  induction h with
  | list _ ih =>
    rw [Node.intact, intactItems_eq_true_iff.mpr ih]
    rfl
  | record _ _ ihkeys ihvalues =>
    rw [Node.intact, intactMembers_eq_true_iff.mpr fun member h =>
      ⟨ihkeys member h, ihvalues member h⟩]
    rfl
  | _ => rfl

end Settled

variable {s : String} {scalar node node' key key' : Node} {label : Label} {depth : Nat}

theorem settled_of_integer? (h : integer? s = some node) : node.Settled := by
  obtain ⟨i, -, rfl⟩ := Option.map_eq_some_iff.mp h
  exact .integer i

theorem settled_of_ofPlain? (h : ofPlain? s = some node) : node.Settled := by
  unfold ofPlain? at h
  split at h
  · cases h
    exact .null
  split at h
  · cases h
  cases hflag : Plain.bool? s with
  | some b =>
    simp only [hflag] at h
    cases h
    exact .bool b
  | none =>
  cases hinteger : integer? s with
  | some integer =>
    simp only [hflag, hinteger] at h
    cases h
    exact settled_of_integer? hinteger
  | none =>
  cases hfigure : (if Plain.isPadded s then none else (Plain.figure? s).map figure) with
  | some figure =>
    simp only [hflag, hinteger, hfigure] at h
    cases h
    split at hfigure
    · cases hfigure
    · obtain ⟨x, -, rfl⟩ := Option.map_eq_some_iff.mp hfigure
      exact .figure x
  | none =>
    simp only [hflag, hinteger, hfigure] at h
    cases h
    exact .text s

theorem settled_of_ofLabelled? (h : ofLabelled? label scalar s = some node) : node.Settled := by
  unfold ofLabelled? at h
  split at h
  · split at h
    · cases h
      exact .null
    · cases h
  · obtain ⟨b, -, rfl⟩ := Option.map_eq_some_iff.mp h
    exact .bool b
  · exact settled_of_integer? h
  · obtain ⟨x, -, rfl⟩ := Option.map_eq_some_iff.mp h
    exact .figure x
  · cases h
  · exact settled_of_ofPlain? h
  · cases h
    exact .text s

theorem settled_asName (h : node.Settled) : (key.asName node).Settled := by
  unfold asName
  split
  · split
    · exact .figure _
    · exact h
  · exact h

mutual

/-- What is kept means the same at every place. -/
theorem settled_of_held? {depth : Nat} {node' : Node} :
    (node : Node) → node.held? depth = some node' → node'.Settled
  | .null, h => by cases h; exact .null
  | .bool b, h => by cases h; exact .bool b
  | .integer i, h => by cases h; exact .integer i
  | .figure x, h => by cases h; exact .figure x
  | .text s, h => by cases h; exact .text s
  | .plain s, h => settled_of_ofPlain? (by simpa [held?] using h)
  | .literal s, h => by cases h; exact .text s
  | .list items closed, h => by
    rw [held?] at h
    split at h
    · cases h
    · obtain ⟨items', hitems, rfl⟩ := Option.map_eq_some_iff.mp h
      exact .list (settled_of_heldItems? items hitems)
  | .record members closed, h => by
    rw [held?] at h
    split at h
    · cases h
    · obtain ⟨members', hmembers, rfl⟩ := Option.map_eq_some_iff.mp h
      have hsettled := settled_of_heldMembers? members hmembers
      exact .record (fun member hmember => (hsettled member hmember).1)
        fun member hmember => (hsettled member hmember).2
  | .labelled label node, h => by
    rw [held?.eq_def] at h
    dsimp only at h
    split at h
    · exact settled_of_ofLabelled? h
    · cases h
    · exact settled_of_held? node h
  | .alias node steps, h => settled_of_held? node (by simpa [held?] using h)

theorem settled_of_heldItems? {depth : Nat} {items' : List Node} :
    (items : List Node) → heldItems? depth items = some items' → ∀ item ∈ items', item.Settled
  | [], h => by cases h; simp
  | item :: items, h => by
    simp only [heldItems?, Option.bind_eq_bind, Option.bind_eq_some_iff, Option.pure_def,
      Option.some.injEq] at h
    obtain ⟨item', hitem, items', hitems, rfl⟩ := h
    exact List.forall_mem_cons.mpr ⟨settled_of_held? item hitem, settled_of_heldItems? items hitems⟩

theorem settled_of_heldMembers? {depth : Nat} {members' : List (Node × Node)} :
    (members : List (Node × Node)) → heldMembers? depth members = some members' →
      ∀ member ∈ members', member.1.Settled ∧ member.2.Settled
  | [], h => by cases h; simp
  | (key, value) :: members, h => by
    simp only [heldMembers?, Option.bind_eq_bind, Option.bind_eq_some_iff, Option.pure_def,
      Option.map_eq_map, Option.map_eq_some_iff, Option.some.injEq] at h
    obtain ⟨key', ⟨kept, hkey, rfl⟩, value', hvalue, members', hmembers, rfl⟩ := h
    exact List.forall_mem_cons.mpr ⟨⟨settled_asName (settled_of_held? key hkey),
      settled_of_held? value hvalue⟩, settled_of_heldMembers? members hmembers⟩

end

end BattleOdds.Node
