import BattleOdds.Document.JsonText.Assembly
import BattleOdds.Proofs.Document.JsonText.Token
import BattleOdds.Proofs.Document.Shape

/-!
# Documents from written values

A JSON value that is written without blanks is read back as the node that stands for it. What it
takes is that each whole number fits into 64 bits and that each figure is read back by itself.
-/
namespace BattleOdds

open JsonText

/-- A figure is read back from the text that is written for it. -/
def Binary64.ReadsBack (x : Binary64) : Prop :=
  Document.ofJson (FigureStyle.json.text x) = ⟨.figure x, true⟩

/-- The figure that a document consists of. -/
def Document.figure? : Document → Option Binary64
  | ⟨.figure x, true⟩ => some x
  | _ => none

theorem Document.figure?_eq_some_iff {document : Document} {x : Binary64} :
    document.figure? = some x ↔ document = ⟨.figure x, true⟩ := by
  constructor
  · intro h
    unfold figure? at h
    split at h
    · rw [Option.some.inj h]
    · cases h
  · rintro rfl
    rfl

instance (x : Binary64) : Decidable x.ReadsBack :=
  decidable_of_iff ((Document.ofJson (FigureStyle.json.text x)).figure? = some x)
    Document.figure?_eq_some_iff

namespace Json

mutual

/-- The node that stands for a value. -/
def node : Json → Node
  | .null => .null
  | .bool b => .bool b
  | .integer i => .integer i
  | .figure x => .figure x
  | .text s => .text s
  | .list items => .list (itemNodes items) true
  | .record members => .record (Shape.entries (memberNodes members)) true

def itemNodes : List Json → List Node
  | [] => []
  | item :: items => item.node :: itemNodes items

def memberNodes : List (String × Json) → List (String × Node)
  | [] => []
  | (name, value) :: members => (name, value.node) :: memberNodes members

end

/-- Every number in a value can be read back. -/
inductive Readable : Json → Prop
  | null : Readable .null
  | bool (b : Bool) : Readable (.bool b)
  | integer {i : ℤ} (h : fitsUnsigned 64 i = true ∨ fitsSigned 64 i = true) : Readable (.integer i)
  | figure {x : Binary64} (h : x.ReadsBack) : Readable (.figure x)
  | text (s : String) : Readable (.text s)
  | list {items : List Json} (h : ∀ item ∈ items, item.Readable) : Readable (.list items)
  | record {members : List (String × Json)} (h : ∀ member ∈ members, member.2.Readable) :
    Readable (.record members)

@[simp] theorem readable_bool (b : Bool) : (Json.bool b).Readable := .bool b

@[simp] theorem readable_text (s : String) : (Json.text s).Readable := .text s

theorem readable_integer {i : ℤ} :
    (Json.integer i).Readable ↔ fitsUnsigned 64 i = true ∨ fitsSigned 64 i = true := by
  constructor
  · rintro ⟨⟩
    assumption
  · exact .integer

@[simp] theorem readable_figure {x : Binary64} : (Json.figure x).Readable ↔ x.ReadsBack := by
  constructor
  · rintro ⟨⟩
    assumption
  · exact .figure

@[simp] theorem readable_optional {α : Type} {encode : α → Json} {a : Option α} :
    (Json.optional encode a).Readable ↔ ∀ b ∈ a, (encode b).Readable := by
  cases a with
  | none => simpa [Json.optional] using Readable.null
  | some a => simp [Json.optional]

@[simp] theorem readable_record {members : List (String × Json)} :
    (Json.record members).Readable ↔ ∀ member ∈ members, member.2.Readable := by
  constructor
  · rintro ⟨⟩
    assumption
  · exact .record

end Json

namespace JsonText

/-- What becomes of the tokens that are left. -/
def Step.resume : Step → List Token → Document
  | .more awaiting frames, tokens => assemble awaiting frames tokens
  | .done node, tokens => ⟨node, tokens.isEmpty⟩
  | .stop frames, _ => ⟨abandon frames, false⟩

theorem assemble_cons (awaiting : Awaiting) (frames : List Frame) (token : Token)
    (tokens : List Token) :
    assemble awaiting frames (token :: tokens) = (step awaiting frames token).resume tokens := by
  rw [assemble]
  cases step awaiting frames token <;> rfl

/-- Where a value may come, its text completes its node, whatever follows. -/
def Completes (text : List Char) (node : Node) : Prop :=
  ∀ awaiting ∈ [Awaiting.value, .valueOrEnd], ∀ frames rest, Delimited rest →
    assemble awaiting frames (scan (text ++ rest)) = (complete node frames).resume (scan rest)

variable {cs rest : List Char} {node : Node} {frames : List Frame}

theorem Spells.completes (h : Spells cs node) : Completes cs node := by
  intro awaiting hawaiting frames rest hrest
  rw [h rest hrest, assemble_cons]
  have hcases : awaiting = .value ∨ awaiting = .valueOrEnd := by simpa using hawaiting
  rcases hcases with rfl | rfl <;> rfl

theorem completes_quoted (s : String) : Completes (Json.quoted s).toList (.text s) := by
  intro awaiting hawaiting frames rest hrest
  rw [scan_quoted, assemble_cons]
  have hcases : awaiting = .value ∨ awaiting = .valueOrEnd := by simpa using hawaiting
  rcases hcases with rfl | rfl <;> rfl

theorem delimited_cons {c : Char} (h : c = ',' ∨ c = ']' ∨ c = '\x7d') : Delimited (c :: rest) := by
  simpa [Delimited] using h

/-- The items of an open list, and its end. -/
theorem assemble_items {items : List Json} (hne : items ≠ [])
    (h : ∀ item ∈ items, Completes item.compact.toList item.node) (acc : List Node)
    {awaiting : Awaiting} (hawaiting : awaiting ∈ [Awaiting.value, .valueOrEnd]) :
    assemble awaiting (.list acc :: frames)
        (scan ((Json.compactItems items).toList ++ ']' :: rest))
      = (complete (.list (acc.reverse ++ Json.itemNodes items) true) frames).resume
        (scan rest) := by
  induction items generalizing acc awaiting with
  | nil => contradiction
  | cons item items ih =>
    have hitem := h item (by simp) awaiting hawaiting (.list acc :: frames)
    cases items with
    | nil =>
      rw [Json.compactItems, hitem _ (delimited_cons (by simp)), scan]
      simp [complete, Frame.put, Step.resume, assemble_cons, step, stepSeparator, Json.itemNodes]
    | cons next items =>
      have hmore := ih (by simp) (fun other hother => h other (by simp [hother])) (item.node :: acc)
        (by simp : Awaiting.value ∈ [Awaiting.value, .valueOrEnd])
      have htext : (Json.compactItems (item :: next :: items)).toList ++ ']' :: rest
          = item.compact.toList
            ++ ',' :: ((Json.compactItems (next :: items)).toList ++ ']' :: rest) := by
        simp [Json.compactItems]
      rw [htext, hitem _ (delimited_cons (by simp)), scan]
      simp only [complete, Frame.put, Step.resume, assemble_cons, step, stepSeparator, hmore]
      simp [Json.itemNodes]

/-- The members of an open record, and its end. -/
theorem assemble_members {members : List (String × Json)} (hne : members ≠ [])
    (h : ∀ member ∈ members, Completes member.2.compact.toList member.2.node)
    (acc : List (Node × Node)) {awaiting : Awaiting}
    (hawaiting : awaiting ∈ [Awaiting.key, .keyOrEnd]) :
    assemble awaiting (.record acc none :: frames)
        (scan ((Json.compactMembers members).toList ++ '\x7d' :: rest))
      = (complete (.record (acc.reverse ++ Shape.entries (Json.memberNodes members)) true)
          frames).resume (scan rest) := by
  induction members generalizing acc awaiting with
  | nil => contradiction
  | cons member members ih =>
    obtain ⟨name, value⟩ := member
    have hname (more : List Char) : assemble awaiting (.record acc none :: frames)
        (scan ((Json.quoted name).toList ++ ':' :: more))
          = assemble .value (.record acc (some (.text name)) :: frames) (scan more) := by
      have hcases : awaiting = .key ∨ awaiting = .keyOrEnd := by simpa using hawaiting
      rw [scan_quoted, scan]
      rcases hcases with rfl | rfl <;>
        simp [assemble_cons, step, stepKey, Step.resume]
    have hvalue := h (name, value) (by simp) .value (by simp)
      (.record acc (some (.text name)) :: frames)
    cases members with
    | nil =>
      have htext : (Json.compactMembers [(name, value)]).toList ++ '\x7d' :: rest
          = (Json.quoted name).toList ++ ':' :: (value.compact.toList ++ '\x7d' :: rest) := by
        simp [Json.compactMembers]
      rw [htext, hname, hvalue _ (delimited_cons (by simp)), scan]
      simp [complete, Frame.put, Step.resume, assemble_cons, step, stepSeparator, Json.memberNodes,
        Shape.entries]
    | cons next members =>
      have hmore := ih (by simp) (fun other hother => h other (by simp [hother]))
        ((.text name, value.node) :: acc) (by simp : Awaiting.key ∈ [Awaiting.key, .keyOrEnd])
      have htext : (Json.compactMembers ((name, value) :: next :: members)).toList ++ '\x7d' :: rest
          = (Json.quoted name).toList ++ ':' :: (value.compact.toList
            ++ ',' :: ((Json.compactMembers (next :: members)).toList ++ '\x7d' :: rest)) := by
        simp [Json.compactMembers]
      rw [htext, hname, hvalue _ (delimited_cons (by simp)), scan]
      simp only [complete, Frame.put, Step.resume, assemble_cons, step, stepSeparator, hmore]
      simp [Json.memberNodes, Shape.entries]

theorem completes_list {items : List Json}
    (h : ∀ item ∈ items, Completes item.compact.toList item.node) :
    Completes (Json.list items).compact.toList (Json.list items).node := by
  intro awaiting hawaiting frames rest hrest
  have htext : (Json.list items).compact.toList ++ rest
      = '[' :: ((Json.compactItems items).toList ++ ']' :: rest) := by
    simp [Json.compact]
  have hopen (tokens : List Token) : assemble awaiting frames (.openList :: tokens)
      = assemble .valueOrEnd (.list [] :: frames) tokens := by
    have hcases : awaiting = .value ∨ awaiting = .valueOrEnd := by simpa using hawaiting
    rcases hcases with rfl | rfl <;> rfl
  rw [htext, scan, hopen]
  cases items with
  | nil =>
    rw [Json.compactItems, String.toList_empty, List.nil_append, scan, assemble_cons]
    rfl
  | cons item items => exact assemble_items (by simp) h [] (by simp)

theorem completes_record {members : List (String × Json)}
    (h : ∀ member ∈ members, Completes member.2.compact.toList member.2.node) :
    Completes (Json.record members).compact.toList (Json.record members).node := by
  intro awaiting hawaiting frames rest hrest
  have htext : (Json.record members).compact.toList ++ rest
      = '\x7b' :: ((Json.compactMembers members).toList ++ '\x7d' :: rest) := by
    simp [Json.compact]
  have hopen (tokens : List Token) : assemble awaiting frames (.openRecord :: tokens)
      = assemble .keyOrEnd (.record [] none :: frames) tokens := by
    have hcases : awaiting = .value ∨ awaiting = .valueOrEnd := by simpa using hawaiting
    rcases hcases with rfl | rfl <;> rfl
  rw [htext, scan, hopen]
  cases members with
  | nil =>
    rw [Json.compactMembers, String.toList_empty, List.nil_append, scan, assemble_cons]
    rfl
  | cons member members => exact assemble_members (by simp) h [] (by simp)

/-- What is read back is a number: JSON has no text for anything else. -/
theorem isFinite_of_readsBack {x : Binary64} (h : x.ReadsBack) : x.isFinite = true := by
  by_contra hx
  have htext : FigureStyle.json.text x = "null" := by
    rw [FigureStyle.text, if_neg hx]
    split_ifs <;> rfl
  have hnull : Document.ofJson "null" = ⟨.null, true⟩ := by
    change assemble .value [] (scan ("null".toList ++ [])) = _
    rw [spells_null [] .nil, scan]
    rfl
  rw [Binary64.ReadsBack, htext, hnull] at h
  cases h

/-- A figure that is read back from a whole text is read back within a text. -/
theorem spells_of_readsBack {x : Binary64} (h : x.ReadsBack) :
    Spells (FigureStyle.json.text x).toList (.figure x) := by
  have hnumeric := FigureStyle.json.numericText_text (isFinite_of_readsBack h)
  rw [Binary64.ReadsBack, Document.ofJson] at h
  cases htext : (FigureStyle.json.text x).toList with
  | nil =>
    rw [htext, scan] at h
    cases h
  | cons c cs =>
    rw [htext, scan_cons_of_start (.inr (hnumeric c (by simp [htext])))] at h
    cases hscalar : scalar? c cs with
    | none =>
      rw [hscalar] at h
      cases h
    | some result =>
      obtain ⟨node, rest⟩ := result
      rw [hscalar, assemble_cons] at h
      obtain ⟨rfl, hrest⟩ : node = .figure x ∧ (scan rest).isEmpty = true := by
        simpa [step, stepValue, complete, Step.resume] using h
      exact spells_of_scalar? hscalar (List.isEmpty_iff.mp hrest)

theorem completes_figure {x : Binary64} (h : x.ReadsBack) :
    Completes (Json.figure x).compact.toList (.figure x) :=
  (spells_of_readsBack h).completes

/-- Where a value may come, the text of a readable one completes its node. -/
theorem completes_compact {value : Json} (h : value.Readable) :
    Completes value.compact.toList value.node := by
  induction h with
  | null => exact spells_null.completes
  | bool b => exact (spells_bool b).completes
  | integer h => exact (spells_integer h).completes
  | figure h => exact completes_figure h
  | text s => exact completes_quoted s
  | list _ ih => exact completes_list ih
  | record _ ih => exact completes_record ih

end JsonText

/-- A value that is written without blanks is read back. -/
theorem Document.ofJson_compact {value : Json} (h : value.Readable) :
    Document.ofJson value.compact = ⟨value.node, true⟩ := by
  have hcompletes := completes_compact h .value (by simp) [] [] Delimited.nil
  rw [List.append_nil, scan] at hcompletes
  exact hcompletes

end BattleOdds
