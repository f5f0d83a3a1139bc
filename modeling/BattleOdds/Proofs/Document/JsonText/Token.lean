import BattleOdds.Document.JsonText.Token
import BattleOdds.Json
import BattleOdds.Proofs.Decimal.Characters
import BattleOdds.Proofs.Decimal.Digits

/-!
# The tokens of written values

Every scalar that is written as JSON is one token again. A text in quotes ends with its quote, and
a number or a word ends where a comma or the end of a container follows.
-/
namespace BattleOdds

open Json

namespace JsonText

variable {c : Char} {cs rest : List Char} {node : Node} {negative : Bool} {n : ℕ}

/-! ## Texts in quotes -/

/-- A piece stands for one character, whatever follows it. -/
def Piece.StandsFor (piece : Piece) (c : Char) : Prop :=
  ∀ pieces, chars? (piece :: pieces) = (c :: ·) <$> chars? pieces

theorem Piece.standsFor_char (c : Char) : (Piece.char c).StandsFor c := fun _ => rfl

/-- The units of control characters are no surrogates. -/
theorem Piece.standsFor_unit (h : c.toNat < 32) : (Piece.unit c.toNat).StandsFor c := by
  intro pieces
  have hhigh : isHighSurrogate c.toNat = false := by
    simp only [isHighSurrogate, Bool.and_eq_false_iff, decide_eq_false_iff_not]
    omega
  have hlow : isLowSurrogate c.toNat = false := by
    simp only [isLowSurrogate, Bool.and_eq_false_iff, decide_eq_false_iff_not]
    omega
  rw [chars?.eq_def]
  simp only [hhigh, hlow, Char.ofNat_toNat, Bool.false_eq_true, if_false]

theorem radix?_hexDigit (h : n < 32) :
    Plain.radix? 16 ['0', '0', hexDigit (n / 16), hexDigit (n % 16)] = some n := by
  have hall : ∀ n < 32,
      Plain.radix? 16 ['0', '0', hexDigit (n / 16), hexDigit (n % 16)] = some n := by
    decide
  exact hall n h

/-- A character is read back from what is written for it in quotes. -/
theorem exists_pieces?_escape (c : Char) : ∃ piece : Piece, piece.StandsFor c ∧
    ∀ cs, pieces? (escape c ++ cs)
      = (pieces? cs).map fun (pieces, rest) => (piece :: pieces, rest) := by
  have hshort (letter : Char) (hletter : letter ≠ 'u') (h : escaped? letter = some c)
      (cs : List Char) : pieces? (['\\', letter] ++ cs)
        = (pieces? cs).map fun (pieces, rest) => (.char c :: pieces, rest) := by
    simp only [List.cons_append, List.nil_append]
    rw [pieces?.eq_4 _ _ fun _ _ _ _ _ hu _ => hletter hu, h]
    cases pieces? cs <;> rfl
  unfold escape
  split
  · exact ⟨.char _, Piece.standsFor_char _, hshort '"' (by decide) rfl⟩
  · exact ⟨.char _, Piece.standsFor_char _, hshort '\\' (by decide) rfl⟩
  · exact ⟨.char _, Piece.standsFor_char _, hshort 'b' (by decide) rfl⟩
  · exact ⟨.char _, Piece.standsFor_char _, hshort 'f' (by decide) rfl⟩
  · exact ⟨.char _, Piece.standsFor_char _, hshort 'n' (by decide) rfl⟩
  · exact ⟨.char _, Piece.standsFor_char _, hshort 'r' (by decide) rfl⟩
  · exact ⟨.char _, Piece.standsFor_char _, hshort 't' (by decide) rfl⟩
  · rename_i hquote hslash _ _ _ _ _
    by_cases hcontrol : c.toNat < 32
    · refine ⟨.unit c.toNat, Piece.standsFor_unit hcontrol, fun cs => ?_⟩
      rw [if_pos hcontrol]
      simp only [List.cons_append, List.nil_append]
      rw [pieces?, radix?_hexDigit hcontrol]
      cases pieces? cs <;> rfl
    · refine ⟨.char c, Piece.standsFor_char c, fun cs => ?_⟩
      rw [if_neg hcontrol, List.singleton_append, pieces?.eq_5 _ _ hquote
        (fun _ _ _ _ _ h _ => hslash h) (fun _ _ h _ => hslash h),
        if_neg (by simpa [hcontrol] using hslash)]
      cases pieces? cs <;> rfl

/-- A text is read back from between its quotes. -/
theorem exists_pieces?_flatMap_escape (cs rest : List Char) :
    ∃ pieces, pieces? (cs.flatMap escape ++ '"' :: rest) = some (pieces, rest)
      ∧ chars? pieces = some cs := by
  induction cs with
  | nil => exact ⟨[], rfl, rfl⟩
  | cons c cs ih =>
    obtain ⟨pieces, hpieces, hchars⟩ := ih
    obtain ⟨piece, hstands, hpiece⟩ := exists_pieces?_escape c
    refine ⟨piece :: pieces, ?_, ?_⟩
    · rw [List.flatMap_cons, List.append_assoc, hpiece, hpieces]
      rfl
    · rw [hstands, hchars]
      rfl

/-- A text in quotes is one token, whatever follows it. -/
theorem scan_quoted (s : String) (rest : List Char) :
    scan ((quoted s).toList ++ rest) = .text (.text s) :: scan rest := by
  obtain ⟨pieces, hpieces, hchars⟩ := exists_pieces?_flatMap_escape s.toList rest
  have hquoted : (quoted s).toList ++ rest = '"' :: (s.toList.flatMap escape ++ '"' :: rest) := by
    simp [quoted]
  have hnode : textNode pieces = .text s := by
    simp only [textNode, hchars, String.ofList_toList]
  rw [hquoted, scan]
  split
  · rename_i heq
    cases hpieces.symm.trans heq
    rw [hnode]
  · rename_i heq
    cases hpieces.symm.trans heq

/-! ## Numbers -/

/-- What may follow a number or a word in a text without blanks. -/
def Delimited (rest : List Char) : Prop := ∀ c ∈ rest.head?, c = ',' ∨ c = ']' ∨ c = '\x7d'

theorem Delimited.nil : Delimited [] := by simp [Delimited]

namespace Delimited

variable (hrest : Delimited rest)
include hrest

theorem isDigit_eq_false : ∀ c ∈ rest.head?, c.isDigit = false := by
  intro c hc
  rcases hrest c hc with rfl | rfl | rfl <;> rfl

/-- A character that is no delimiter does not come first in what follows. -/
theorem head?_append_ne (hc : c ≠ ',' ∧ c ≠ ']' ∧ c ≠ '\x7d') (h : cs.head? ≠ some c) :
    (cs ++ rest).head? ≠ some c := by
  cases cs with
  | nil =>
    intro hhead
    have := hrest c hhead
    tauto
  | cons => exact h

end Delimited

theorem fraction?_of_head?_ne (h : cs.head? ≠ some '.') : fraction? cs = some ([], cs) := by
  cases cs with
  | nil => rfl
  | cons c cs => exact fraction?.eq_2 _ fun _ hc => h (by simp [hc])

theorem exponent?_of_head?_ne (hsmall : cs.head? ≠ some 'e') (hgreat : cs.head? ≠ some 'E') :
    exponent? cs = some (none, cs) := by
  cases cs with
  | nil => rfl
  | cons c cs =>
    exact exponent?.eq_3 _ (fun _ hc => hsmall (by simp [hc])) fun _ hc => hgreat (by simp [hc])

/-- The digits of an exponent after its sign. -/
def exponentDigits? (sign : ℤ) (cs : List Char) : Option (Option ℤ × List Char) :=
  let (digits, rest) := Plain.takeDigits cs
  if digits.isEmpty then none else some (some (sign * digitsValue digits), rest)

theorem signedExponent?_of_head?_ne (hminus : cs.head? ≠ some '-') (hplus : cs.head? ≠ some '+') :
    signedExponent? cs = exponentDigits? 1 cs := by
  unfold signedExponent?
  split
  rename_i heq
  split at heq
  · simp at hminus
  · simp at hplus
  · cases heq
    rfl

section Continued

variable (hrest : Delimited rest)
include hrest

theorem fraction?_append {digits : List ℕ} {tail : List Char}
    (h : fraction? cs = some (digits, tail)) :
    fraction? (cs ++ rest) = some (digits, tail ++ rest) := by
  by_cases hpoint : cs.head? = some '.'
  · obtain ⟨cs, rfl⟩ := List.head?_eq_some_iff.mp hpoint
    simp only [fraction?, List.cons_append, Plain.takeDigits_append hrest.isDigit_eq_false] at h ⊢
    split at h
    · cases h
    · cases h
      rename_i hne
      rw [if_neg hne]
  · rw [fraction?_of_head?_ne hpoint] at h
    cases h
    exact fraction?_of_head?_ne (hrest.head?_append_ne (by decide) hpoint)

theorem exponentDigits?_append {sign : ℤ} {exponent : Option ℤ} {tail : List Char}
    (h : exponentDigits? sign cs = some (exponent, tail)) :
    exponentDigits? sign (cs ++ rest) = some (exponent, tail ++ rest) := by
  simp only [exponentDigits?, Plain.takeDigits_append hrest.isDigit_eq_false] at h ⊢
  split at h
  · cases h
  · rename_i hne
    cases h
    rw [if_neg hne]

theorem signedExponent?_append {exponent : Option ℤ} {tail : List Char}
    (h : signedExponent? cs = some (exponent, tail)) :
    signedExponent? (cs ++ rest) = some (exponent, tail ++ rest) := by
  by_cases hminus : cs.head? = some '-'
  · obtain ⟨cs, rfl⟩ := List.head?_eq_some_iff.mp hminus
    exact exponentDigits?_append hrest h
  by_cases hplus : cs.head? = some '+'
  · obtain ⟨cs, rfl⟩ := List.head?_eq_some_iff.mp hplus
    exact exponentDigits?_append hrest h
  · rw [signedExponent?_of_head?_ne hminus hplus] at h
    rw [signedExponent?_of_head?_ne (hrest.head?_append_ne (by decide) hminus)
      (hrest.head?_append_ne (by decide) hplus)]
    exact exponentDigits?_append hrest h

theorem exponent?_append {exponent : Option ℤ} {tail : List Char}
    (h : exponent? cs = some (exponent, tail)) :
    exponent? (cs ++ rest) = some (exponent, tail ++ rest) := by
  by_cases hsmall : cs.head? = some 'e'
  · obtain ⟨cs, rfl⟩ := List.head?_eq_some_iff.mp hsmall
    exact signedExponent?_append hrest h
  by_cases hgreat : cs.head? = some 'E'
  · obtain ⟨cs, rfl⟩ := List.head?_eq_some_iff.mp hgreat
    exact signedExponent?_append hrest h
  · rw [exponent?_of_head?_ne hsmall hgreat] at h
    cases h
    exact exponent?_of_head?_ne (hrest.head?_append_ne (by decide) hsmall)
      (hrest.head?_append_ne (by decide) hgreat)

/-- A number ends where a delimiter follows. -/
theorem number?_append {tail : List Char} (h : number? negative cs = some (node, tail)) :
    number? negative (cs ++ rest) = some (node, tail ++ rest) := by
  simp only [number?, Plain.takeDigits_append hrest.isDigit_eq_false] at h ⊢
  split at h
  · cases h
  · cases h
  · simp only [Option.bind_eq_bind, Option.bind_eq_some_iff, Option.pure_def, Option.some.injEq,
      Prod.exists, Prod.mk.injEq] at h
    obtain ⟨fraction, tail, hfraction, exponent, tail', hexponent, rfl, rfl⟩ := h
    simp [fraction?_append hrest hfraction, exponent?_append hrest hexponent]

omit hrest in
theorem word?_append {word tail : List Char} {node' : Node}
    (h : word? word node cs = some (node', tail)) :
    word? word node (cs ++ rest) = some (node', tail ++ rest) := by
  unfold word? at h ⊢
  split at h
  · rename_i hprefix
    obtain ⟨more, rfl⟩ := List.isPrefixOf_iff_prefix.mp hprefix
    simp_all
  · cases h

theorem scalar?_append {tail : List Char} (h : scalar? c cs = some (node, tail)) :
    scalar? c (cs ++ rest) = some (node, tail ++ rest) := by
  unfold scalar? at h ⊢
  split at h
  · exact word?_append h
  · exact word?_append h
  · exact word?_append h
  · exact number?_append hrest h
  · exact number?_append hrest h

end Continued

/-! ## Numbers and words as tokens -/

/-- The first character of a number or a word starts nothing else. -/
theorem scan_cons_of_start (h : c ∈ ['n', 't', 'f'] ∨ isNumeric c = true) :
    scan (c :: cs) = match scalar? c cs with
      | some (node, rest) => .scalar node :: scan rest
      | none => [.malformed] := by
  rw [scan.eq_13]
  · split <;> simp_all
  all_goals
    rintro rfl
    exact absurd h (by decide)

theorem start_of_scalar? (h : scalar? c cs = some (node, rest)) :
    c ∈ ['n', 't', 'f'] ∨ isNumeric c = true := by
  unfold scalar? at h
  split at h
  · simp
  · simp
  · simp
  · exact Or.inr rfl
  · have hdigit : c.isDigit = true := by
      by_contra hc
      simp [number?, Plain.takeDigits, hc] at h
    simp [isNumeric, hdigit]

theorem scan_of_scalar? (h : scalar? c cs = some (node, rest)) :
    scan (c :: cs) = .scalar node :: scan rest := by
  rw [scan_cons_of_start (start_of_scalar? h), h]

/-- Blanks change nothing. -/
theorem scan_append_of_scan_eq_nil (h : scan cs = []) (rest : List Char) :
    scan (cs ++ rest) = scan rest := by
  induction cs with
  | nil => rfl
  | cons c cs ih =>
    rw [List.cons_append]
    rw [scan.eq_def] at h
    dsimp only at h
    split at h
    · exact (scan.eq_2 _).trans (ih h)
    · exact (scan.eq_3 _).trans (ih h)
    · exact (scan.eq_4 _).trans (ih h)
    · exact (scan.eq_5 _).trans (ih h)
    all_goals first | cases h | split at h <;> cases h

/-- Characters spell a number or a word: they are its token, whatever may follow them. -/
def Spells (cs : List Char) (node : Node) : Prop :=
  ∀ rest, Delimited rest → scan (cs ++ rest) = .scalar node :: scan rest

theorem spells_of_scalar? (h : scalar? c cs = some (node, rest)) (hrest : scan rest = []) :
    Spells (c :: cs) node := by
  intro more hmore
  rw [List.cons_append, scan_of_scalar? (scalar?_append hmore h), scan_append_of_scan_eq_nil hrest]

theorem spells_null : Spells "null".toList .null := spells_of_scalar? rfl scan.eq_1

theorem spells_bool (b : Bool) : Spells (Json.bool b).scalar.toList (.bool b) := by
  cases b with
  | false => exact spells_of_scalar? rfl scan.eq_1
  | true => exact spells_of_scalar? rfl scan.eq_1

/-- A whole number is read back digit by digit. -/
theorem number?_toDigits (negative : Bool) (n : ℕ) :
    number? negative (Nat.toDigits 10 n)
      = some (numberNode negative (Plain.digitValues (Nat.toDigits 10 n)) [] none, []) := by
  rw [number?, Plain.takeDigits_of_isDigit fun c hc => Plain.isDigit_of_mem_toDigits hc]
  by_cases hn : n = 0
  · subst hn
    rfl
  · obtain ⟨c, cs, hcs⟩ := List.exists_cons_of_ne_nil (Nat.toDigits_ne_nil (b := 10) (n := n))
    have hdigit := (Plain.isDigit_iff c).mp (Plain.isDigit_of_mem_toDigits (n := n) (by simp [hcs]))
    have hne : c.toNat - '0'.toNat ≠ 0 := by
      intro hzero
      have hc : c.toNat = '0'.toNat := by
        change c.toNat - 48 = 0 at hzero
        change c.toNat = 48
        omega
      refine Plain.head_toDigits_ne_zero (Nat.pos_of_ne_zero hn) ?_
      rw [hcs, List.head?_cons, Char.toNat_inj.mp hc]
    rw [hcs, Plain.digitValues, List.map_cons]
    dsimp only
    split
    · rename_i heq
      cases heq
    · rename_i heq
      exact absurd (List.cons.inj heq).1 hne
    · rfl

theorem numberNode_natural {whole : List ℕ} (h : fitsUnsigned 64 (digitsValue whole) = true) :
    numberNode false whole [] none = .integer (digitsValue whole) := by
  simp [numberNode, h]

theorem numberNode_negative {whole : List ℕ} (hpos : 0 < digitsValue whole)
    (h : fitsSigned 64 (-digitsValue whole) = true) :
    numberNode true whole [] none = .integer (-digitsValue whole) := by
  have hfits : fitsUnsigned 64 (digitsValue whole) = true := by
    rw [fitsSigned_64_iff] at h
    rw [fitsUnsigned_64_iff]
    omega
  simp [numberNode, h, hfits, hpos]

theorem spells_natural {n : ℕ} (h : fitsUnsigned 64 n = true) :
    Spells (Nat.toDigits 10 n) (.integer n) := by
  have hnumber := number?_toDigits false n
  have hvalue := Plain.digitsValue_toDigits n
  rw [numberNode_natural (hvalue.symm ▸ h), hvalue] at hnumber
  obtain ⟨c, cs, hcs⟩ := List.exists_cons_of_ne_nil (Nat.toDigits_ne_nil (b := 10) (n := n))
  have hdigit : c.isDigit = true := Plain.isDigit_of_mem_toDigits (n := n) (by simp [hcs])
  have hscalar : scalar? c cs = some (.integer n, []) := by
    rw [scalar?.eq_5, ← hcs, hnumber]
    all_goals
      rintro rfl
      exact absurd hdigit (by decide)
  rw [hcs]
  exact spells_of_scalar? hscalar scan.eq_1

theorem spells_negative {n : ℕ} (hpos : 0 < n) (h : fitsSigned 64 (-n) = true) :
    Spells ('-' :: Nat.toDigits 10 n) (.integer (-n)) := by
  have hnumber := number?_toDigits true n
  have hvalue := Plain.digitsValue_toDigits n
  rw [numberNode_negative (hvalue.symm ▸ hpos) (hvalue.symm ▸ h), hvalue] at hnumber
  exact spells_of_scalar? hnumber scan.eq_1

/-- A whole number of 64 bits, or of 63 and a sign, is read back. -/
theorem spells_integer {i : ℤ} (h : fitsUnsigned 64 i = true ∨ fitsSigned 64 i = true) :
    Spells (toString i).toList (.integer i) := by
  rw [fitsUnsigned_64_iff, fitsSigned_64_iff] at h
  cases i with
  | ofNat n =>
    have htext : (toString (Int.ofNat n)).toList = Nat.toDigits 10 n :=
      (congrArg String.toList Nat.toString_eq_ofList_toDigits).trans String.toList_ofList
    rw [Int.ofNat_eq_natCast] at h
    rw [htext]
    exact spells_natural (by rw [fitsUnsigned_64_iff]; omega)
  | negSucc n =>
    have htext : (toString (Int.negSucc n)).toList = '-' :: Nat.toDigits 10 (n + 1) := by
      change ("-" ++ toString (n + 1)).toList = _
      rw [String.toList_append, Nat.toString_eq_ofList_toDigits, String.toList_ofList]
      simp
    rw [Int.negSucc_eq] at h
    rw [htext]
    exact spells_negative n.succ_pos (by rw [fitsSigned_64_iff]; omega)

end JsonText

end BattleOdds
