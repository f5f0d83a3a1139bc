import BattleOdds.Document.Node

/-!
# JSON tokens

`scan` cuts a JSON text into tokens. It stops at the first place where no token starts, and
the last token says so. A number and a word end where no further character can belong to them, so
that two tokens may follow each other without a blank.
-/
namespace BattleOdds.JsonText

/-- A token of a JSON text. -/
inductive Token
  | openList | closeList | openRecord | closeRecord | comma | colon
  /-- A text in quotes. -/
  | text (node : Node)
  /-- A number or a word. -/
  | scalar (node : Node)
  /-- No token starts here. -/
  | malformed

/-! ## Texts in quotes -/

/-- A character of a text in quotes, or a 16-bit unit that is written with its number. -/
inductive Piece
  | char (c : Char)
  | unit (u : Nat)

/-- The character that a backslash and a letter stand for. -/
def escaped? (c : Char) : Option Char :=
  match c with
  | '"' => some '"'
  | '\\' => some '\\'
  | '/' => some '/'
  | 'b' => some '\x08'
  | 'f' => some '\x0c'
  | 'n' => some '\n'
  | 'r' => some '\r'
  | 't' => some '\t'
  | _ => none

/-- Reads up to the closing quote. Gives the pieces and what follows the quote. -/
def pieces? : List Char → Option (List Piece × List Char)
  | [] => none
  | '"' :: cs => some ([], cs)
  | '\\' :: 'u' :: a :: b :: c :: d :: cs => do
    let u ← Plain.radix? 16 [a, b, c, d]
    let (pieces, rest) ← pieces? cs
    return (.unit u :: pieces, rest)
  | '\\' :: c :: cs => do
    let e ← escaped? c
    let (pieces, rest) ← pieces? cs
    return (.char e :: pieces, rest)
  | c :: cs =>
    if c.toNat < 32 || c = '\\' then none
    else do
      let (pieces, rest) ← pieces? cs
      return (.char c :: pieces, rest)

theorem length_le_of_pieces? {cs rest : List Char} {pieces : List Piece}
    (h : pieces? cs = some (pieces, rest)) : rest.length ≤ cs.length := by
  fun_induction pieces? cs generalizing pieces rest <;>
    simp_all only [Option.bind_eq_bind, Option.bind_eq_some_iff, Option.pure_def, Option.some.injEq,
      Prod.exists, Prod.mk.injEq, List.length_cons, reduceCtorEq] <;>
    grind

def isHighSurrogate (u : Nat) : Bool := 0xd800 ≤ u && u ≤ 0xdbff

def isLowSurrogate (u : Nat) : Bool := 0xdc00 ≤ u && u ≤ 0xdfff

/-- The characters of pieces, if the surrogates among the units stand in pairs. -/
def chars? : List Piece → Option (List Char)
  | [] => some []
  | .char c :: pieces => (c :: ·) <$> chars? pieces
  | .unit u :: pieces =>
    if isHighSurrogate u then
      match pieces with
      | .unit v :: pieces =>
        if isLowSurrogate v then
          (Char.ofNat (0x10000 + (u - 0xd800) * 0x400 + (v - 0xdc00)) :: ·) <$> chars? pieces
        else none
      | _ => none
    else if isLowSurrogate u then none
    else (Char.ofNat u :: ·) <$> chars? pieces

/-- The text of pieces. -/
def textNode (pieces : List Piece) : Node :=
  match chars? pieces with
  | some cs => .text (String.ofList cs)
  | none => .unusable

/-! ## Numbers -/

/-- The digits after a point. Without a point there are none; after a point there is one at least.
-/
def fraction? (cs : List Char) : Option (List Nat × List Char) :=
  match cs with
  | '.' :: cs =>
    let (digits, rest) := Plain.takeDigits cs
    if digits.isEmpty then none else some (digits, rest)
  | cs => some ([], cs)

/-- The digits of an exponent, with its sign. -/
def signedExponent? (cs : List Char) : Option (Option Int × List Char) :=
  let (sign, cs) : Int × List Char := match cs with
    | '-' :: cs => (-1, cs)
    | '+' :: cs => (1, cs)
    | cs => (1, cs)
  let (digits, rest) := Plain.takeDigits cs
  if digits.isEmpty then none else some (some (sign * digitsValue digits), rest)

/-- The exponent of a number, if it has one. -/
def exponent? (cs : List Char) : Option (Option Int × List Char) :=
  match cs with
  | 'e' :: cs => signedExponent? cs
  | 'E' :: cs => signedExponent? cs
  | cs => some (none, cs)

/-- The node of a number. A whole number of 64 bits, or of 63 and a sign, is one only if it is
written without a point and an exponent; minus zero is a figure. -/
def numberNode (negative : Bool) (whole fraction : List Nat) (exponent : Option Int) : Node :=
  let size := digitsValue whole
  let isWhole := fraction.isEmpty && exponent.isNone && fitsUnsigned 64 size
  if isWhole && !negative then .integer size
  else if isWhole && 0 < size && fitsSigned 64 (-size) then .integer (-size)
  else match (Numeral.mk whole fraction (exponent.getD 0)).stepwise? with
    | some x => .figure (if negative then -x else x)
    | none => .unusable

/-- Reads a number without its sign. A zero in front stands alone. -/
def number? (negative : Bool) (cs : List Char) : Option (Node × List Char) := do
  let (whole, rest) := Plain.takeDigits cs
  match whole with
  | [] => none
  | 0 :: _ :: _ => none
  | whole =>
    let (fraction, rest) ← fraction? rest
    let (exponent, rest) ← exponent? rest
    return (numberNode negative whole fraction exponent, rest)

theorem length_takeDigits_le (cs : List Char) : (Plain.takeDigits cs).2.length ≤ cs.length :=
  (List.dropWhile_suffix _).length_le

theorem length_le_of_fraction? {cs rest : List Char} {digits : List Nat}
    (h : fraction? cs = some (digits, rest)) : rest.length ≤ cs.length := by
  unfold fraction? at h
  split at h
  · have := length_takeDigits_le ‹List Char›
    grind
  · grind

theorem length_le_of_signedExponent? {cs rest : List Char} {e : Option Int}
    (h : signedExponent? cs = some (e, rest)) : rest.length ≤ cs.length := by
  unfold signedExponent? at h
  split at h
  have := length_takeDigits_le ‹List Char›
  grind

theorem length_le_of_exponent? {cs rest : List Char} {e : Option Int}
    (h : exponent? cs = some (e, rest)) : rest.length ≤ cs.length := by
  unfold exponent? at h
  split at h <;> grind [→ length_le_of_signedExponent?]

theorem length_takeDigits_lt {cs : List Char} (h : (Plain.takeDigits cs).1 ≠ []) :
    (Plain.takeDigits cs).2.length < cs.length := by
  cases cs with
  | nil => simp [Plain.takeDigits] at h
  | cons c cs =>
    by_cases hc : (Plain.digit? c).isSome
    · have hle := length_takeDigits_le cs
      have hrest : (Plain.takeDigits (c :: cs)).2 = (Plain.takeDigits cs).2 := by
        simp [Plain.takeDigits, hc]
      rw [hrest, List.length_cons]
      exact Nat.lt_succ_of_le hle
    · simp [Plain.takeDigits, hc] at h

theorem length_lt_of_number? {negative : Bool} {cs rest : List Char} {node : Node}
    (h : number? negative cs = some (node, rest)) : rest.length < cs.length := by
  unfold number? at h
  split at h
  have := @length_takeDigits_lt cs
  split at h
  · simp at h
  · simp at h
  · simp only [Option.bind_eq_bind, Option.bind_eq_some_iff, Option.pure_def, Option.some.injEq,
      Prod.exists, Prod.mk.injEq] at h
    obtain ⟨_, r, hf, _, r', he, _, rfl⟩ := h
    have := length_le_of_fraction? hf
    have := length_le_of_exponent? he
    grind

/-! ## Scanning -/

/-- Reads the rest of a word. -/
def word? (word : List Char) (node : Node) (cs : List Char) : Option (Node × List Char) :=
  if word.isPrefixOf cs then some (node, cs.drop word.length) else none

/-- Reads the number or word that starts with a character. -/
def scalar? (c : Char) (cs : List Char) : Option (Node × List Char) :=
  match c with
  | 'n' => word? ['u', 'l', 'l'] .null cs
  | 't' => word? ['r', 'u', 'e'] (.bool true) cs
  | 'f' => word? ['a', 'l', 's', 'e'] (.bool false) cs
  | '-' => number? true cs
  | c => number? false (c :: cs)

theorem length_le_of_word? {word cs rest : List Char} {node node' : Node}
    (h : word? word node cs = some (node', rest)) : rest.length ≤ cs.length := by
  unfold word? at h
  grind

theorem length_le_of_scalar? {c : Char} {cs rest : List Char} {node : Node}
    (h : scalar? c cs = some (node, rest)) : rest.length ≤ cs.length := by
  unfold scalar? at h
  split at h
  · exact length_le_of_word? h
  · exact length_le_of_word? h
  · exact length_le_of_word? h
  · exact Nat.le_of_lt (length_lt_of_number? h)
  · exact Nat.le_of_lt_succ (length_lt_of_number? h)

/-- Cuts a text into tokens. -/
def scan : List Char → List Token
  | [] => []
  | c :: cs =>
    match c with
    | ' ' => scan cs
    | '\t' => scan cs
    | '\n' => scan cs
    | '\r' => scan cs
    | '[' => .openList :: scan cs
    | ']' => .closeList :: scan cs
    | '\x7b' => .openRecord :: scan cs
    | '\x7d' => .closeRecord :: scan cs
    | ',' => .comma :: scan cs
    | ':' => .colon :: scan cs
    | '"' =>
      match h : pieces? cs with
      | some (pieces, rest) =>
        have := length_le_of_pieces? h
        .text (textNode pieces) :: scan rest
      | none => [.malformed]
    | c =>
      match h : scalar? c cs with
      | some (node, rest) =>
        have := length_le_of_scalar? h
        .scalar node :: scan rest
      | none => [.malformed]
termination_by cs => cs.length

end BattleOdds.JsonText
