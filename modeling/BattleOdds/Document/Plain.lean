import BattleOdds.Decimal.Reading

/-!
# Plain scalars

A YAML scalar without quotes has no type of its own: what it means follows from what its place
wants. These readers say which texts name nothing, a flag, a whole number or a figure.
-/
namespace BattleOdds.Plain

/-- The value of a decimal digit. -/
def digit? (c : Char) : Option Nat :=
  if '0' ≤ c ∧ c ≤ '9' then some (c.toNat - '0'.toNat) else none

/-- The value of a digit of any base up to 16. -/
def hexDigit? (c : Char) : Option Nat :=
  if 'a' ≤ c ∧ c ≤ 'f' then some (c.toNat - 'a'.toNat + 10)
  else if 'A' ≤ c ∧ c ≤ 'F' then some (c.toNat - 'A'.toNat + 10)
  else digit? c

/-- The number that digits of a base name; at least one is needed. -/
def radix? (base : Nat) (cs : List Char) : Option Nat :=
  if cs.isEmpty then none
  else cs.foldlM (fun n c => do
    let d ← hexDigit? c
    if d < base then some (base * n + d) else none) 0

/-- The texts that name nothing, beside the empty one. -/
def isNull (s : String) : Bool := s == "null" || s == "Null" || s == "NULL" || s == "~"

def bool? (s : String) : Option Bool :=
  if s == "true" || s == "True" || s == "TRUE" then some true
  else if s == "false" || s == "False" || s == "FALSE" then some false
  else none

/-- A number without its sign: after `0x`, `0o` or `0b` in that base, else decimal and then without
a leading zero. -/
def magnitude? (cs : List Char) : Option Nat :=
  match cs with
  | '0' :: 'x' :: digits => radix? 16 digits
  | '0' :: 'o' :: digits => radix? 8 digits
  | '0' :: 'b' :: digits => radix? 2 digits
  | '0' :: _ :: _ => none
  | digits => radix? 10 digits

/-- The whole number that a text names, of either sign. -/
def int? (s : String) : Option Int :=
  match s.toList with
  | '-' :: cs => (fun n : Nat => -(n : Int)) <$> magnitude? cs
  | '+' :: cs => (fun n : Nat => (n : Int)) <$> magnitude? cs
  | cs => (fun n : Nat => (n : Int)) <$> magnitude? cs

/-- Whether a text is a row of digits with a needless zero before them, perhaps after a sign. It
looks like a number but may be a label, such as a code of fixed length. -/
def isPadded (s : String) : Bool :=
  let padded (cs : List Char) : Bool :=
    match cs with
    | '0' :: digits => !digits.isEmpty && digits.all fun c => (digit? c).isSome
    | _ => false
  match s.toList with
  | '-' :: cs => padded cs
  | '+' :: cs => padded cs
  | cs => padded cs

/-- The natural number that a text names: it carries no minus sign. -/
def nat? (s : String) : Option Nat :=
  match s.toList with
  | '-' :: _ => none
  | _ => Int.toNat <$> int? s

/-- Whether a text names a whole number of more than 64 and at most 128 bits. -/
def isWide (s : String) : Bool :=
  match int? s with
  | some i =>
    !(fitsUnsigned 64 i || fitsSigned 64 i) && (fitsUnsigned 128 i || fitsSigned 128 i)
  | none => false

/-- Digits at the start of a text, and what follows them. -/
def takeDigits (cs : List Char) : List Nat × List Char :=
  ((cs.takeWhile fun c => (digit? c).isSome).filterMap digit?,
    cs.dropWhile fun c => (digit? c).isSome)

/-- The exponent that ends a numeral; none at all counts as 0. -/
def exponent? (cs : List Char) : Option Int :=
  let digits (cs : List Char) : Option Nat :=
    match takeDigits cs with
    | ([], _) => none
    | (ds, []) => some (digitsValue ds)
    | _ => none
  let signed (cs : List Char) : Option Int :=
    match cs with
    | '-' :: cs => (fun n : Nat => -(n : Int)) <$> digits cs
    | '+' :: cs => (fun n : Nat => (n : Int)) <$> digits cs
    | cs => (fun n : Nat => (n : Int)) <$> digits cs
  match cs with
  | [] => some 0
  | 'e' :: cs => signed cs
  | 'E' :: cs => signed cs
  | _ => none

/-- A decimal numeral without a sign. Digits may be missing on one side of the point. -/
def numeral? (cs : List Char) : Option Numeral :=
  let (whole, rest) := takeDigits cs
  let (fraction, rest) := match rest with
    | '.' :: rest => takeDigits rest
    | rest => ([], rest)
  if whole.isEmpty && fraction.isEmpty then none
  else (fun e => ⟨whole, fraction, e⟩) <$> exponent? rest

/-- The finite figure that a numeral without a sign names. -/
def finite? (cs : List Char) : Option Binary64 := do
  let x := (← numeral? cs).decimal.nearest
  if x.isFinite then some x else none

/-- The figure that a text names. -/
def figure? (s : String) : Option Binary64 :=
  if s == ".nan" || s == ".NaN" || s == ".NAN" then some ⟨0x7ff8000000000000⟩
  else
    let unsigned (cs : List Char) : Option Binary64 :=
      if cs == ".inf".toList || cs == ".Inf".toList || cs == ".INF".toList then some .infinity
      else finite? cs
    match s.toList with
    | '-' :: cs => (fun x : Binary64 => -x) <$> unsigned cs
    | '+' :: cs => unsigned cs
    | cs => unsigned cs

end BattleOdds.Plain
