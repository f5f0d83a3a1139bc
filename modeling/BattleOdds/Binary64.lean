/-!
# Binary64 figures

Every figure of a run is an IEEE 754 binary64 value, held as its 64-bit word. On numbers the
operations are those of `Float`. A NaN keeps its sign and payload here, which `Float` forgets:
sorting a sample list must tell such words apart. `totalKey` gives the total order on all words,
`significand` and `exponent` the exact value of a finite one, and `floor` and `ceil` round such a
value to a natural number.
-/
namespace BattleOdds

/-- A binary64 value, held as its word. -/
structure Binary64 where
  bits : UInt64
deriving DecidableEq

namespace Binary64

/-- The word of positive infinity; greater magnitudes are NaN. -/
def infinityBits : UInt64 := 0x7ff0000000000000

/-- The word without its sign. -/
def magnitude (x : Binary64) : UInt64 := x.bits &&& 0x7fffffffffffffff

/-- Whether the sign bit is set. -/
def isNegative (x : Binary64) : Bool := 0x8000000000000000 ≤ x.bits

def isNaN (x : Binary64) : Bool := infinityBits < x.magnitude

def isFinite (x : Binary64) : Bool := x.magnitude < infinityBits

/-- Whether the value is zero of either sign. -/
def isZero (x : Binary64) : Bool := x.magnitude == 0

def infinity : Binary64 := ⟨infinityBits⟩

/-- Zero with its sign set: the start of a sum, since it alone leaves every summand as it is. -/
def negativeZero : Binary64 := ⟨0x8000000000000000⟩

/-- The NaN that arises from numbers: its sign is set, so it precedes every number. -/
def invalid : Binary64 := ⟨0xfff8000000000000⟩

/-- A NaN as an operation passes it on, with its quiet bit set. -/
def quiet (x : Binary64) : Binary64 := ⟨x.bits ||| 0x0008000000000000⟩

def toFloat (x : Binary64) : Float := Float.ofBits x.bits

def ofFloat (x : Float) : Binary64 := ⟨x.toBits⟩

/-- Applies an operation of `Float`. A NaN operand is passed on, the first one before the second;
a NaN made from two numbers is `invalid`. -/
@[inline] def lift (op : Float → Float → Float) (x y : Binary64) : Binary64 :=
  if x.isNaN then x.quiet
  else if y.isNaN then y.quiet
  else
    let r := op x.toFloat y.toFloat
    if r.isNaN then invalid else ofFloat r

def add (x y : Binary64) : Binary64 := lift Float.add x y
def sub (x y : Binary64) : Binary64 := lift Float.sub x y
def mul (x y : Binary64) : Binary64 := lift Float.mul x y
def div (x y : Binary64) : Binary64 := lift Float.div x y

/-- Flips the sign bit, of a NaN too. -/
def neg (x : Binary64) : Binary64 := ⟨x.bits ^^^ 0x8000000000000000⟩

instance : Add Binary64 := ⟨add⟩
instance : Sub Binary64 := ⟨sub⟩
instance : Mul Binary64 := ⟨mul⟩
instance : Div Binary64 := ⟨div⟩
instance : Neg Binary64 := ⟨neg⟩

/-- The order of numbers: the two zeros are equal, and a NaN is below nothing. -/
instance : LT Binary64 := ⟨fun x y => x.toFloat < y.toFloat⟩
instance : LE Binary64 := ⟨fun x y => x.toFloat ≤ y.toFloat⟩

instance : DecidableLT Binary64 := fun x y => inferInstanceAs (Decidable (x.toFloat < y.toFloat))
instance : DecidableLE Binary64 := fun x y => inferInstanceAs (Decidable (x.toFloat ≤ y.toFloat))

/-- A whole number, rounded to the nearest figure, ties to even. -/
def ofUInt64 (n : UInt64) : Binary64 := ofFloat n.toFloat

/-- A count below `2 ^ 64`, rounded to the nearest figure, ties to even. -/
def ofNat (n : Nat) : Binary64 := ofUInt64 n.toUInt64

/-- A whole number between `-2 ^ 63` and `2 ^ 64`, rounded to the nearest figure, ties to even. -/
def ofInt (i : Int) : Binary64 := if i < 0 then -ofNat i.natAbs else ofNat i.natAbs

instance : OfScientific Binary64 :=
  ⟨fun mantissa negative exponent => ofFloat (OfScientific.ofScientific mantissa negative exponent)⟩

instance : Inhabited Binary64 := ⟨0.0⟩

/-- The smaller number; a NaN gives way to the other operand. -/
protected def min (x y : Binary64) : Binary64 :=
  if x.isNaN then y else if y.isNaN then x else if x < y then x else y

/-- The greater number; a NaN gives way to the other operand. -/
protected def max (x y : Binary64) : Binary64 :=
  if x.isNaN then y else if y.isNaN then x else if y < x then x else y

/-- Moves a number into `[lo, hi]`. A NaN and a zero of the other sign than `lo` stay. -/
def clamp (x lo hi : Binary64) : Binary64 :=
  if x < lo then lo else if hi < x then hi else x

/-- The sum from left to right. -/
def sum (xs : List Binary64) : Binary64 := xs.foldl (· + ·) negativeZero

/-- A key that orders all words: NaN with the sign set, numbers in ascending order with the negative
zero before the positive one, NaN without a sign; NaNs by payload. -/
def totalKey (x : Binary64) : UInt64 :=
  if x.isNegative then ~~~x.bits else x.bits ||| 0x8000000000000000

/-- The total order on words. -/
def totalLE (x y : Binary64) : Bool := x.totalKey ≤ y.totalKey

/-! ## The exact value of a finite figure -/

/-- The stored exponent, between 0 and 2047. -/
def exponentField (x : Binary64) : Nat := (x.magnitude >>> 52).toNat

/-- The stored fraction, below `2 ^ 52`. -/
def fraction (x : Binary64) : Nat := (x.bits &&& 0x000fffffffffffff).toNat

/-- A finite figure has the magnitude `significand * 2 ^ exponent`. -/
def significand (x : Binary64) : Nat :=
  if x.exponentField = 0 then x.fraction else 0x10000000000000 + x.fraction

@[inherit_doc significand]
def exponent (x : Binary64) : Int := (x.exponentField.max 1 : Nat) - 1075

/-- A non-negative finite figure without its fractional part; 0 for a NaN. -/
def floor (x : Binary64) : Nat :=
  if x.isNaN then 0
  else match x.exponent with
    | .ofNat e => x.significand <<< e
    | .negSucc e => x.significand >>> (e + 1)

/-- The least natural number that is at least a non-negative finite figure; 0 for a NaN. -/
def ceil (x : Binary64) : Nat :=
  if x.isNaN then 0
  else match x.exponent with
    | .ofNat e => x.significand <<< e
    | .negSucc e => (x.significand + (Nat.pow 2 (e + 1) - 1)) >>> (e + 1)

end Binary64

end BattleOdds
