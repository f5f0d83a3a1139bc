/-!
# Whole numbers of fixed width

The ranges of whole numbers that fit a number of bits, with and without a sign.
-/
namespace BattleOdds

/-- The number of words of so many bits. -/
def wordCount (bits : Nat) : Nat := Nat.pow 2 bits

/-- Whether a number fits so many bits without a sign. -/
def fitsUnsigned (bits : Nat) (i : Int) : Bool := 0 ≤ i && i < wordCount bits

/-- Whether a number fits so many bits with a sign, which takes one of them. -/
def fitsSigned (bits : Nat) (i : Int) : Bool :=
  let half : Int := wordCount (bits - 1)
  i < half && -half ≤ i

theorem fitsUnsigned_64_iff {i : Int} :
    fitsUnsigned 64 i = true ↔ 0 ≤ i ∧ i < 18446744073709551616 := by
  have hcount : (wordCount 64 : Int) = 18446744073709551616 := rfl
  simp only [fitsUnsigned, hcount, Bool.and_eq_true, decide_eq_true_eq]

theorem fitsSigned_64_iff {i : Int} :
    fitsSigned 64 i = true ↔ -9223372036854775808 ≤ i ∧ i < 9223372036854775808 := by
  have hcount : (wordCount (64 - 1) : Int) = 9223372036854775808 := rfl
  simp only [fitsSigned, hcount, Bool.and_eq_true, decide_eq_true_eq]
  exact and_comm

theorem fitsUnsigned_word64 (n : UInt64) : fitsUnsigned 64 n.toNat = true := by
  have hlt := n.toNat_lt
  exact fitsUnsigned_64_iff.mpr (by omega)

theorem fitsUnsigned_word32 (n : UInt32) : fitsUnsigned 32 n.toNat = true := by
  have hlt : n.toNat < wordCount 32 := n.toNat_lt
  simp only [fitsUnsigned, Bool.and_eq_true, decide_eq_true_eq]
  omega

@[simp] theorem ofInt_word64 (n : UInt64) : UInt64.ofInt n.toNat = n := by
  have hlt : (n.toNat : Int) < 2 ^ 64 := Int.ofNat_lt.mpr n.toNat_lt
  rw [UInt64.ofInt, Int.emod_eq_of_lt (Int.natCast_nonneg _) hlt, Int.toNat_natCast,
    UInt64.ofNat_toNat]

@[simp] theorem ofInt_word32 (n : UInt32) : UInt32.ofInt n.toNat = n := by
  have hlt : (n.toNat : Int) < 2 ^ 32 := Int.ofNat_lt.mpr n.toNat_lt
  rw [UInt32.ofInt, Int.emod_eq_of_lt (Int.natCast_nonneg _) hlt, Int.toNat_natCast,
    UInt32.ofNat_toNat]

theorem fitsSigned_signed64 (i : Int64) : fitsSigned 64 i.toInt = true :=
  fitsSigned_64_iff.mpr ⟨i.le_toInt, i.toInt_lt⟩

/-- The ranges of the whole numbers in documents. -/
inductive WholeRange
  | word64 | word32 | signed64 | size
deriving DecidableEq

namespace WholeRange

/-- The range as messages name it. -/
def name : WholeRange → String
  | word64 => "u64"
  | word32 => "u32"
  | signed64 => "i64"
  | size => "usize"

/-- Whether a number is in the range. -/
def holds (i : Int) : WholeRange → Bool
  | word64 => fitsUnsigned 64 i
  | word32 => fitsUnsigned 32 i
  | signed64 => fitsSigned 64 i
  | size => fitsUnsigned 64 i

end WholeRange

end BattleOdds
