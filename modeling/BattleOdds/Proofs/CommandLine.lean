import BattleOdds.CommandLine
import BattleOdds.Proofs.Decimal.Digits

/-!
# Words at the end of a command line

Words are read from left to right, so what follows a command line that can be read is read on top of
its options. A seed at the end takes the place of any other.
-/
namespace BattleOdds

theorem wordNumber?_toString (n : UInt64) : wordNumber? (toString n.toNat) = some n := by
  have hdigits : (toString n.toNat).toList = Nat.toDigits 10 n.toNat := by
    rw [Nat.toString_eq_ofList_toDigits, String.toList_ofList]
  -- The first digit is no plus sign, so that all of them are read.
  have hunsigned : ∀ digits, Nat.toDigits 10 n.toNat = '+' :: digits → False := by
    intro digits h
    have hsign := Plain.isDigit_of_mem_toDigits (h ▸ List.mem_cons_self)
    exact absurd hsign (by decide)
  simp only [wordNumber?, hdigits, Plain.radix?_toDigits, fitsUnsigned_word64]
  simp

namespace Options

end Options

end BattleOdds
