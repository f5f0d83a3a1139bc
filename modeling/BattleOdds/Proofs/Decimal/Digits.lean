import BattleOdds.Document.Plain
import Mathlib.Data.List.TakeWhile
import Mathlib.Order.Basic

/-!
# The digits of numbers

A number that is written in decimal digits reads back as that number, whatever follows it that is no
digit. Only zero starts with the digit zero.
-/
namespace BattleOdds.Plain

variable {c : Char} {cs rest : List Char} {n : ℕ}

theorem digit?_eq (c : Char) :
    digit? c = if c.isDigit then some (c.toNat - '0'.toNat) else none := by
  simp only [digit?, Char.isDigit, Bool.and_eq_true, decide_eq_true_eq, ge_iff_le]
  rfl

@[simp] theorem isSome_digit? (c : Char) : (digit? c).isSome = c.isDigit := by
  rw [digit?_eq]
  cases c.isDigit <;> rfl

/-- The values of digits. -/
def digitValues (cs : List Char) : List ℕ := cs.map fun c => c.toNat - '0'.toNat

theorem filterMap_digit? (h : ∀ c ∈ cs, c.isDigit = true) :
    cs.filterMap digit? = digitValues cs := by
  induction cs with
  | nil => rfl
  | cons c cs ih =>
    have hc : digit? c = some (c.toNat - '0'.toNat) := by rw [digit?_eq, if_pos (h c (by simp))]
    rw [List.filterMap_cons_some hc, ih fun d hd => h d (by simp [hd])]
    rfl

/-- Digits are taken as far as they go. -/
theorem takeDigits_of_isDigit (h : ∀ c ∈ cs, c.isDigit = true) :
    takeDigits cs = (digitValues cs, []) := by
  have htake : cs.takeWhile Char.isDigit = cs := List.takeWhile_eq_self_iff.mpr h
  have hdrop : cs.dropWhile Char.isDigit = [] := List.dropWhile_eq_nil_iff.mpr h
  simp only [takeDigits, isSome_digit?, htake, hdrop, filterMap_digit? h]

/-- What follows the digits is not looked at, if it does not start with a digit. -/
theorem takeDigits_append (hrest : ∀ c ∈ rest.head?, c.isDigit = false) :
    takeDigits (cs ++ rest) = ((takeDigits cs).1, (takeDigits cs).2 ++ rest) := by
  induction cs with
  | nil => cases rest <;> simp_all [takeDigits]
  | cons c cs ih =>
    cases hc : c.isDigit with
    | false => simp [takeDigits, hc]
    | true =>
      simp only [takeDigits, isSome_digit?, Prod.mk.injEq] at ih
      simp only [takeDigits, isSome_digit?, List.cons_append, List.takeWhile_cons_of_pos hc,
        List.dropWhile_cons_of_pos hc, List.filterMap_cons, ih]

theorem digitsValue_digitValues (cs : List Char) :
    digitsValue (digitValues cs) = Nat.ofDigitChars 10 cs 0 := by
  rw [digitsValue, digitValues, List.foldl_map]
  rfl

theorem isDigit_of_mem_toDigits (h : c ∈ Nat.toDigits 10 n) : c.isDigit = true :=
  Nat.isDigit_of_mem_toDigits (by decide) (by decide) h

theorem digitsValue_toDigits (n : ℕ) : digitsValue (digitValues (Nat.toDigits 10 n)) = n := by
  rw [digitsValue_digitValues, Nat.ofDigitChars_ten_toDigits]

/-- A number from one on starts with another digit than zero. -/
theorem head_toDigits_ne_zero (h : 0 < n) : (Nat.toDigits 10 n).head? ≠ some '0' := by
  induction n using Nat.strongRecOn with
  | ind n ih =>
    by_cases hn : n < 10
    · have hdigit : ∀ n < 10, 0 < n → n.digitChar ≠ '0' := by decide
      simpa [Nat.toDigits_of_lt_base hn] using hdigit n hn h
    · have hhead := ih (n / 10) (by omega) (by omega)
      obtain ⟨c, cs, hcs⟩ :=
        List.exists_cons_of_ne_nil (Nat.toDigits_ne_nil (b := 10) (n := n / 10))
      rw [Nat.toDigits_of_base_le (by decide) (by omega), hcs]
      simpa [hcs] using hhead

theorem isDigit_iff (c : Char) : c.isDigit = true ↔ 48 ≤ c.toNat ∧ c.toNat ≤ 57 := by
  simp only [Char.isDigit, Bool.and_eq_true, decide_eq_true_eq, ge_iff_le, UInt32.le_iff_toNat_le]
  rfl

theorem hexDigit?_of_isDigit (h : c.isDigit = true) : hexDigit? c = some (c.toNat - 48) := by
  have hc := (isDigit_iff c).mp h
  have hlower : ¬ ('a' ≤ c ∧ c ≤ 'f') := fun ⟨ha, _⟩ => by
    have : 97 ≤ c.toNat := ha
    omega
  have hupper : ¬ ('A' ≤ c ∧ c ≤ 'F') := fun ⟨ha, _⟩ => by
    have : 65 ≤ c.toNat := ha
    omega
  rw [hexDigit?, if_neg hlower, if_neg hupper, digit?_eq, if_pos h]
  rfl

/-- Decimal digits name the same number as digits of a base. -/
theorem radix?_of_isDigit (hne : cs ≠ []) (h : ∀ c ∈ cs, c.isDigit = true) :
    radix? 10 cs = some (Nat.ofDigitChars 10 cs 0) := by
  rw [radix?, if_neg (by simpa using hne)]
  generalize 0 = n
  clear hne
  induction cs generalizing n with
  | nil => rfl
  | cons c cs ih =>
    have hc := (isDigit_iff c).mp (h c (by simp))
    rw [List.foldlM_cons, hexDigit?_of_isDigit (h c (by simp)), Nat.ofDigitChars_cons]
    have hlt : c.toNat - 48 < 10 := by omega
    simpa [hlt] using ih (fun d hd => h d (by simp [hd])) _

/-- Letters stand for ten and more. -/
theorem isDigit_of_hexDigit? {d : ℕ} (h : hexDigit? c = some d) (hd : d < 10) :
    c.isDigit = true := by
  unfold hexDigit? at h
  split_ifs at h with hlower hupper
  · cases h
    omega
  · cases h
    omega
  · rw [← isSome_digit?, h]
    rfl

theorem isDigit_of_foldlM {m : ℕ}
    (h : (cs.foldlM (fun n c => do
      let d ← hexDigit? c
      if d < 10 then some (10 * n + d) else none) m) = some n) : ∀ c ∈ cs, c.isDigit = true := by
  induction cs generalizing m with
  | nil => simp
  | cons c cs ih =>
    rw [List.foldlM_cons] at h
    obtain ⟨k, hk, hrest⟩ := Option.bind_eq_some_iff.mp h
    obtain ⟨d, hd, hlt⟩ := Option.bind_eq_some_iff.mp hk
    have hten : d < 10 := by
      by_contra hge
      simp [hge] at hlt
    exact List.forall_mem_cons.mpr ⟨isDigit_of_hexDigit? hd hten, ih hrest⟩

/-- A number in base ten is named by decimal digits only. -/
theorem radix?_ten_eq_some_iff :
    radix? 10 cs = some n
      ↔ cs ≠ [] ∧ (∀ c ∈ cs, c.isDigit = true) ∧ Nat.ofDigitChars 10 cs 0 = n := by
  constructor
  · intro h
    have hne : cs ≠ [] := by
      rintro rfl
      cases h
    have hdigits : ∀ c ∈ cs, c.isDigit = true := by
      rw [radix?, if_neg (by simpa using hne)] at h
      exact isDigit_of_foldlM h
    rw [radix?_of_isDigit hne hdigits] at h
    exact ⟨hne, hdigits, Option.some.inj h⟩
  · rintro ⟨hne, hdigits, rfl⟩
    exact radix?_of_isDigit hne hdigits

theorem radix?_toDigits (n : ℕ) : radix? 10 (Nat.toDigits 10 n) = some n := by
  rw [radix?_of_isDigit Nat.toDigits_ne_nil fun c hc => isDigit_of_mem_toDigits hc,
    Nat.ofDigitChars_ten_toDigits]

end BattleOdds.Plain
