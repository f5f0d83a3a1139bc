import BattleOdds.Proofs.Binary64.Normalization

/-!
# Operations on data

On finite data a sum, product or quotient gives the rounded value of its exact result: each brings
its operands to significands and exponents that stand for the exact result with bits enough to
round it.
-/
namespace BattleOdds.Binary64
open Float.Model Float.Model.UnpackedFloat Rounding

/-! ## Rounding a significand that is an integer -/

theorem decreaseExponent_value {m : ℕ} {e t : ℤ} (h : t ≤ e) :
    (decreaseExponent m e t).2 = t ∧ ((decreaseExponent m e t).1 : ℚ) * 2 ^ t = m * 2 ^ e := by
  have hk : ((e - t).toNat : ℤ) = e - t := Int.toNat_of_nonneg (by omega)
  refine ⟨by simp only [decreaseExponent, hk]; omega, ?_⟩
  simp only [decreaseExponent, Nat.shiftLeft_eq, Nat.cast_mul, Nat.cast_pow, Nat.cast_ofNat]
  rw [← zpow_natCast, hk, mul_assoc, ← zpow_add₀ (by norm_num)]
  congr 2
  ring

theorem value_round {s : Sign} {m : ℕ} {e : ℤ} (hm : 0 < m) :
    HasValue (ofDatum (UnpackedFloat.round .binary64 s m e))
      (rounded (signFactor s * (m * 2 ^ e))) := by
  set t := Format.binary64.targetExponent (totalExponent m e) with ht
  have hround : UnpackedFloat.round .binary64 s m e = roundWithAccuracy .binary64 s
      (decreaseExponent m e t).1 (decreaseExponent m e t).2 .exact := rfl
  rw [targetExponent_eq] at ht
  rcases le_total t e with hte | het
  · obtain ⟨he', hval⟩ := decreaseExponent_value (m := m) hte
    have hbits : EnoughBits (decreaseExponent m e t).1 t := by
      have hlog : (decreaseExponent m e t).1.log2 = m.log2 + (e - t).toNat := by
        have hpow := Nat.two_pow_pos (e - t).toNat
        simp only [decreaseExponent, Nat.shiftLeft_eq]
        rw [Nat.log2_eq_iff (by positivity), add_right_comm, pow_add, pow_add]
        exact ⟨Nat.mul_le_mul_right _ (Nat.log2_self_le hm.ne'),
          Nat.mul_lt_mul_of_pos_right Nat.lt_log2_self hpow⟩
      unfold EnoughBits
      omega
    rw [hround, he', ← hval]
    exact value_roundWithAccuracy (represents_exact _) hbits
  · have hsame : decreaseExponent m e t = (m, e) := by
      have hk : (e - t).toNat = 0 := by omega
      simp [decreaseExponent, hk]
    rw [hround, hsame]
    have hbits : EnoughBits m e := by
      unfold EnoughBits
      omega
    exact value_roundWithAccuracy (represents_exact m) hbits

theorem value_normalize (m : ℤ) (e : ℤ) (z : Sign) :
    HasValue (ofDatum (UnpackedFloat.normalize .binary64 m e z)) (rounded (m * 2 ^ e)) := by
  rcases lt_trichotomy m 0 with hm | rfl | hm
  · have hcast : ((-m).toNat : ℚ) = -m := by
      exact_mod_cast congrArg (Int.cast (R := ℚ)) (Int.toNat_of_nonneg (show 0 ≤ -m by omega))
    have h := value_round (s := .negative) (e := e) (show 0 < (-m).toNat by omega)
    rw [hcast, signFactor, neg_one_mul, neg_mul, neg_neg] at h
    simpa only [UnpackedFloat.normalize, compare_lt_iff_lt.mpr hm] using h
  · rw [Int.cast_zero, zero_mul, rounded_zero]
    exact value_ofDatum_zero z
  · have hcast : (m.toNat : ℚ) = m := by
      exact_mod_cast congrArg (Int.cast (R := ℚ)) (Int.toNat_of_nonneg hm.le)
    have h := value_round (s := .positive) (e := e) (show 0 < m.toNat by omega)
    rw [hcast, signFactor, one_mul] at h
    simpa only [UnpackedFloat.normalize, compare_gt_iff_gt.mpr hm] using h

/-! ## Sums, products and quotients -/

theorem rounded_datumValue {u : UnpackedFloat} (hu : Canonical u ∧ InRange u) :
    rounded (datumValue u) = datumValue u := by
  have hover : rounded overflow = overflow := by
    have h := unbounded_of_bits (m := 2 ^ 52) (e := 972) (by norm_num) (by norm_num)
    have hval : ((2 ^ 52 : ℕ) : ℚ) * 2 ^ (972 : ℤ) = overflow := by
      rw [overflow, show (1024 : ℤ) = 52 + 972 by norm_num, zpow_add₀ (by norm_num)]
      norm_num
    rw [hval] at h
    rw [rounded_of_nonneg overflow_pos.le, h, min_self]
  cases u with
  | notANumber => exact rounded_zero
  | zero s => exact rounded_zero
  | infinity s => cases s <;> simp [datumValue, signFactor, hover]
  | finite s m e h =>
    have hpos : (0 : ℚ) ≤ m * 2 ^ e := by positivity
    rw [datumValue, ← signFactor_mul_min s hpos, unbounded_of_bits hu.1.1 hu.1.2.1,
      min_eq_right (magnitude_lt_overflow hu.1.1 hu.2).le]

theorem value_ofDatum {u : UnpackedFloat} (hu : Canonical u ∧ InRange u) (hn : u ≠ .notANumber) :
    HasValue (ofDatum u) (datumValue u) :=
  hasValue_of_datum (datum_ofDatum hu.1 hu.2) hn

theorem value_ofDatum_zero_eq (s : Sign) {q : ℚ} (hq : q = 0) :
    HasValue (ofDatum (.zero s)) (rounded q) := by
  rw [hq, rounded_zero]
  exact value_ofDatum_zero s

theorem apply_cast (s : Sign) (n : ℕ) : ((s.apply n : ℤ) : ℚ) = signFactor s * n := by
  cases s <;> simp [Sign.apply, signFactor]

theorem signFactor_neg (s : Sign) : signFactor (-s) = -signFactor s := by
  cases s
  · exact (neg_neg 1).symm
  · rfl

theorem signFactor_mul (s t : Sign) : signFactor (s * t) = signFactor s * signFactor t := by
  cases s <;> cases t
  · change (1 : ℚ) = -1 * -1
    norm_num
  · exact (mul_one (-1)).symm
  · exact (one_mul (-1)).symm
  · exact (one_mul 1).symm

theorem signFactor_div (s t : Sign) : signFactor (s / t) = signFactor s / signFactor t := by
  cases s <;> cases t
  · change (1 : ℚ) = -1 / -1
    norm_num
  · exact (div_one (-1)).symm
  · change (-1 : ℚ) = 1 / -1
    norm_num
  · exact (div_one 1).symm

/-- The value of a sum of finite data. -/
theorem value_add_datum {u v : UnpackedFloat} (hu : Canonical u ∧ InRange u)
    (hv : Canonical v ∧ InRange v) (hfu : u.isFinite = true) (hfv : v.isFinite = true) :
    HasValue (ofDatum (UnpackedFloat.add .binary64 u v))
      (rounded (datumValue u + datumValue v)) := by
  cases u with
  | notANumber => cases hfu
  | infinity s => cases hfu
  | zero s =>
    cases v with
    | notANumber => cases hfv
    | infinity t => cases hfv
    | zero t =>
      simp only [datumValue, add_zero, rounded_zero]
      cases s <;> cases t <;> exact value_ofDatum_zero _
    | finite t n d hn =>
      obtain ⟨hnan, hval⟩ := value_ofDatum hv UnpackedFloat.noConfusion
      refine ⟨hnan, hval.trans ?_⟩
      rw [show datumValue (.zero s) = 0 from rfl, zero_add, rounded_datumValue hv]
  | finite s m e hm =>
    cases v with
    | notANumber => cases hfv
    | infinity t => cases hfv
    | zero t =>
      obtain ⟨hnan, hval⟩ := value_ofDatum hu UnpackedFloat.noConfusion
      refine ⟨hnan, hval.trans ?_⟩
      rw [show datumValue (.zero t) = 0 from rfl, add_zero, rounded_datumValue hu]
    | finite t n d hn =>
      have h₁ := (decreaseExponent_value (m := m) (min_le_left e d)).2
      have h₂ := (decreaseExponent_value (m := n) (min_le_right e d)).2
      have h := value_normalize (s.apply (decreaseExponent m e (min e d)).1
        + t.apply (decreaseExponent n d (min e d)).1) (min e d) .positive
      rw [Int.cast_add, apply_cast, apply_cast, add_mul, mul_assoc, mul_assoc, h₁, h₂] at h
      exact h

theorem datumValue_neg (u : UnpackedFloat) : datumValue u.neg = -datumValue u := by
  cases u <;> simp [UnpackedFloat.neg, datumValue, signFactor_neg]

theorem canonical_neg {u : UnpackedFloat} (hu : Canonical u ∧ InRange u) :
    Canonical u.neg ∧ InRange u.neg := by
  cases u <;> exact hu

theorem apply_neg (s : Sign) (n : ℤ) : (-s).apply n = -s.apply n := by
  cases s
  · exact (neg_neg n).symm
  · rfl

/-- A difference is a sum with the second operand negated. -/
theorem sub_datum (u v : UnpackedFloat) :
    UnpackedFloat.sub .binary64 u v = UnpackedFloat.add .binary64 u v.neg := by
  cases u <;> cases v <;>
    simp only [UnpackedFloat.sub, UnpackedFloat.add, UnpackedFloat.neg, apply_neg, sub_eq_add_neg]

/-- A product has bits enough where a factor has 53 bits, and a low exponent where neither has. -/
theorem enoughBits_mul {m n : ℕ} {e d : ℤ} (hm : 0 < m) (hn : 0 < n)
    (hm' : 2 ^ 52 ≤ m ∨ e = -1074) (hn' : 2 ^ 52 ≤ n ∨ d = -1074) :
    EnoughBits (m * n) (e + d) := by
  rcases hm' with hm' | rfl
  · exact enoughBits_of_le (hm'.trans (Nat.le_mul_of_pos_right m hn)) _
  rcases hn' with hn' | rfl
  · exact enoughBits_of_le (hn'.trans (Nat.le_mul_of_pos_left n hm)) _
  · exact .inr (by norm_num)

theorem value_mul_datum {u v : UnpackedFloat} (hu : Canonical u) (hv : Canonical v)
    (hfu : u.isFinite = true) (hfv : v.isFinite = true) :
    HasValue (ofDatum (UnpackedFloat.mul .binary64 u v))
      (rounded (datumValue u * datumValue v)) := by
  cases u with
  | notANumber => cases hfu
  | infinity s => cases hfu
  | zero s =>
    cases v with
    | notANumber => cases hfv
    | infinity t => cases hfv
    | zero t => exact value_ofDatum_zero_eq (s * t) (zero_mul _)
    | finite t n d hn => exact value_ofDatum_zero_eq (s * t) (zero_mul _)
  | finite s m e hm =>
    cases v with
    | notANumber => cases hfv
    | infinity t => cases hfv
    | zero t => exact value_ofDatum_zero_eq (s * t) (mul_zero _)
    | finite t n d hn =>
      have h := value_roundWithAccuracy (s := s * t) (represents_exact (m * n))
        (enoughBits_mul hm hn hu.2.2 hv.2.2)
      rw [signFactor_mul, Nat.cast_mul, zpow_add₀ (by norm_num)] at h
      have hval : datumValue (.finite s m e hm) * datumValue (.finite t n d hn)
          = signFactor s * signFactor t * (m * n * (2 ^ e * 2 ^ d)) := by
        simp only [datumValue]
        ring
      rw [hval]
      exact h

/-- A quotient of significands and what is cut off of it stand for the exact quotient. -/
theorem represents_quotient {m n : ℕ} (hn : 0 < n) :
    Represents (ExtendedMantissa.ofMantissaAndAccuracy (m / n) (accuracyOfFraction (m % n) n))
      (m / n) := by
  have hn' : (0 : ℚ) < n := by exact_mod_cast hn
  have hdiv : (m : ℚ) = n * (m / n : ℕ) + (m % n : ℕ) := by
    exact_mod_cast (Nat.div_add_mod m n).symm
  have hlt : ((m % n : ℕ) : ℚ) < n := by exact_mod_cast Nat.mod_lt m hn
  have hquot : (m : ℚ) / n = (m / n : ℕ) + (m % n : ℕ) / n := by
    rw [hdiv]
    field_simp
  rw [hquot]
  unfold accuracyOfFraction
  by_cases hz : m % n = 0
  · simp only [hz, Nat.cast_zero, zero_div, add_zero]
    exact represents_exact _
  · have hpos : (0 : ℚ) < (m % n : ℕ) := by exact_mod_cast Nat.pos_of_ne_zero hz
    have hfrac : 0 < ((m % n : ℕ) : ℚ) / n := by positivity
    have hone : ((m % n : ℕ) : ℚ) / n < 1 := by rwa [div_lt_one hn']
    rw [if_neg hz]
    rcases lt_trichotomy (2 * (m % n)) n with h | h | h
    · have hhalf : ((m % n : ℕ) : ℚ) / n < 1 / 2 := by
        rw [div_lt_iff₀ hn']
        have : (2 : ℚ) * (m % n : ℕ) < n := by exact_mod_cast h
        linarith
      rw [compare_lt_iff_lt.mpr h]
      exact ⟨lt_add_of_pos_right _ hfrac, add_lt_add_right hhalf _⟩
    · have hhalf : ((m % n : ℕ) : ℚ) / n = 1 / 2 := by
        rw [div_eq_iff hn'.ne']
        have : (2 : ℚ) * (m % n : ℕ) = n := by exact_mod_cast h
        linarith
      rw [compare_eq_iff_eq.mpr h, hhalf]
      rfl
    · have hhalf : 1 / 2 < ((m % n : ℕ) : ℚ) / n := by
        rw [lt_div_iff₀ hn']
        have : (n : ℚ) < 2 * (m % n : ℕ) := by exact_mod_cast h
        linarith
      rw [compare_gt_iff_gt.mpr h]
      exact ⟨add_lt_add_right hhalf _, add_lt_add_right hone _⟩

/-- A quotient has bits enough where the dividend is shifted to 53 bits more than the divisor. -/
theorem enoughBits_div {m n k : ℕ} (hm : 0 < m) (hn : 0 < n) (hlog : n.log2 + 53 ≤ m.log2 + k)
    (e : ℤ) : EnoughBits ((m <<< k) / n) e := by
  refine enoughBits_of_le ?_ e
  rw [Nat.shiftLeft_eq, Nat.le_div_iff_mul_le hn]
  calc 2 ^ 52 * n ≤ 2 ^ 52 * 2 ^ (n.log2 + 1) := Nat.mul_le_mul_left _ Nat.lt_log2_self.le
    _ = 2 ^ (n.log2 + 53) := by ring
    _ ≤ 2 ^ (m.log2 + k) := Nat.pow_le_pow_right (by decide) hlog
    _ = 2 ^ m.log2 * 2 ^ k := pow_add _ _ _
    _ ≤ m * 2 ^ k := Nat.mul_le_mul_right _ (Nat.log2_self_le hm.ne')

/-- The shift of the dividend is taken back by the exponent. -/
theorem datumValue_div_finite {s t : Sign} {m n : ℕ} {e d c : ℤ} (hm : 0 < m) (hn : 0 < n) {k : ℕ}
    (hk : (k : ℤ) = e - d - c) :
    datumValue (.finite s m e hm) / datumValue (.finite t n d hn)
      = signFactor (s / t) * (((m <<< k : ℕ) : ℚ) / n * 2 ^ c) := by
  have hpow : (2 : ℚ) ^ e = 2 ^ (k : ℤ) * 2 ^ c * 2 ^ d := by
    rw [← zpow_add₀ (by norm_num), ← zpow_add₀ (by norm_num)]
    congr 1
    omega
  simp only [datumValue, signFactor_div, Nat.shiftLeft_eq, Nat.cast_mul, Nat.cast_pow,
    Nat.cast_ofNat, hpow, zpow_natCast]
  field_simp

theorem value_div_datum {u v : UnpackedFloat} (hfu : u.isFinite = true) (hfv : v.isFinite = true)
    (hz : datumValue v ≠ 0) :
    HasValue (ofDatum (UnpackedFloat.div .binary64 u v))
      (rounded (datumValue u / datumValue v)) := by
  cases v with
  | notANumber => cases hfv
  | infinity t => cases hfv
  | zero t => exact absurd rfl hz
  | finite t n d hn =>
    cases u with
    | notANumber => cases hfu
    | infinity s => cases hfu
    | zero s => exact value_ofDatum_zero_eq (s / t) (zero_div _)
    | finite s m e hm =>
      set c := min (e - d) (Format.binary64.targetExponent
        (totalExponent m e - totalExponent n d)) with hc
      set k := (e - d - c).toNat
      have hk : (k : ℤ) = e - d - c := Int.toNat_of_nonneg (by omega)
      have hdiv : UnpackedFloat.div .binary64 (.finite s m e hm) (.finite t n d hn)
          = roundWithAccuracy .binary64 (s / t) ((m <<< k) / n) c
            (accuracyOfFraction ((m <<< k) % n) n) := rfl
      have hbits : EnoughBits ((m <<< k) / n) c := by
        have htarget : Format.binary64.targetExponent (totalExponent m e - totalExponent n d)
            = max ((m.log2 : ℤ) + e - (n.log2 + d) - 53) (-1074) := by
          simp only [Format.targetExponent, totalExponent, Format.mantissaBits, Format.minExponent]
          norm_num
          omega
        by_cases hmin : c ≤ -1074
        · exact .inr hmin
        · exact enoughBits_div hm hn (by omega) c
      rw [hdiv, datumValue_div_finite hm hn hk]
      exact value_roundWithAccuracy (represents_quotient hn) hbits

end BattleOdds.Binary64
