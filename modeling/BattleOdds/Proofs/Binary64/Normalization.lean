import BattleOdds.Proofs.Binary64.Value

/-!
# Exact results as words

Arithmetic leaves an exact result as a significand, an exponent and a note on what was cut off, and
shifts it until it fits a word. This module shows that the word it ends with has the rounded value
of the exact result.
-/
namespace BattleOdds.Binary64
open Float.Model Float.Model.UnpackedFloat Rounding

/-! ## Shifting -/

/-- An extended significand stands for a count of units: its two bits tell on which side of the
middle between two whole counts it lies. -/
def Represents (em : ExtendedMantissa) (q : ℚ) : Prop :=
  match em.roundBit, em.stickyBit with
  | false, false => q = em.mantissa
  | false, true => (em.mantissa : ℚ) < q ∧ q < em.mantissa + 1 / 2
  | true, false => q = em.mantissa + 1 / 2
  | true, true => (em.mantissa : ℚ) + 1 / 2 < q ∧ q < em.mantissa + 1

namespace Represents

variable {em : ExtendedMantissa} {q : ℚ}

theorem mantissa_le (h : Represents em q) : (em.mantissa : ℚ) ≤ q := by
  obtain ⟨m, r, s⟩ := em
  cases r <;> cases s <;> simp only [Represents] at h <;> linarith

theorem lt_succ (h : Represents em q) : q < em.mantissa + 1 := by
  obtain ⟨m, r, s⟩ := em
  cases r <;> cases s <;> simp only [Represents] at h <;> linarith

theorem floor_eq (h : Represents em q) : ⌊q⌋ = (em.mantissa : ℤ) :=
  Int.floor_eq_iff.mpr ⟨by exact_mod_cast h.mantissa_le, by exact_mod_cast h.lt_succ⟩

/-- The significand is rounded as the count is. -/
theorem rounded_eq (h : Represents em q) : (em.roundedMantissa : ℤ) = roundEven q := by
  have hfloor := h.floor_eq
  unfold roundEven
  rw [hfloor]
  obtain ⟨m, r, s⟩ := em
  cases r <;> cases s <;>
    simp only [Represents, ExtendedMantissa.roundedMantissa, ExtendedMantissa.accuracy,
      Accuracy.roundToNearestEven, Int.cast_natCast] at h ⊢
  · rw [if_pos (by linarith)]
  · rw [if_pos (by linarith)]
  · rw [if_neg (by linarith), if_neg (by linarith)]
    omega
  · rw [if_neg (by linarith), if_pos (by linarith)]
    omega

theorem half (h : Represents em q) : Represents em.shiftRightOne (q / 2) := by
  obtain ⟨m, r, s⟩ := em
  obtain ⟨n, rfl | rfl⟩ : ∃ n, m = 2 * n ∨ m = 2 * n + 1 := ⟨m / 2, by omega⟩
  · have hn : 2 * n / 2 = n := by omega
    cases r <;> cases s <;>
      simp only [Represents, ExtendedMantissa.shiftRightOne, hn, Nat.mul_mod_right,
        bne_self_eq_false, Bool.or_false, Bool.or_true, Nat.cast_mul, Nat.cast_ofNat] at h ⊢
    · linarith
    all_goals constructor <;> linarith
  · have hn : (2 * n + 1) / 2 = n := by omega
    have hodd : ((2 * n + 1) % 2 != 0) = true := by simp [Nat.add_mod]
    cases r <;> cases s <;>
      simp only [Represents, ExtendedMantissa.shiftRightOne, hn, hodd, Bool.or_false, Bool.or_true,
        Nat.cast_add, Nat.cast_mul, Nat.cast_ofNat, Nat.cast_one] at h ⊢
    · linarith
    all_goals constructor <;> linarith

/-- Shifting keeps what is represented, in greater units. -/
theorem shift (h : Represents em q) (k : ℕ) : Represents (em >>> k) (q / 2 ^ k) := by
  change Represents (k.repeat ExtendedMantissa.shiftRightOne em) _
  induction k with
  | zero => simpa [Nat.repeat] using h
  | succ k ih =>
    rw [pow_succ, ← div_div]
    exact ih.half

end Represents

theorem represents_exact (m : ℕ) :
    Represents (ExtendedMantissa.ofMantissaAndAccuracy m .exact) m := rfl

@[simp] theorem mantissa_ofMantissaAndAccuracy (m : ℕ) (a : Accuracy) :
    (ExtendedMantissa.ofMantissaAndAccuracy m a).mantissa = m := by
  rcases a with _ | o
  · rfl
  · cases o <;> rfl

theorem targetExponent_eq (m : ℕ) (e : ℤ) :
    Format.binary64.targetExponent (totalExponent m e) = max (m.log2 + e - 52) (-1074) := by
  simp only [Format.targetExponent, totalExponent, Format.mantissaBits, Format.minExponent]
  norm_num
  omega

/-- There are bits enough to round to 53 of them, unless the exponent is below the least one. -/
def EnoughBits (m : ℕ) (e : ℤ) : Prop := 52 ≤ m.log2 ∨ e ≤ -1074

theorem enoughBits_of_le {m : ℕ} (h : 2 ^ 52 ≤ m) (e : ℤ) : EnoughBits m e :=
  .inl ((Nat.le_log2 (by omega)).mpr h)

/-- The exponent aimed at is that of the unit of the exact result. -/
theorem targetExponent_eq_unit {m : ℕ} {e : ℤ} {q : ℚ} (hlo : (m : ℚ) ≤ q) (hhi : q < m + 1)
    (hq : 0 < q) (hb : EnoughBits m e) :
    Format.binary64.targetExponent (totalExponent m e) = unitExponent (q * 2 ^ e) := by
  rw [targetExponent_eq, unitExponent]
  have hlt : q < 2 ^ ((m.log2 : ℤ) + 1) := by
    have : m + 1 ≤ 2 ^ (m.log2 + 1) := Nat.lt_log2_self
    have : ((m : ℚ) + 1) ≤ 2 ^ (m.log2 + 1) := by exact_mod_cast this
    exact_mod_cast hhi.trans_le this
  have hupper : Int.log 2 (q * 2 ^ e) < m.log2 + 1 + e := by
    rw [← Int.lt_zpow_iff_log_lt (by decide) (by positivity)]
    push_cast
    rw [zpow_add₀ (by norm_num)]
    gcongr
  rcases m.eq_zero_or_pos with rfl | hm
  · simp only [EnoughBits, Nat.log2_zero] at hb hupper ⊢
    omega
  · have hlower : m.log2 + e ≤ Int.log 2 (q * 2 ^ e) := by
      rw [← Int.zpow_le_iff_le_log (by decide) (by positivity)]
      have : (2 : ℚ) ^ (m.log2 : ℤ) ≤ m := by exact_mod_cast Nat.log2_self_le hm.ne'
      push_cast
      rw [zpow_add₀ (by norm_num)]
      have := this.trans hlo
      gcongr
    omega

/-! ## Rounding -/

/-- The value of a canonical datum as a word: too great an exponent makes it infinite. -/
theorem value_ofDatum_finite {s : Sign} {m : ℕ} {e : ℤ} {h : 0 < m}
    (hc : Canonical (.finite s m e h)) :
    HasValue (ofDatum (.finite s m e h)) (signFactor s * min overflow (m * 2 ^ e)) := by
  rcases le_or_gt e 971 with hr | hr
  · rw [min_eq_right (magnitude_lt_overflow hc.1 hr).le]
    exact hasValue_of_datum (datum_ofDatum hc hr) UnpackedFloat.noConfusion
  · obtain ⟨-, -, hn⟩ := hc
    have hm' : (2 : ℚ) ^ (52 : ℤ) ≤ m := by exact_mod_cast hn.resolve_right (by omega)
    have hover : overflow ≤ m * 2 ^ e := by
      calc overflow ≤ 2 ^ (52 + e) := zpow_le_zpow_right₀ (by norm_num) (by omega)
        _ = 2 ^ (52 : ℤ) * 2 ^ e := by rw [zpow_add₀ (by norm_num)]
        _ ≤ m * 2 ^ e := by gcongr
    rw [min_eq_left hover]
    exact hasValue_of_datum (datum_ofDatum_overflow hr) UnpackedFloat.noConfusion

theorem value_ofDatum_zero (s : Sign) : HasValue (ofDatum (.zero s)) 0 :=
  hasValue_of_datum (datum_ofDatum (u := .zero s) trivial trivial) UnpackedFloat.noConfusion

theorem signFactor_mul_min (s : Sign) {q : ℚ} (hq : 0 ≤ q) :
    signFactor s * min overflow (unbounded q) = rounded (signFactor s * q) := by
  cases s
  · rw [signFactor, neg_one_mul, neg_one_mul, rounded_neg, rounded_of_nonneg hq]
  · rw [signFactor, one_mul, one_mul, rounded_of_nonneg hq]

/-- The first shift of rounding keeps what is represented, in units of the exponent aimed at. -/
theorem exists_shift_to_target {m : ℕ} {e : ℤ} {a : Accuracy} {q : ℚ}
    (h : Represents (ExtendedMantissa.ofMantissaAndAccuracy m a) q) (hb : EnoughBits m e) :
    let t := Format.binary64.targetExponent (totalExponent m e)
    ∃ em, shiftToTargetExponent .binary64 m e a = (em, t) ∧ Represents em (q * 2 ^ e / 2 ^ t) := by
  intro t
  have het : e ≤ t := by
    simp only [t, targetExponent_eq]
    unfold EnoughBits at hb
    omega
  have hcount : q / 2 ^ (t - e).toNat = q * 2 ^ e / 2 ^ t := by
    rw [← zpow_natCast, Int.toNat_of_nonneg (by omega), zpow_sub₀ (by norm_num)]
    field_simp
  refine ⟨ExtendedMantissa.ofMantissaAndAccuracy m a >>> (t - e).toNat, ?_,
    hcount ▸ h.shift (t - e).toNat⟩
  simp only [shiftToTargetExponent, shiftToExponent, t, Prod.mk.injEq, true_and]
  omega

/-- What the first shift leaves is rounded to the count of units of the rounded result. Rounding may
carry into a 54th bit, and there are fewer than 53 bits at the least unit only. -/
theorem exists_shift_to_unit {m : ℕ} {e : ℤ} {a : Accuracy} {q : ℚ}
    (h : Represents (ExtendedMantissa.ofMantissaAndAccuracy m a) q) (hb : EnoughBits m e) :
    ∃ em t, shiftToTargetExponent .binary64 m e a = (em, t) ∧ -1074 ≤ t
      ∧ (em.roundedMantissa : ℚ) * 2 ^ t = unbounded (q * 2 ^ e)
      ∧ em.roundedMantissa ≤ 2 ^ 53 ∧ (2 ^ 52 ≤ em.roundedMantissa ∨ t = -1074) := by
  have hlo := h.mantissa_le
  have hhi := h.lt_succ
  rw [mantissa_ofMantissaAndAccuracy] at hlo hhi
  have hq : 0 ≤ q := (Nat.cast_nonneg m).trans hlo
  obtain ⟨em, hshift, hrep⟩ := exists_shift_to_target h hb
  have hrounded := hrep.rounded_eq
  have hcast : (em.roundedMantissa : ℚ) = ((em.roundedMantissa : ℤ) : ℚ) := by push_cast; rfl
  refine ⟨em, _, hshift, by rw [targetExponent_eq]; exact le_max_right _ _, ?_⟩
  rcases hq.eq_or_lt with rfl | hpos
  · obtain rfl : m = 0 := by exact_mod_cast le_antisymm hlo (Nat.cast_nonneg m)
    rw [zero_mul, zero_div, roundEven_zero] at hrounded
    refine ⟨by simp [hcast, hrounded, unbounded], by omega, .inr ?_⟩
    rw [targetExponent_eq]
    simp only [EnoughBits, Nat.log2_zero] at hb ⊢
    omega
  · have hpos' : 0 < q * 2 ^ e := by positivity
    rw [targetExponent_eq_unit hlo hhi hpos hb] at hrounded ⊢
    refine ⟨by rw [hcast, hrounded, unbounded], ?_, ?_⟩
    · exact_mod_cast hrounded ▸ roundEven_div_unit_le hpos'.le
    · rcases (unitExponent_ge (q * 2 ^ e)).eq_or_lt with hleast | hunit
      · exact .inr hleast.symm
      · exact .inl (by exact_mod_cast hrounded ▸ le_roundEven_div_unit hpos' hunit)

/-- The second shift of rounding only takes back a carry into a 54th bit. -/
theorem shift_after_carry {r : ℕ} {t : ℤ} (hr : r ≤ 2 ^ 53) (ht : -1074 ≤ t) :
    ∃ n u, shiftToTargetExponent .binary64 r t .exact = (⟨n, false, false⟩, u)
      ∧ (n : ℚ) * 2 ^ u = r * 2 ^ t ∧ n < 2 ^ 53 ∧ t ≤ u ∧ (r < 2 ^ 53 → n = r ∧ u = t)
      ∧ (r = 2 ^ 53 → n = 2 ^ 52) := by
  rcases hr.lt_or_eq with hlt | rfl
  · have hlog : r.log2 ≤ 52 := by
      rcases r.eq_zero_or_pos with rfl | hpos
      · simp
      · exact Nat.lt_succ_iff.mp ((Nat.log2_lt hpos.ne').mpr hlt)
    have hk : (max ((r.log2 : ℤ) + t - 52) (-1074) - t).toNat = 0 := by omega
    refine ⟨r, t, ?_, rfl, hlt, le_rfl, fun _ => ⟨rfl, rfl⟩, by omega⟩
    simp only [shiftToTargetExponent, shiftToExponent, targetExponent_eq, hk]
    simp
    rfl
  · have hk : (max (((2 ^ 53 : ℕ).log2 : ℤ) + t - 52) (-1074) - t).toNat = 1 := by
      rw [Nat.log2_two_pow]
      omega
    refine ⟨2 ^ 52, t + 1, ?_, ?_, by decide, by omega, by omega, fun _ => rfl⟩
    · simp only [shiftToTargetExponent, shiftToExponent, targetExponent_eq, hk]
      rfl
    · rw [zpow_add₀ (by norm_num)]
      norm_num
      ring

/-- A result with enough bits is rounded to its rounded value. -/
theorem value_roundWithAccuracy {s : Sign} {m : ℕ} {e : ℤ} {a : Accuracy} {q : ℚ}
    (h : Represents (ExtendedMantissa.ofMantissaAndAccuracy m a) q) (hb : EnoughBits m e) :
    HasValue (ofDatum (roundWithAccuracy .binary64 s m e a))
      (rounded (signFactor s * (q * 2 ^ e))) := by
  have hq : 0 ≤ q := by
    have hlo := h.mantissa_le
    rw [mantissa_ofMantissaAndAccuracy] at hlo
    exact (Nat.cast_nonneg m).trans hlo
  obtain ⟨em, t, hfirst, hleast, hunits, hcarry, hnormal⟩ := exists_shift_to_unit h hb
  obtain ⟨n, u, hsecond, hval, hn, htu, hsame, hover⟩ := shift_after_carry hcarry hleast
  have hresult : roundWithAccuracy .binary64 s m e a
      = if h : n = 0 then .zero s else .finite s n u (Nat.pos_of_ne_zero h) := by
    simp only [roundWithAccuracy, hfirst, hsecond]
  rw [← signFactor_mul_min s (by positivity), ← hunits, ← hval, hresult]
  by_cases hz : n = 0
  · rw [dif_pos hz, hz]
    obtain ⟨hnan, hv⟩ := value_ofDatum_zero s
    refine ⟨hnan, ?_⟩
    simp [hv, overflow_pos.le]
  · rw [dif_neg hz]
    apply value_ofDatum_finite
    refine ⟨hn, by omega, ?_⟩
    rcases hcarry.lt_or_eq with hlt | heq
    · obtain ⟨rfl, rfl⟩ := hsame hlt
      exact hnormal
    · exact .inl (hover heq).ge

end BattleOdds.Binary64
