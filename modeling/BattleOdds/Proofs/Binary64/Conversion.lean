import BattleOdds.Proofs.Binary64.Whole

/-!
# Conversion to words

A figure becomes a word by losing its fractional part; what no word holds becomes the nearest word,
and a NaN becomes zero. To round a figure to a whole one, down or up, and then to convert it comes
to the same as `floor` and `ceil`, as long as the whole number is one that a significand can hold.
-/
namespace BattleOdds.Binary64
open Float.Model Float.Model.UnpackedFloat Rounding

variable {x y : Binary64} {whole : ℚ → ℤ} {n : ℕ}

/-! ## The word of a figure -/

/-- The word that a figure is converted to. -/
def toWord (x : Binary64) : UInt64 := x.toFloat.toUInt64

/-- A finite datum is cut towards zero. -/
theorem roundToInt_eq (s : Sign) (m : ℕ) (e : ℤ) :
    roundToInt s m e = s.apply ⌊(m : ℚ) * 2 ^ e⌋ := by
  have hcut (m' k : ℕ) (h : (m' : ℚ) / 2 ^ k = m * 2 ^ e) :
      ((ExtendedMantissa.ofMantissaAndAccuracy m' .exact >>> k).mantissa : ℤ)
        = ⌊(m : ℚ) * 2 ^ e⌋ := by
    rw [← h]
    exact ((represents_exact m').shift k).floor_eq.symm
  unfold roundToInt decreaseExponent shiftToExponent
  dsimp only
  rw [hcut]
  cases e with
  | ofNat e => simp [Nat.shiftLeft_eq]
  | negSucc e => simp [zpow_negSucc, div_eq_mul_inv]

/-- With its sign a whole part is cut at zero. -/
theorem toNat_apply_floor (s : Sign) {q : ℚ} (hq : 0 ≤ q) :
    (s.apply ⌊q⌋).toNat = ⌊signFactor s * q⌋₊ := by
  cases s with
  | positive =>
    rw [signFactor, one_mul, ← Int.floor_toNat]
    rfl
  | negative =>
    rw [signFactor, neg_one_mul, Nat.floor_of_nonpos (neg_nonpos.mpr hq)]
    exact Int.toNat_of_nonpos (neg_nonpos.mpr (Int.floor_nonneg.mpr hq))

theorem toNat_ofNatClamp (n : ℕ) : (UInt64.ofNatClamp n).toNat = min n (UInt64.size - 1) := by
  have hsize : UInt64.size = 2 ^ 64 := rfl
  unfold UInt64.ofNatClamp
  split_ifs with h <;> rw [UInt64.toNat_ofNatLT] <;> omega

theorem size_lt_overflow : (UInt64.size : ℚ) < overflow := by
  have hsize : UInt64.size = 2 ^ 64 := rfl
  rw [hsize, Nat.cast_pow, Nat.cast_ofNat]
  exact two_pow_lt_overflow (by norm_num)

theorem toWord_eq (x : Binary64) :
    x.toWord = .ofNatClamp (x.datum.toInt 0 (UInt64.size - 1)).toNat := by
  rw [← unpack_toFloat]
  rfl

theorem toWord_of_isNaN (h : x.isNaN = true) : x.toWord = 0 := by
  rw [toWord_eq, (isNaN_iff x).mp h]
  rfl

/-- A number becomes its whole part, if that is between zero and the greatest word. -/
theorem toNat_toWord (h : x.isNaN = false) :
    x.toWord.toNat = min ⌊x.value⌋₊ (UInt64.size - 1) := by
  rw [toWord_eq, toNat_ofNatClamp, value_eq_datumValue h]
  rw [isNaN_eq_false_iff] at h
  cases hd : x.datum with
  | notANumber => exact absurd hd h
  | zero s =>
    rw [show datumValue (.zero s) = 0 from rfl, Nat.floor_zero]
    rfl
  | infinity s =>
    rw [datumValue]
    cases s with
    | positive =>
      have hmost : UInt64.size - 1 ≤ ⌊signFactor .positive * overflow⌋₊ := by
        rw [signFactor, one_mul]
        exact (Nat.sub_le _ _).trans (Nat.le_floor size_lt_overflow.le)
      rw [min_eq_right hmost]
      rfl
    | negative =>
      rw [signFactor, neg_one_mul, Nat.floor_of_nonpos (neg_nonpos.mpr overflow_pos.le)]
      rfl
  | finite s m e hm =>
    have hmagnitude : (0 : ℚ) ≤ m * 2 ^ e := by positivity
    rw [UnpackedFloat.toInt, roundToInt_eq, toNat_apply_floor s hmagnitude, datumValue]

/-! ## Rounding and converting -/

/-- The figure `y` is `x` rounded to a whole one; a NaN stays one. -/
structure Rounds (whole : ℚ → ℤ) (x y : Binary64) : Prop where
  isNaN_eq : y.isNaN = x.isNaN
  value_eq : x.isNaN = false → y.value = whole x.value

/-- There is a whole figure that `x` is rounded to, and each one is converted to the word `n`: zero
has two. -/
structure Converts (whole : ℚ → ℤ) (x : Binary64) (n : ℕ) : Prop where
  exists_rounds : ∃ y, Rounds whole x y
  toNat_toWord : ∀ y, Rounds whole x y → y.toWord.toNat = n

theorem converts_of_isNaN (h : x.isNaN = true) : Converts whole x 0 where
  exists_rounds := ⟨x, rfl, fun hn => absurd (hn.symm.trans h) Bool.false_ne_true⟩
  toNat_toWord y hy := by
    rw [toWord_of_isNaN (hy.isNaN_eq.trans h)]
    rfl

theorem converts_of_isNumber (h : x.isNaN = false) (hwhole : whole x.value = n)
    (hn : n < 2 ^ 53) : Converts whole x n where
  exists_rounds := by
    have hvalue := hasValue_ofNat hn
    refine ⟨ofNat n, hvalue.isNumber.trans h.symm, fun _ => ?_⟩
    rw [hvalue.value_eq, hwhole, Int.cast_natCast]
  toNat_toWord y hy := by
    have hsize : UInt64.size = 2 ^ 64 := rfl
    rw [Binary64.toNat_toWord (hy.isNaN_eq.trans h), hy.value_eq h, hwhole, Int.cast_natCast,
      Nat.floor_natCast]
    omega

theorem UpTo.converts_floor (h : UpTo n x) (hn : n < 2 ^ 53) :
    Converts Int.floor x x.floor := by
  refine converts_of_isNumber h.nonNegative.isNumber ?_ (h.floor_le.trans_lt hn)
  rw [h.nonNegative.floor_eq, Int.natCast_floor_eq_floor h.nonNegative.le_value]

theorem UpTo.converts_ceil (h : UpTo n x) (hn : n < 2 ^ 53) : Converts Int.ceil x x.ceil := by
  refine converts_of_isNumber h.nonNegative.isNumber ?_ (h.ceil_le.trans_lt hn)
  rw [h.nonNegative.ceil_eq, Int.natCast_ceil_eq_ceil h.nonNegative.le_value]

end BattleOdds.Binary64
