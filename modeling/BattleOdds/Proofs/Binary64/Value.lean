import BattleOdds.Proofs.Binary64.Datum

/-!
# The value of a number

Every word that is not a NaN has a rational value: that of its significand and exponent, which for
an infinity is `2 ^ 1024` with its sign. The order of numbers is the order of values, and a number
is finite where its value lies strictly between the infinities.
-/
namespace BattleOdds.Binary64
open Float.Model Float.Model.UnpackedFloat Rounding

/-- The sign as a factor. -/
def signFactor : Sign → ℚ
  | .negative => -1
  | .positive => 1

/-- The value of a number. -/
def value (x : Binary64) : ℚ := signFactor x.sign * (x.significand * 2 ^ x.exponent)

/-- A word is a number and has a value. -/
structure HasValue (x : Binary64) (q : ℚ) : Prop where
  isNumber : x.isNaN = false
  value_eq : x.value = q

/-- The value of a datum. -/
def datumValue : UnpackedFloat → ℚ
  | .finite s m e _ => signFactor s * (m * 2 ^ e)
  | .infinity s => signFactor s * overflow
  | _ => 0

theorem isNaN_iff (x : Binary64) : x.isNaN = true ↔ x.datum = .notANumber := by
  rw [isNaN_iff_fields]
  constructor
  · rintro ⟨he, hf⟩
    exact datum_of_nan he hf
  · intro h
    cases x.kind with
    | nan he hf _ => exact ⟨he, hf⟩
    | zero _ _ hd | subnormal _ _ hd | normal _ _ hd | infinite _ _ hd =>
      rw [hd] at h
      cases h

theorem isNaN_eq_false_iff (x : Binary64) : x.isNaN = false ↔ x.datum ≠ .notANumber := by
  rw [← Bool.not_eq_true, isNaN_iff]

theorem exponent_eq (x : Binary64) : x.exponent = (max x.exponentField 1 : ℕ) - 1075 := rfl

theorem significand_lt (x : Binary64) : x.significand < 2 ^ 53 := by
  have hfraction := x.fraction_lt
  unfold significand
  split_ifs <;> omega

theorem le_significand {x : Binary64} (h : x.exponentField ≠ 0) : 2 ^ 52 ≤ x.significand := by
  rw [significand, if_neg h]
  omega

/-- A value is whole in every unit up to that of its significand. -/
theorem exists_value_eq_mul (x : Binary64) {e : ℤ} (he : e ≤ x.exponent) :
    ∃ n : ℤ, x.value = n * 2 ^ e := by
  obtain ⟨k, hk⟩ := Int.eq_ofNat_of_zero_le (sub_nonneg.mpr he)
  have hmagnitude : (x.significand : ℚ) * 2 ^ x.exponent
      = ((x.significand * 2 ^ k : ℤ) : ℚ) * 2 ^ e := by
    rw [show x.exponent = k + e by omega, zpow_add₀ (by norm_num), zpow_natCast]
    push_cast
    ring
  rw [value, hmagnitude]
  cases x.sign with
  | negative => exact ⟨-(x.significand * 2 ^ k), by rw [signFactor, Int.cast_neg]; ring⟩
  | positive => exact ⟨x.significand * 2 ^ k, by rw [signFactor, one_mul]⟩

theorem value_eq_datumValue {x : Binary64} (h : x.isNaN = false) :
    x.value = datumValue x.datum := by
  rw [value, exponent_eq, significand]
  cases x.kind with
  | zero he hf hd =>
    rw [if_pos he, hd, hf]
    simp [datumValue]
  | subnormal he hf hd =>
    rw [if_pos he, he, hd]
    norm_num [datumValue]
  | normal hpos hlt hd =>
    rw [if_neg hpos.ne', max_eq_left hpos, hd]
    norm_num [datumValue]
  | infinite he hf hd =>
    rw [hd, he, hf, datumValue, overflow, show (1024 : ℤ) = 52 + 972 by norm_num,
      zpow_add₀ (by norm_num)]
    norm_num
  | nan he hf hd => exact absurd hd ((isNaN_eq_false_iff x).mp h)

theorem hasValue_of_datum {x : Binary64} {u : UnpackedFloat} (hd : x.datum = u)
    (hn : u ≠ .notANumber) : HasValue x (datumValue u) := by
  subst hd
  have hnan := (isNaN_eq_false_iff x).mpr hn
  exact ⟨hnan, value_eq_datumValue hnan⟩

theorem isFinite_iff_datum (x : Binary64) : x.isFinite = true ↔ x.datum.isFinite = true := by
  rw [isFinite_iff_fields]
  cases x.kind with
  | zero he _ hd | subnormal he _ hd | infinite he _ hd | nan he _ hd =>
    simp [hd, he, UnpackedFloat.isFinite]
  | normal _ hlt hd => simp [hd, hlt, UnpackedFloat.isFinite]

theorem isNaN_of_isFinite {x : Binary64} (h : x.isFinite = true) : x.isNaN = false := by
  rw [isNaN_eq_false_iff]
  intro hn
  rw [isFinite_iff_datum, hn] at h
  cases h

/-! ## Order -/

theorem magnitude_lt_overflow {m : ℕ} {e : ℤ} (hm : m < 2 ^ 53) (he : e ≤ 971) :
    (m : ℚ) * 2 ^ e < overflow := by
  have hm' : (m : ℚ) < 2 ^ (53 : ℤ) := by exact_mod_cast hm
  calc (m : ℚ) * 2 ^ e < 2 ^ (53 : ℤ) * 2 ^ e := by gcongr
    _ = 2 ^ (53 + e) := by rw [zpow_add₀ (by norm_num)]
    _ ≤ overflow := zpow_le_zpow_right₀ (by norm_num) (by omega)

/-- The greater exponent belongs to the greater magnitude. -/
theorem magnitude_lt_of_exponent_lt {m n : ℕ} {d e : ℤ} (hm : m < 2 ^ 53)
    (hn : 2 ^ 52 ≤ n) (hlt : d < e) : (m : ℚ) * 2 ^ d < n * 2 ^ e := by
  have hm' : (m : ℚ) < 2 ^ (53 : ℤ) := by exact_mod_cast hm
  have hn' : (2 : ℚ) ^ (52 : ℤ) ≤ n := by exact_mod_cast hn
  calc (m : ℚ) * 2 ^ d < 2 ^ (53 : ℤ) * 2 ^ d := by gcongr
    _ = 2 ^ (52 + (d + 1)) := by rw [← zpow_add₀ (by norm_num)]; congr 1; ring
    _ ≤ 2 ^ (52 + e) := zpow_le_zpow_right₀ (by norm_num) (by omega)
    _ = 2 ^ (52 : ℤ) * 2 ^ e := by rw [zpow_add₀ (by norm_num)]
    _ ≤ n * 2 ^ e := by gcongr

/-- Canonical magnitudes are ordered by exponent first and by significand second. -/
theorem compare_magnitude {m n : ℕ} {d e : ℤ}
    (hm : m < 2 ^ 53 ∧ -1074 ≤ d ∧ (2 ^ 52 ≤ m ∨ d = -1074))
    (hn : n < 2 ^ 53 ∧ -1074 ≤ e ∧ (2 ^ 52 ≤ n ∨ e = -1074)) :
    (compare d e).then (compare m n) = compare ((m : ℚ) * 2 ^ d) (n * 2 ^ e) := by
  obtain ⟨hm, hd, hm'⟩ := hm
  obtain ⟨hn, he, hn'⟩ := hn
  rcases lt_trichotomy d e with hlt | rfl | hgt
  · rw [compare_lt_iff_lt.mpr hlt, compare_lt_iff_lt.mpr
      (magnitude_lt_of_exponent_lt hm (hn'.resolve_right (by omega)) hlt)]
    rfl
  · rw [compare_eq_iff_eq.mpr rfl, Ordering.eq_then]
    have hpos : (0 : ℚ) < 2 ^ d := by positivity
    rcases lt_trichotomy m n with h | rfl | h
    · rw [compare_lt_iff_lt.mpr h, compare_lt_iff_lt.mpr (by gcongr)]
    · rw [compare_eq_iff_eq.mpr rfl, compare_eq_iff_eq.mpr rfl]
    · rw [compare_gt_iff_gt.mpr h, compare_gt_iff_gt.mpr (by gcongr)]
  · rw [compare_gt_iff_gt.mpr hgt, compare_gt_iff_gt.mpr
      (magnitude_lt_of_exponent_lt hn (hm'.resolve_right (by omega)) hgt)]
    rfl

theorem compare_neg_neg (p q : ℚ) : compare (-p) (-q) = (compare p q).swap := by
  rcases lt_trichotomy p q with h | rfl | h
  · rw [compare_lt_iff_lt.mpr h, compare_gt_iff_gt.mpr (neg_lt_neg h)]
    rfl
  · rw [compare_eq_iff_eq.mpr rfl, compare_eq_iff_eq.mpr rfl]
    rfl
  · rw [compare_gt_iff_gt.mpr h, compare_lt_iff_lt.mpr (neg_lt_neg h)]
    rfl

theorem abs_datumValue_lt {u : UnpackedFloat} (hu : Canonical u ∧ InRange u)
    (h : ∀ s, u ≠ .infinity s) : |datumValue u| < overflow := by
  cases u with
  | notANumber => simpa [datumValue] using overflow_pos
  | infinity s => exact absurd rfl (h s)
  | zero s => simpa [datumValue] using overflow_pos
  | finite s m e hm =>
    have hlt := magnitude_lt_overflow hu.1.1 hu.2
    have hpos : (0 : ℚ) ≤ m * 2 ^ e := by positivity
    cases s <;> simpa [datumValue, signFactor, abs_of_nonneg hpos] using hlt

/-- An infinity lies beyond all other data. -/
theorem compare_infinity {u : UnpackedFloat} (hu : Canonical u ∧ InRange u)
    (h : ∀ s, u ≠ .infinity s) :
    (compare overflow (datumValue u) = .gt ∧ compare (datumValue u) overflow = .lt)
      ∧ compare (-overflow) (datumValue u) = .lt ∧ compare (datumValue u) (-overflow) = .gt := by
  have hlt := abs_lt.mp (abs_datumValue_lt hu h)
  exact ⟨⟨compare_gt_iff_gt.mpr hlt.2, compare_lt_iff_lt.mpr hlt.2⟩,
    compare_lt_iff_lt.mpr hlt.1, compare_gt_iff_gt.mpr hlt.1⟩

theorem compare_datum_of_isFinite {u v : UnpackedFloat} (hu : Canonical u) (hv : Canonical v)
    (hfu : u.isFinite = true) (hfv : v.isFinite = true) :
    u.compare v = some (compare (datumValue u) (datumValue v)) := by
  cases u with
  | notANumber => cases hfu
  | infinity s => cases hfu
  | zero s =>
    cases v with
    | notANumber => cases hfv
    | infinity t => cases hfv
    | zero t => exact congrArg some (compare_eq_iff_eq.mpr rfl).symm
    | finite t n e hn =>
      have hpos : (0 : ℚ) < n * 2 ^ e := by positivity
      cases t <;> simp only [datumValue, signFactor, one_mul, neg_one_mul]
      · rw [compare_gt_iff_gt.mpr (by linarith)]; rfl
      · rw [compare_lt_iff_lt.mpr hpos]; rfl
  | finite s m d hm =>
    have hpos : (0 : ℚ) < m * 2 ^ d := by positivity
    cases v with
    | notANumber => cases hfv
    | infinity t => cases hfv
    | zero t =>
      cases s <;> simp only [datumValue, signFactor, one_mul, neg_one_mul]
      · rw [compare_lt_iff_lt.mpr (by linarith)]; rfl
      · rw [compare_gt_iff_gt.mpr hpos]; rfl
    | finite t n e hn =>
      have hpos' : (0 : ℚ) < n * 2 ^ e := by positivity
      have hmag := compare_magnitude hu hv
      cases s <;> cases t <;> simp only [datumValue, signFactor, one_mul, neg_one_mul]
      · rw [compare_neg_neg, ← hmag]; rfl
      · rw [compare_lt_iff_lt.mpr (by linarith)]; rfl
      · rw [compare_gt_iff_gt.mpr (by linarith)]; rfl
      · rw [← hmag]; rfl

theorem isFinite_of_ne {u : UnpackedFloat} (hn : u ≠ .notANumber) (hi : ∀ s, u ≠ .infinity s) :
    u.isFinite = true := by
  cases u with
  | notANumber => exact absurd rfl hn
  | infinity s => exact absurd rfl (hi s)
  | zero s => rfl
  | finite s m e h => rfl

/-- Data are compared as their values are. -/
theorem compare_datum {u v : UnpackedFloat} (hu : Canonical u ∧ InRange u)
    (hv : Canonical v ∧ InRange v) (hnu : u ≠ .notANumber) (hnv : v ≠ .notANumber) :
    u.compare v = some (compare (datumValue u) (datumValue v)) := by
  have hover := overflow_pos
  by_cases hiu : ∃ s, u = .infinity s
  · obtain ⟨s, rfl⟩ := hiu
    by_cases hiv : ∃ t, v = .infinity t
    · obtain ⟨t, rfl⟩ := hiv
      cases s <;> cases t <;> simp only [datumValue, signFactor, one_mul, neg_one_mul]
      · rw [compare_eq_iff_eq.mpr rfl]; rfl
      · rw [compare_lt_iff_lt.mpr (by linarith)]; rfl
      · rw [compare_gt_iff_gt.mpr (by linarith)]; rfl
      · rw [compare_eq_iff_eq.mpr rfl]; rfl
    · push Not at hiv
      obtain ⟨⟨hgt, -⟩, hlt, -⟩ := compare_infinity hv hiv
      cases s <;> cases v <;> simp_all [UnpackedFloat.compare, datumValue, signFactor]
  push Not at hiu
  by_cases hiv : ∃ t, v = .infinity t
  · obtain ⟨t, rfl⟩ := hiv
    obtain ⟨⟨-, hlt⟩, -, hgt⟩ := compare_infinity hu hiu
    cases t <;> cases u <;> simp_all [UnpackedFloat.compare, datumValue, signFactor]
  push Not at hiv
  exact compare_datum_of_isFinite hu.1 hv.1 (isFinite_of_ne hnu hiu) (isFinite_of_ne hnv hiv)

/-- A word keeps its datum as an operand of arithmetic. -/
theorem unpack_toFloat (x : Binary64) : x.toFloat.toModel.unpack = x.datum := by
  change (ofDatum x.datum).datum = x.datum
  exact datum_ofDatum x.canonical_datum.1 x.canonical_datum.2

theorem lt_iff_datum (x y : Binary64) : x < y ↔ x.datum.lt y.datum = true := by
  rw [← unpack_toFloat, ← unpack_toFloat]
  change decide (x.toFloat.toModel < y.toFloat.toModel) = true ↔ _
  rw [decide_eq_true_iff]
  rfl

theorem le_iff_datum (x y : Binary64) : x ≤ y ↔ x.datum.le y.datum = true := by
  rw [← unpack_toFloat, ← unpack_toFloat]
  change decide (x.toFloat.toModel ≤ y.toFloat.toModel) = true ↔ _
  rw [decide_eq_true_iff]
  rfl

/-- Numbers are ordered by value. -/
theorem lt_iff_value {x y : Binary64} (hx : x.isNaN = false) (hy : y.isNaN = false) :
    x < y ↔ x.value < y.value := by
  rw [lt_iff_datum, UnpackedFloat.lt, value_eq_datumValue hx, value_eq_datumValue hy,
    compare_datum x.canonical_datum y.canonical_datum ((isNaN_eq_false_iff x).mp hx)
      ((isNaN_eq_false_iff y).mp hy), ← compare_lt_iff_lt]
  cases compare (datumValue x.datum) (datumValue y.datum) <;> decide

theorem le_iff_value {x y : Binary64} (hx : x.isNaN = false) (hy : y.isNaN = false) :
    x ≤ y ↔ x.value ≤ y.value := by
  rw [le_iff_datum, UnpackedFloat.le, value_eq_datumValue hx, value_eq_datumValue hy,
    compare_datum x.canonical_datum y.canonical_datum ((isNaN_eq_false_iff x).mp hx)
      ((isNaN_eq_false_iff y).mp hy), ← compare_le_iff_le]
  cases compare (datumValue x.datum) (datumValue y.datum) <;> decide

theorem compare_notANumber (u : UnpackedFloat) :
    u.compare .notANumber = none ∧ UnpackedFloat.compare .notANumber u = none := by
  cases u <;> exact ⟨rfl, rfl⟩

/-- A NaN is in no order to anything. -/
theorem isNaN_of_compare {x y : Binary64} (h : x.datum.compare y.datum ≠ none) :
    x.isNaN = false ∧ y.isNaN = false := by
  rw [isNaN_eq_false_iff, isNaN_eq_false_iff]
  exact ⟨fun hn => h (hn ▸ (compare_notANumber _).2), fun hn => h (hn ▸ (compare_notANumber _).1)⟩

theorem isNaN_of_lt {x y : Binary64} (h : x < y) : x.isNaN = false ∧ y.isNaN = false := by
  rw [lt_iff_datum, UnpackedFloat.lt] at h
  refine isNaN_of_compare fun hnone => ?_
  rw [hnone] at h
  exact absurd h (by decide)

theorem isNaN_of_le {x y : Binary64} (h : x ≤ y) : x.isNaN = false ∧ y.isNaN = false := by
  rw [le_iff_datum, UnpackedFloat.le] at h
  refine isNaN_of_compare fun hnone => ?_
  rw [hnone] at h
  exact absurd h (by decide)

theorem le_of_lt {x y : Binary64} (h : x < y) : x ≤ y := by
  obtain ⟨hx, hy⟩ := isNaN_of_lt h
  rw [le_iff_value hx hy]
  exact ((lt_iff_value hx hy).mp h).le

theorem not_le_iff_lt {x y : Binary64} (hx : x.isNaN = false) (hy : y.isNaN = false) :
    ¬ x ≤ y ↔ y < x := by
  rw [le_iff_value hx hy, not_le, lt_iff_value hy hx]

theorem not_lt_iff_le {x y : Binary64} (hx : x.isNaN = false) (hy : y.isNaN = false) :
    ¬ x < y ↔ y ≤ x := by
  rw [lt_iff_value hx hy, not_lt, le_iff_value hy hx]

/-- A number is finite where its value lies between the infinities. -/
theorem isFinite_iff_value {x : Binary64} (h : x.isNaN = false) :
    x.isFinite = true ↔ |x.value| < overflow := by
  rw [isFinite_iff_datum, value_eq_datumValue h]
  rw [isNaN_eq_false_iff] at h
  have hover := overflow_pos
  by_cases hi : ∃ s, x.datum = .infinity s
  · obtain ⟨s, hs⟩ := hi
    rw [hs]
    cases s <;> simp [UnpackedFloat.isFinite, datumValue, signFactor, abs_of_pos hover]
  · push Not at hi
    have hlt := abs_datumValue_lt x.canonical_datum hi
    cases hd : x.datum <;> simp_all [UnpackedFloat.isFinite]

end BattleOdds.Binary64
