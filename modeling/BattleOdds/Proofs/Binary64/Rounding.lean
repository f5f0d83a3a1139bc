import Mathlib

/-!
# Rounding to 53 bits

The rational that arithmetic on figures rounds an exact result to. A magnitude is rounded to a
multiple of its unit, which is the power of two that leaves it 53 bits, but at least `2 ^ -1074`;
ties go to the even multiple, and what reaches `2 ^ 1024` stays there, which stands for infinity.
The main facts are that rounding is monotone and keeps what is a multiple of its unit.
-/
namespace BattleOdds.Rounding

/-- The nearest integer; of two equally near ones the even one. -/
def roundEven (q : ℚ) : ℤ :=
  if q - ⌊q⌋ < 1 / 2 then ⌊q⌋
  else if 1 / 2 < q - ⌊q⌋ then ⌊q⌋ + 1
  else ⌊q⌋ + ⌊q⌋ % 2

theorem floor_le_roundEven (q : ℚ) : ⌊q⌋ ≤ roundEven q := by
  unfold roundEven
  split_ifs <;> omega

theorem roundEven_le_floor_add_one (q : ℚ) : roundEven q ≤ ⌊q⌋ + 1 := by
  unfold roundEven
  split_ifs <;> omega

@[simp] theorem roundEven_intCast (n : ℤ) : roundEven n = n := by
  simp [roundEven]

@[simp] theorem roundEven_natCast (n : ℕ) : roundEven n = n := by
  simpa using roundEven_intCast n

@[simp] theorem roundEven_zero : roundEven 0 = 0 := by
  simpa using roundEven_intCast 0

theorem roundEven_mono : Monotone roundEven := by
  intro p q h
  rcases (Int.floor_le_floor h).lt_or_eq with hlt | heq
  · have hle : ⌊p⌋ + 1 ≤ ⌊q⌋ := hlt
    exact (roundEven_le_floor_add_one p).trans (hle.trans (floor_le_roundEven q))
  · unfold roundEven
    rw [heq]
    split_ifs
    all_goals first | omega | (exfalso; linarith)

/-- No integer is nearer. -/
theorem abs_roundEven_sub_le (q : ℚ) : |(roundEven q : ℚ) - q| ≤ 1 / 2 := by
  have hlo := Int.floor_le q
  have hhi := Int.lt_floor_add_one q
  unfold roundEven
  rw [abs_le]
  split_ifs with h₁ h₂
  · constructor <;> linarith
  · push_cast
    constructor <;> linarith
  · have hmod : (0 : ℚ) ≤ (⌊q⌋ % 2 : ℤ) ∧ ((⌊q⌋ % 2 : ℤ) : ℚ) ≤ 1 :=
      ⟨by exact_mod_cast Int.emod_nonneg _ (by decide),
        by exact_mod_cast Int.lt_add_one_iff.mp (Int.emod_lt_of_pos _ (by decide))⟩
    push_cast at hmod ⊢
    constructor <;> linarith

/-- The exponent of the unit of a magnitude. -/
def unitExponent (q : ℚ) : ℤ := max (Int.log 2 q - 52) (-1074)

/-- What stands for infinity, just above all finite magnitudes. -/
def overflow : ℚ := 2 ^ (1024 : ℤ)

theorem overflow_pos : 0 < overflow := by unfold overflow; positivity

theorem unitExponent_ge (q : ℚ) : -1074 ≤ unitExponent q := le_max_right _ _

theorem unitExponent_mono {p q : ℚ} (hp : 0 < p) (h : p ≤ q) :
    unitExponent p ≤ unitExponent q := by
  have := Int.log_mono_right (b := 2) hp h
  unfold unitExponent
  omega

/-- A magnitude counts less than `2 ^ 53` units. -/
theorem div_unit_lt {q : ℚ} (hq : 0 ≤ q) : q / 2 ^ unitExponent q < 2 ^ 53 := by
  rw [div_lt_iff₀ (by positivity)]
  rcases hq.eq_or_lt with rfl | hpos
  · positivity
  calc q < 2 ^ (Int.log 2 q + 1) := by exact_mod_cast Int.lt_zpow_succ_log_self (by decide) q
    _ ≤ 2 ^ (53 + unitExponent q) :=
        zpow_le_zpow_right₀ (by norm_num) (by unfold unitExponent; omega)
    _ = 2 ^ 53 * 2 ^ unitExponent q := by rw [zpow_add₀ (by norm_num)]; norm_num

/-- A magnitude above the least unit counts at least `2 ^ 52` units. -/
theorem le_div_unit {q : ℚ} (hq : 0 < q) (hu : -1074 < unitExponent q) :
    2 ^ 52 ≤ q / 2 ^ unitExponent q := by
  rw [le_div_iff₀ (by positivity)]
  have hlog : 52 + unitExponent q = Int.log 2 q := by unfold unitExponent at *; omega
  calc (2 : ℚ) ^ 52 * 2 ^ unitExponent q = 2 ^ (52 + unitExponent q) := by
        rw [zpow_add₀ (by norm_num)]; norm_num
    _ ≤ q := by rw [hlog]; exact_mod_cast Int.zpow_log_le_self (by decide) hq

theorem roundEven_div_unit_le {q : ℚ} (hq : 0 ≤ q) :
    roundEven (q / 2 ^ unitExponent q) ≤ 2 ^ 53 := by
  have h := roundEven_mono (div_unit_lt hq).le
  rwa [show ((2 : ℚ) ^ 53) = ((2 ^ 53 : ℕ) : ℚ) by norm_num, roundEven_natCast] at h

theorem le_roundEven_div_unit {q : ℚ} (hq : 0 < q) (hu : -1074 < unitExponent q) :
    2 ^ 52 ≤ roundEven (q / 2 ^ unitExponent q) := by
  have h := roundEven_mono (le_div_unit hq hu)
  rwa [show ((2 : ℚ) ^ 52) = ((2 ^ 52 : ℕ) : ℚ) by norm_num, roundEven_natCast] at h

/-- The rounded magnitude before it is brought below infinity. -/
def unbounded (q : ℚ) : ℚ := roundEven (q / 2 ^ unitExponent q) * 2 ^ unitExponent q

theorem unbounded_nonneg {q : ℚ} (hq : 0 ≤ q) : 0 ≤ unbounded q := by
  have h : 0 ≤ roundEven (q / 2 ^ unitExponent q) := by
    simpa using roundEven_mono (show (0 : ℚ) ≤ q / 2 ^ unitExponent q by positivity)
  unfold unbounded
  positivity

/-- Where the unit grows, the last multiple of the smaller one is the first of the greater. -/
theorem unbounded_mono {p q : ℚ} (hp : 0 ≤ p) (h : p ≤ q) : unbounded p ≤ unbounded q := by
  rcases hp.eq_or_lt with rfl | hpos
  · simpa [unbounded] using unbounded_nonneg h
  rcases (unitExponent_mono hpos h).eq_or_lt with heq | hlt
  · unfold unbounded
    rw [heq]
    have hdiv : p / 2 ^ unitExponent q ≤ q / 2 ^ unitExponent q := by gcongr
    have := roundEven_mono hdiv
    gcongr
  · have hq : 0 < q := hpos.trans_le h
    have hup : (roundEven (p / 2 ^ unitExponent p) : ℚ) ≤ 2 ^ 53 := by
      exact_mod_cast roundEven_div_unit_le hp
    have hlow : (2 : ℚ) ^ 52 ≤ roundEven (q / 2 ^ unitExponent q) := by
      exact_mod_cast le_roundEven_div_unit hq ((unitExponent_ge p).trans_lt hlt)
    calc unbounded p ≤ 2 ^ 53 * 2 ^ unitExponent p := by unfold unbounded; gcongr
      _ = 2 ^ 52 * 2 ^ (unitExponent p + 1) := by rw [zpow_add₀ (by norm_num)]; ring
      _ ≤ 2 ^ 52 * 2 ^ unitExponent q := by
          gcongr
          · norm_num
          · omega
      _ ≤ unbounded q := by unfold unbounded; gcongr

/-- The exponent of the unit of `m * 2 ^ e` is at most `e` where `m` has 53 bits. -/
theorem unitExponent_le {m : ℕ} {e : ℤ} (hm : m < 2 ^ 53) (he : -1074 ≤ e) (hpos : 0 < m) :
    unitExponent (m * 2 ^ e) ≤ e := by
  have hlt : (m : ℚ) * 2 ^ e < 2 ^ (53 + e) := by
    rw [zpow_add₀ (by norm_num)]
    have : (m : ℚ) < 2 ^ (53 : ℤ) := by exact_mod_cast hm
    gcongr
  have hlog : Int.log 2 ((m : ℚ) * 2 ^ e) < 53 + e := by
    rw [← Int.lt_zpow_iff_log_lt (by decide) (by positivity)]
    exact_mod_cast hlt
  unfold unitExponent
  omega

/-- A number of 53 bits keeps its magnitude. -/
theorem unbounded_of_bits {m : ℕ} {e : ℤ} (hm : m < 2 ^ 53) (he : -1074 ≤ e) :
    unbounded (m * 2 ^ e) = m * 2 ^ e := by
  rcases m.eq_zero_or_pos with rfl | hpos
  · simp [unbounded]
  have hle := unitExponent_le hm he hpos
  have hdiv : (m : ℚ) * 2 ^ e / 2 ^ unitExponent (m * 2 ^ e)
      = ((m * 2 ^ (e - unitExponent (m * 2 ^ e)).toNat : ℕ) : ℚ) := by
    push_cast
    rw [← zpow_natCast, Int.toNat_of_nonneg (by omega), zpow_sub₀ (by norm_num), mul_div_assoc]
  unfold unbounded
  rw [hdiv, roundEven_natCast, Int.cast_natCast, ← hdiv, div_mul_cancel₀ _ (by positivity)]

theorem unbounded_zpow {e : ℤ} (he : -1074 ≤ e) : unbounded (2 ^ e) = 2 ^ e := by
  have h := unbounded_of_bits (m := 1) (e := e) (by norm_num) he
  rwa [Nat.cast_one, one_mul] at h

/-- The rounded value of an exact result. -/
def rounded (q : ℚ) : ℚ :=
  if q < 0 then -min overflow (unbounded (-q)) else min overflow (unbounded q)

@[simp] theorem rounded_zero : rounded 0 = 0 := by
  simp [rounded, unbounded, overflow_pos.le]

theorem rounded_of_nonneg {q : ℚ} (hq : 0 ≤ q) : rounded q = min overflow (unbounded q) :=
  if_neg (not_lt.mpr hq)

/-- The bound on rounding has no effect up to a power of two that is not above it. -/
theorem rounded_eq_unbounded {q : ℚ} {e : ℤ} (hq : 0 ≤ q) (hle : q ≤ 2 ^ e) (hlow : -1074 ≤ e)
    (hhigh : e ≤ 1024) : rounded q = unbounded q := by
  have hmost : unbounded q ≤ overflow := by
    calc unbounded q ≤ unbounded (2 ^ e) := unbounded_mono hq hle
      _ = 2 ^ e := unbounded_zpow hlow
      _ ≤ overflow := zpow_le_zpow_right₀ (by norm_num) hhigh
  rw [rounded_of_nonneg hq, min_eq_right hmost]

/-- Powers of two are not rounded. -/
theorem rounded_zpow {e : ℤ} (hlow : -1074 ≤ e) (hhigh : e ≤ 1024) : rounded (2 ^ e) = 2 ^ e := by
  rw [rounded_eq_unbounded (by positivity) le_rfl hlow hhigh, unbounded_zpow hlow]

@[simp] theorem rounded_neg (q : ℚ) : rounded (-q) = -rounded q := by
  rcases lt_trichotomy q 0 with h | rfl | h
  · rw [rounded, rounded, if_neg (by linarith), if_pos h, neg_neg]
  · simp
  · rw [rounded, rounded, if_pos (by linarith), if_neg (by linarith), neg_neg]

theorem rounded_nonneg {q : ℚ} (hq : 0 ≤ q) : 0 ≤ rounded q := by
  rw [rounded_of_nonneg hq]
  exact le_min overflow_pos.le (unbounded_nonneg hq)

theorem rounded_mono : Monotone rounded := by
  have hpos : ∀ {p q : ℚ}, 0 ≤ p → p ≤ q → rounded p ≤ rounded q := by
    intro p q hp h
    rw [rounded_of_nonneg hp, rounded_of_nonneg (hp.trans h)]
    exact min_le_min_left _ (unbounded_mono hp h)
  intro p q h
  rcases le_total 0 p with hp | hp
  · exact hpos hp h
  rcases le_total 0 q with hq | hq
  · have := rounded_nonneg (show 0 ≤ -p by linarith)
    rw [rounded_neg] at this
    linarith [rounded_nonneg hq]
  · have := hpos (show 0 ≤ -q by linarith) (show -q ≤ -p by linarith)
    rw [rounded_neg, rounded_neg] at this
    linarith

end BattleOdds.Rounding
