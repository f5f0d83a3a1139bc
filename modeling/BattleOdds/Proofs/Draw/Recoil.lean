import BattleOdds.Proofs.Binary64.Interpolation
import BattleOdds.Proofs.Binary64.Scaling
import BattleOdds.Proofs.Draw.Range

/-!
# Rolls that recoil

The roll of a force adds a part of its upper three fifths to its lower two. What is added up may be
rounded up to the whole of the force, which is out of range: the roll then recoils to two fifths.
Apart from that a greater force never rolls less for the same draw. The rounding of the two fifths
does not upset this, since two figures are farther apart than their two fifths are moved.
-/
namespace BattleOdds

namespace Binary64
open Rounding

variable {x y c : Binary64} {m : ℤ}

theorem exists_two_pow_mem {q : ℚ} (hq : 0 < q) : ∃ m : ℤ, 2 ^ (m - 1) < q ∧ q ≤ 2 ^ m := by
  refine ⟨Int.clog 2 q, ?_, ?_⟩
  · exact_mod_cast Int.zpow_pred_clog_lt_self (by norm_num) hq
  · exact_mod_cast Int.self_le_zpow_clog (by norm_num) q

/-- Below a figure the next one is as far away as the unit of the figure, or farther. -/
theorem two_pow_le_sub (hx : 0 ≤ x.value) (h : x.value < y.value) (hy : 2 ^ (m - 1) < y.value) :
    2 ^ (m - 53) ≤ y.value - x.value := by
  have hy₀ : 0 < y.value := lt_of_le_of_lt (by positivity) hy
  have hexponent : m - 53 + 52 = m - 1 := by ring
  obtain ⟨a, ha⟩ := y.dyadic_value (m - 53) (by rw [hexponent, abs_of_pos hy₀]; exact hy.le)
  have hunit : (0 : ℚ) < 2 ^ (m - 53) := by positivity
  have hsplit : (2 : ℚ) ^ (m - 1) = (2 ^ 52 : ℤ) * 2 ^ (m - 53) := by
    rw [← hexponent, zpow_add₀ (by norm_num), mul_comm]
    norm_num
  rcases lt_or_ge x.value (2 ^ (m - 1)) with hless | hmore
  · rw [ha, hsplit, mul_lt_mul_iff_left₀ hunit] at hy
    have hnext : (2 ^ 52 + 1 : ℤ) ≤ a := by exact_mod_cast hy
    have hvalue : ((2 ^ 52 + 1 : ℤ) : ℚ) * 2 ^ (m - 53) ≤ y.value := by
      rw [ha]
      exact mul_le_mul_of_nonneg_right (by exact_mod_cast hnext) hunit.le
    push_cast at hvalue hsplit
    linarith
  · obtain ⟨b, hb⟩ := x.dyadic_value (m - 53) (by rwa [hexponent, abs_of_nonneg hx])
    rw [ha, hb, mul_lt_mul_iff_left₀ hunit] at h
    have hnext : b + 1 ≤ a := by exact_mod_cast h
    have hvalue : ((b + 1 : ℤ) : ℚ) * 2 ^ (m - 53) ≤ a * 2 ^ (m - 53) :=
      mul_le_mul_of_nonneg_right (by exact_mod_cast hnext) hunit.le
    rw [ha, hb]
    push_cast at hvalue
    linarith

theorem lt_of_two_pow_lt (hf : x.isFinite = true) (h : 2 ^ m < x.value) : m < 1024 := by
  have hx := (isFinite_iff_value (isNaN_of_isFinite hf)).mp hf
  rw [overflow] at hx
  exact (zpow_lt_zpow_iff_right₀ (by norm_num : (1 : ℚ) < 2)).mp
    ((h.trans_le (le_abs_self _)).trans hx)

/-! ## What is left of a figure -/

theorem value_le_half (hhalf : c ≤ 0.5) : c.value ≤ 1 / 2 :=
  (value_le_of_le hhalf).trans_eq hasValue_half.value_eq

theorem mul_sub_le (hhalf : c ≤ 0.5) (h : x.value < y.value) :
    c.value * (y.value - x.value) ≤ 1 / 2 * (y.value - x.value) :=
  mul_le_mul_of_nonneg_right (value_le_half hhalf) (sub_nonneg.mpr h.le)

section Rest

variable (hc : Factor c) (hhalf : c ≤ 0.5) (hx : NonNegative x) (h : x.value < y.value)
variable (hf : y.isFinite = true)
include hc hhalf hx h hf

/-- What the parts of two figures are moved by when they are rounded. -/
theorem abs_mul_sub_le {k : ℤ} (hy : y.value ≤ 2 ^ (k + 1)) (hlow : -1021 ≤ k) (hhigh : k ≤ 1023) :
    |(c * x).value - c.value * x.value| ≤ 2 ^ (k - 54)
      ∧ |(c * y).value - c.value * y.value| ≤ 2 ^ (k - 54) := by
  have hpower : (2 : ℚ) ^ (k + 1) = 2 * 2 ^ k := by rw [zpow_add_one₀ (by norm_num), mul_comm]
  have hpart {z : Binary64} (hz : 0 ≤ z.value) (hzy : z.value ≤ y.value)
      (hzf : z.isFinite = true) :
      |(c * z).value - c.value * z.value| ≤ 2 ^ (k - 54) := by
    have hle : c.value * z.value ≤ 2 ^ k := by
      calc c.value * z.value ≤ 1 / 2 * z.value :=
            mul_le_mul_of_nonneg_right (value_le_half hhalf) hz
        _ ≤ 1 / 2 * (2 * 2 ^ k) := by
            rw [← hpower]
            linarith
        _ = 2 ^ k := by ring
    rw [(hasValue_mul hc.isFinite hzf).value_eq]
    exact abs_rounded_sub_le_of_le (mul_nonneg hc.value_pos.le hz) hle hlow (by omega)
  have hxy : x ≤ y := (le_iff_value hx.isNumber (isNaN_of_isFinite hf)).mpr h.le
  exact ⟨hpart hx.le_value h.le (hx.isFinite_of_le hxy hf),
    hpart (hx.le_value.trans h.le) le_rfl hf⟩

/-- All values are whole in the least unit, and rounding moves no part by more than half of it. -/
theorem value_sub_mul_le_of_least (hy : y.value ≤ 2 ^ (-1021 + 1 : ℤ)) :
    x.value - (c * x).value ≤ y.value - (c * y).value := by
  have hpart := mul_sub_le hhalf h
  obtain ⟨hxp, hyp⟩ := abs_mul_sub_le hc hhalf hx h hf hy le_rfl (by norm_num)
  obtain ⟨a, ha⟩ := exists_value_eq_mul_unit x
  obtain ⟨b, hb⟩ := exists_value_eq_mul_unit y
  obtain ⟨d, hd⟩ := exists_value_eq_mul_unit (c * x)
  obtain ⟨e, he⟩ := exists_value_eq_mul_unit (c * y)
  have hunit : (0 : ℚ) < 2 ^ (-1074 : ℤ) := by positivity
  have hsplit : (2 : ℚ) ^ (-1021 - 54 : ℤ) = 2 ^ (-1074 : ℤ) / 2 := by
    rw [show (-1021 - 54 : ℤ) = -1074 - 1 by norm_num, zpow_sub_one₀ (by norm_num)]
    ring
  have hlt : (c * y).value - (c * x).value < y.value - x.value + 2 ^ (-1074 : ℤ) := by
    rw [hsplit] at hxp hyp
    linarith [(abs_le.mp hxp).1, (abs_le.mp hyp).2]
  rw [ha, hb, hd, he, ← sub_mul, ← sub_mul, ← add_one_mul, mul_lt_mul_iff_left₀ hunit] at hlt
  have hwhole : e - d < b - a + 1 := by exact_mod_cast hlt
  have hle : d + b - e ≥ a := by omega
  have hscaled : (a : ℚ) * 2 ^ (-1074 : ℤ) ≤ (d + b - e : ℤ) * 2 ^ (-1074 : ℤ) :=
    mul_le_mul_of_nonneg_right (by exact_mod_cast hle) hunit.le
  rw [Int.cast_sub, Int.cast_add, sub_mul, add_mul, ← ha, ← hb, ← hd, ← he] at hscaled
  linarith

/-- Two figures are four times as far apart as rounding moves a part of either. -/
theorem value_sub_mul_le_of_unit {m : ℤ} (hless : 2 ^ (m - 1) < y.value) (hmost : y.value ≤ 2 ^ m)
    (hm : -1020 ≤ m) : x.value - (c * x).value ≤ y.value - (c * y).value := by
  have hpart := mul_sub_le hhalf h
  have hover : m - 1 < 1024 := lt_of_two_pow_lt hf hless
  obtain ⟨hxp, hyp⟩ := abs_mul_sub_le hc hhalf hx h hf (k := m - 1) (by rwa [sub_add_cancel])
    (by omega) (by omega)
  have hgap := two_pow_le_sub hx.le_value h hless
  have hsplit : (2 : ℚ) ^ (m - 53) = 4 * 2 ^ (m - 1 - 54) := by
    rw [show m - 53 = m - 1 - 54 + 2 by ring, zpow_add₀ (by norm_num)]
    norm_num
    ring
  linarith [(abs_le.mp hxp).1, (abs_le.mp hyp).2]

end Rest

/-- Less than half of a figure, though it is rounded, leaves more of a greater figure. -/
theorem value_sub_mul_le (hc : Factor c) (hhalf : c ≤ 0.5) (hx : NonNegative x) (h : x ≤ y)
    (hf : y.isFinite = true) : x.value - (c * x).value ≤ y.value - (c * y).value := by
  have hxf := hx.isFinite_of_le h hf
  rcases (value_le_of_le h).eq_or_lt with heq | hlt
  · rw [(hasValue_mul hc.isFinite hxf).value_eq, (hasValue_mul hc.isFinite hf).value_eq, heq]
  · obtain ⟨m, hless, hmost⟩ := exists_two_pow_mem (hx.le_value.trans_lt hlt)
    rcases lt_or_ge m (-1020) with hm | hm
    · have hleast : y.value ≤ 2 ^ (-1021 + 1 : ℤ) :=
        hmost.trans (zpow_le_zpow_right₀ (by norm_num) (by omega))
      exact value_sub_mul_le_of_least hc hhalf hx hlt hf hleast
    · exact value_sub_mul_le_of_unit hc hhalf hx hlt hf hless hmost hm

end Binary64

namespace Draw
open Binary64 Rounding

variable {x y u : Binary64} {m : ℤ}

/-! ## Rolls -/

/-- The roll of a force for a unit draw. -/
def roll (strength unit : Binary64) : Binary64 := scale (0.4 * strength) strength unit

/-- What the roll of a force is made of before it recoils. -/
def reach (strength unit : Binary64) : Binary64 :=
  0.4 * strength + (strength - 0.4 * strength) * unit

/-- The roll of a force is rounded up to the whole of it and recoils to two fifths. -/
def Recoils (strength unit : Binary64) : Prop :=
  0.4 * strength < strength ∧ strength ≤ reach strength unit

instance (strength unit : Binary64) : Decidable (Recoils strength unit) :=
  inferInstanceAs (Decidable (_ ∧ _))

/-- A force recoils where a lesser force does not, of which there is any. -/
def RecoilsAlone (lesser greater unit : Binary64) : Prop :=
  Recoils greater unit ∧ 0.0 < lesser ∧ ¬ Recoils lesser unit

instance (lesser greater unit : Binary64) : Decidable (RecoilsAlone lesser greater unit) :=
  inferInstanceAs (Decidable (_ ∧ _))

theorem roll_of_recoils (h : Recoils x u) : roll x u = 0.4 * x := by
  obtain ⟨hfloor, hx⟩ := isNaN_of_lt h.1
  exact (if_neg ((not_le_iff_lt hx hfloor).mpr h.1)).trans (if_pos h.2)

theorem roll_of_not_recoils (hlt : 0.4 * x < x) (h : ¬ Recoils x u) : roll x u = reach x u := by
  obtain ⟨hfloor, hx⟩ := isNaN_of_lt hlt
  exact (if_neg ((not_le_iff_lt hx hfloor).mpr hlt)).trans (if_neg fun htop => h ⟨hlt, htop⟩)

theorem factor_rollFloor : Factor 0.4 := .const (by decide)

theorem rollFloor_le_half : (0.4 : Binary64) ≤ 0.5 := by decide

section Roll

variable (hx : NonNegative x) (hf : x.isFinite = true)
include hx hf

theorem rollFloor_le : 0.4 * x ≤ x := factor_mul_le factor_rollFloor (by decide) hx hf

theorem isFinite_rollFloor : (0.4 * x).isFinite = true :=
  (hx.factor_mul factor_rollFloor).isFinite_of_le (rollFloor_le hx hf) hf

/-- The range of a roll has a length, which is no longer than the force. -/
theorem under_range : Under (x - 0.4 * x) x := by
  have hdiff := hasValue_sub hf (isFinite_rollFloor hx hf)
  have hfloor := value_le_of_le (rollFloor_le hx hf)
  have hnonneg := (hx.factor_mul factor_rollFloor).le_value
  refine ⟨hdiff.nonNegative (rounded_nonneg (sub_nonneg.mpr hfloor)), ?_⟩
  refine hdiff.le ⟨hx.isNumber, rfl⟩ ?_
  exact (rounded_mono (sub_le_self _ hnonneg)).trans_eq (rounded_value hx.isNumber)

variable (hu : Small 0 u)
include hu

/-- A unit draw takes a part of the length. -/
theorem under_part : Under ((x - 0.4 * x) * u) (x - 0.4 * x) := by
  have hrange := under_range hx hf
  have hspan := hrange.nonNegative.isFinite_of_le hrange.le hf
  have hunit : u.isFinite = true := hu.isFinite (by norm_num)
  have hle : (x - 0.4 * x).value * u.value ≤ (x - 0.4 * x).value :=
    mul_le_of_le_one_right hrange.nonNegative.le_value (hu.atMost.value_le.trans_eq (pow_zero 2))
  refine ⟨hrange.nonNegative.mul_of_isFinite hspan hu.nonNegative hunit, ?_⟩
  exact (hasValue_mul hspan hunit).le ⟨hrange.nonNegative.isNumber, rfl⟩
    ((rounded_mono hle).trans_eq (rounded_value hrange.nonNegative.isNumber))

theorem hasValue_reach :
    HasValue (reach x u) (rounded ((0.4 * x).value + ((x - 0.4 * x) * u).value)) := by
  have hpart := (under_part hx hf hu).trans (under_range hx hf)
  exact hasValue_add (isFinite_rollFloor hx hf) (hpart.nonNegative.isFinite_of_le hpart.le hf)

theorem rollFloor_le_reach : 0.4 * x ≤ reach x u := by
  have hnumber := isNaN_of_isFinite (isFinite_rollFloor hx hf)
  refine HasValue.le ⟨hnumber, rfl⟩ (hasValue_reach hx hf hu) ?_
  exact (rounded_value hnumber).ge.trans
    (rounded_mono (le_add_of_nonneg_right (under_part hx hf hu).nonNegative.le_value))

/-- A roll is what it is made of, which is then short of the force, or its floor. -/
theorem roll_mem : roll x u ≤ reach x u ∧ roll x u ≤ x ∧ NonNegative (roll x u) := by
  have hfloor := hx.factor_mul factor_rollFloor
  have hreach := rollFloor_le_reach hx hf hu
  have hnumber := (isNaN_of_le hreach).2
  by_cases hrolled : 0.4 * x < x ∧ ¬ Recoils x u
  · obtain ⟨hlt, hrecoils⟩ := hrolled
    have hbelow : ¬ x ≤ reach x u := fun htop => hrecoils ⟨hlt, htop⟩
    rw [roll_of_not_recoils hlt hrecoils]
    exact ⟨le_refl_of_isNaN hnumber, le_of_lt ((not_le_iff_lt hx.isNumber hnumber).mp hbelow),
      hfloor.of_le hreach⟩
  · have hroll : roll x u = 0.4 * x := by
      by_cases hlt : 0.4 * x < x
      · exact roll_of_recoils (not_not.mp fun hrecoils => hrolled ⟨hlt, hrecoils⟩)
      · exact scale_of_not_lt (isFinite_rollFloor hx hf) hf hlt u
    rw [hroll]
    exact ⟨hreach, rollFloor_le hx hf, hfloor⟩

end Roll

theorem under_rollFloor (h : Under x y) (hf : y.isFinite = true) : Under (0.4 * x) (0.4 * y) := by
  have hfx := h.nonNegative.isFinite_of_le h.le hf
  refine ⟨h.nonNegative.factor_mul factor_rollFloor, ?_⟩
  refine (hasValue_mul factor_rollFloor.isFinite hfx).le
    (hasValue_mul factor_rollFloor.isFinite hf) (rounded_mono ?_)
  exact mul_le_mul_of_nonneg_left (value_le_of_le h.le) factor_rollFloor.value_pos.le

/-- Before it recoils the roll of a greater force is greater. -/
theorem under_reach (h : Under x y) (hf : y.isFinite = true) (hu : Small 0 u) :
    Under (reach x u) (reach y u) := by
  have hfx := h.nonNegative.isFinite_of_le h.le hf
  have hrange := under_range h.nonNegative hfx
  have hrange' := under_range h.nonNegative_right hf
  have hlength : Under (x - 0.4 * x) (y - 0.4 * y) := by
    refine ⟨hrange.nonNegative, ?_⟩
    refine (hasValue_sub hfx (isFinite_rollFloor h.nonNegative hfx)).le
      (hasValue_sub hf (isFinite_rollFloor h.nonNegative_right hf)) (rounded_mono ?_)
    exact value_sub_mul_le factor_rollFloor rollFloor_le_half h.nonNegative h.le hf
  have hfinite := hrange'.nonNegative.isFinite_of_le hrange'.le hf
  exact (under_rollFloor h hf).add
    (hlength.mul_of_isFinite hfinite hu.nonNegative (hu.isFinite (by norm_num)))

/-- A greater force rolls no less for the same draw unless it alone recoils. -/
theorem under_roll (h : Under x y) (hf : y.isFinite = true) (hu : Small 0 u)
    (halone : ¬ RecoilsAlone x y u) : Under (roll x u) (roll y u) := by
  have hfx := h.nonNegative.isFinite_of_le h.le hf
  have hfloor := under_rollFloor h hf
  obtain ⟨hreach, hroll, hnonneg⟩ := roll_mem h.nonNegative hfx hu
  refine ⟨hnonneg, ?_⟩
  by_cases hrecoils : Recoils y u
  · rw [roll_of_recoils hrecoils]
    by_cases hboth : Recoils x u
    · rw [roll_of_recoils hboth]
      exact hfloor.le
    · have hzero : x ≤ 0.0 := (not_lt_iff_le hasValue_zero.isNumber h.nonNegative.isNumber).mp
        fun hpos => halone ⟨hrecoils, hpos, hboth⟩
      exact le_of_le_of_le hroll (le_of_le_of_le hzero hfloor.nonNegative_right.zero_le)
  · by_cases hlt : 0.4 * y < y
    · rw [roll_of_not_recoils hlt hrecoils]
      exact le_of_le_of_le hreach (under_reach h hf hu).le
    · have htop : y ≤ 0.4 * y :=
        (not_lt_iff_le hfloor.nonNegative_right.isNumber h.nonNegative_right.isNumber).mp hlt
      have hempty : roll y u = 0.4 * y := if_pos htop
      rw [hempty]
      exact le_of_le_of_le hroll (le_of_le_of_le h.le htop)

/-! ## How rare recoils are -/

section Rare

variable (hx : NonNegative x) (hf : x.isFinite = true) (hmost : x.value ≤ 2 ^ m)
variable (hm : -1021 ≤ m) (hover : m ≤ 1024)

include hm hover in
theorem rounded_le_add {q : ℚ} (hq : 0 ≤ q) (hle : q ≤ 2 ^ m) : rounded q ≤ q + 2 ^ (m - 54) := by
  linarith [(abs_le.mp (abs_rounded_sub_le_of_le hq hle hm hover)).2]

include hx hf hmost hm hover

theorem rollFloor_value_le : (0.4 * x).value ≤ 1 / 2 * x.value + 2 ^ (m - 54) := by
  have hprod := mul_nonneg factor_rollFloor.value_pos.le hx.le_value
  have hle := mul_le_mul_of_nonneg_right (value_le_half rollFloor_le_half) hx.le_value
  rw [(hasValue_mul factor_rollFloor.isFinite hf).value_eq]
  exact (rounded_le_add hm hover hprod (by linarith [hx.le_value])).trans (by gcongr)

theorem range_value_le : (x - 0.4 * x).value ≤ x.value - (0.4 * x).value + 2 ^ (m - 54) := by
  have hnonneg := (hx.factor_mul factor_rollFloor).le_value
  have hfloor := sub_nonneg.mpr (value_le_of_le (rollFloor_le hx hf))
  rw [(hasValue_sub hf (isFinite_rollFloor hx hf)).value_eq]
  exact rounded_le_add hm hover hfloor (by linarith)

variable (hu : Small 0 u)
include hu

theorem part_value_le : ((x - 0.4 * x) * u).value
      ≤ (x.value - (0.4 * x).value + 2 ^ (m - 54)) * u.value + 2 ^ (m - 54) := by
  have hrange := under_range hx hf
  have hunit := hu.nonNegative.le_value
  have hprod : (x - 0.4 * x).value * u.value ≤ (x - 0.4 * x).value :=
    mul_le_of_le_one_right hrange.nonNegative.le_value (hu.atMost.value_le.trans_eq (pow_zero 2))
  have hle := hprod.trans ((value_le_of_le hrange.le).trans hmost)
  have hspan := hrange.nonNegative.isFinite_of_le hrange.le hf
  rw [(hasValue_mul hspan (hu.isFinite (by norm_num))).value_eq]
  calc rounded ((x - 0.4 * x).value * u.value)
    _ ≤ (x - 0.4 * x).value * u.value + 2 ^ (m - 54) :=
        rounded_le_add hm hover (mul_nonneg hrange.nonNegative.le_value hunit) hle
    _ ≤ (x.value - (0.4 * x).value + 2 ^ (m - 54)) * u.value + 2 ^ (m - 54) := by
        gcongr
        exact range_value_le hx hf hmost hm hover

/-- A force that recoils is missed by half a unit of it at most. -/
theorem sub_le_of_recoils (h : Recoils x u) :
    x.value - 2 ^ (m - 54) ≤ (0.4 * x).value + ((x - 0.4 * x) * u).value := by
  have hnonneg := add_nonneg (hx.factor_mul factor_rollFloor).le_value
    (under_part hx hf hu).nonNegative.le_value
  have hreach := value_le_of_le h.2
  rw [(hasValue_reach hx hf hu).value_eq] at hreach
  rcases le_or_gt ((0.4 * x).value + ((x - 0.4 * x) * u).value) (2 ^ m) with hle | hgt
  · exact sub_le_iff_le_add.mpr (hreach.trans (rounded_le_add hm hover hnonneg hle))
  · exact (sub_le_self _ (by positivity)).trans (hmost.trans hgt.le)

end Rare

/-- The range of a roll is some `2 ^ 52` half units long, and less than four of them are lost to
rounding. So a force recoils for the few greatest draws only. -/
theorem lt_value_of_recoils (hx : NonNegative x) (hf : x.isFinite = true)
    (hlow : 2 ^ (-1000 : ℤ) ≤ x.value) (hu : Small 0 u) (h : Recoils x u) :
    1 - 2 ^ (-50 : ℤ) < u.value := by
  obtain ⟨m, hless, hmost⟩ := exists_two_pow_mem (lt_of_lt_of_le (by positivity) hlow)
  have hm : -1000 ≤ m := (zpow_le_zpow_iff_right₀ (by norm_num : (1 : ℚ) < 2)).mp (hlow.trans hmost)
  have hover : m - 1 < 1024 := lt_of_two_pow_lt hf hless
  have hfloor := rollFloor_value_le hx hf hmost (by omega) (by omega)
  have hpart := part_value_le hx hf hmost (by omega) (by omega) hu
  have hmissed := sub_le_of_recoils hx hf hmost (by omega) (by omega) hu h
  have hunit : (2 : ℚ) ^ (m - 1) = 2 ^ 53 * 2 ^ (m - 54) := by
    rw [show m - 1 = 53 + (m - 54) by ring, zpow_add₀ (by norm_num)]
    norm_num
  have hlength : 2 ^ 52 * 2 ^ (m - 54) < x.value - (0.4 * x).value + 2 ^ (m - 54) := by linarith
  have hpos : (0 : ℚ) ≤ 2 ^ 52 * 2 ^ (m - 54) := by positivity
  by_contra hdraw
  have htaken := mul_le_mul_of_nonneg_left (not_lt.mp hdraw) (hpos.trans hlength.le)
  rw [mul_sub, mul_one] at htaken
  have hlost : 4 * 2 ^ (m - 54)
      < (x.value - (0.4 * x).value + 2 ^ (m - 54)) * 2 ^ (-50 : ℤ) := by
    calc (4 : ℚ) * 2 ^ (m - 54)
      _ = 2 ^ 52 * 2 ^ (m - 54) * 2 ^ (-50 : ℤ) := by norm_num; ring
      _ < _ := mul_lt_mul_of_pos_right hlength (by positivity)
  linarith

/-- Of the `2 ^ 53` unit draws the seven greatest may make a force recoil, unless it is next to
nothing. -/
theorem lt_toNat_of_recoils (hx : NonNegative x) (hf : x.isFinite = true)
    (hlow : 2 ^ (-1000 : ℤ) ≤ x.value) {w : UInt64} (h : Recoils x (unitOfWord w)) :
    2 ^ 53 - 8 < w.toNat / 2 ^ 11 := by
  have hdraw := lt_value_of_recoils hx hf hlow (small_unitOfWord w) h
  rw [(hasValue_unitOfWord w).value_eq, Generator.toNat_shiftRight_eleven] at hdraw
  have hcount : (2 : ℚ) ^ 53 < (w.toNat / 2048 : ℕ) + 8 := by
    norm_num at hdraw ⊢
    linarith
  have hunits : 2 ^ 53 < w.toNat / 2048 + 8 := by exact_mod_cast hcount
  omega

end Draw
end BattleOdds
