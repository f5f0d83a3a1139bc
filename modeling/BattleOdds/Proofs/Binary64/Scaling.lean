import BattleOdds.Proofs.Binary64.Sums

/-!
# Scaling by powers of two

Rounding keeps 53 bits wherever a number lies, so a figure that is scaled by a power of two stays so
scaled through products and quotients, as long as all of them are far from the least units and from
overflow. Differences of figures are: unless they are zero they cannot be much smaller than a figure
they are made of.
-/
namespace BattleOdds

namespace Rounding

/-- What does not exceed a power of two errs by `2 ^ -54` of it at most. -/
theorem abs_rounded_sub_le_of_le {q : ℚ} {n : ℤ} (hq : 0 ≤ q) (hle : q ≤ 2 ^ n) (hlow : -1021 ≤ n)
    (hhigh : n ≤ 1024) : |rounded q - q| ≤ 2 ^ (n - 54) := by
  rcases hle.eq_or_lt with rfl | hlt
  · rw [rounded_zpow (by omega) hhigh, sub_self, abs_zero]
    positivity
  · exact abs_rounded_sub_le hq hlt hlow hhigh

/-- A number that is whole in every unit that 53 of its bits reach. -/
def Dyadic (q : ℚ) : Prop := ∀ e : ℤ, 2 ^ (e + 52) ≤ |q| → ∃ n : ℤ, q = n * 2 ^ e

theorem Dyadic.neg {q : ℚ} (h : Dyadic q) : Dyadic (-q) := by
  intro e he
  rw [abs_neg] at he
  obtain ⟨n, hn⟩ := h e he
  exact ⟨-n, by rw [hn, Int.cast_neg, neg_mul]⟩

/-- A positive sum is not much smaller than its summands: if these are about as great as each other,
they are whole in one unit, and so is the sum. -/
theorem le_add_of_dyadic {p q : ℚ} {k : ℤ} (hp : Dyadic p) (hq : Dyadic q) (hk : 2 ^ k ≤ |q|)
    (hpos : 0 < p + q) : 2 ^ (k - 53) ≤ p + q := by
  rcases lt_or_ge |p| (2 ^ (k - 1)) with hless | hmore
  · have hq₀ : 0 < q := by
      by_contra hneg
      rw [abs_of_nonpos (not_lt.mp hneg)] at hk
      have hle : (2 : ℚ) ^ (k - 1) ≤ 2 ^ k := zpow_le_zpow_right₀ (by norm_num) (by omega)
      linarith [le_abs_self p]
    rw [abs_of_pos hq₀] at hk
    have hhalf : (2 : ℚ) ^ k = 2 ^ (k - 1) + 2 ^ (k - 1) := by
      rw [zpow_sub_one₀ (by norm_num)]
      ring
    calc (2 : ℚ) ^ (k - 53) ≤ 2 ^ (k - 1) := zpow_le_zpow_right₀ (by norm_num) (by omega)
      _ ≤ p + q := by linarith [neg_abs_le p]
  · have hunit : k - 53 + 52 = k - 1 := by ring
    obtain ⟨m, hm⟩ := hp (k - 53) (by rwa [hunit])
    obtain ⟨n, hn⟩ := hq (k - 53) (by
      rw [hunit]
      exact le_trans (zpow_le_zpow_right₀ (by norm_num) (by omega)) hk)
    have hsum : p + q = (m + n : ℤ) * 2 ^ (k - 53) := by
      rw [hm, hn, Int.cast_add, add_mul]
    rw [hsum] at hpos ⊢
    have hwhole : 0 < m + n := by
      exact_mod_cast (mul_pos_iff_of_pos_right (by positivity)).mp hpos
    exact le_mul_of_one_le_left (by positivity) (by exact_mod_cast hwhole)

end Rounding

namespace Binary64
open Rounding

variable {x y c : Binary64} {j k n : ℕ}

theorem dyadic_value (x : Binary64) : Dyadic x.value := by
  intro e he
  refine x.exists_value_eq_mul ?_
  have habs : |x.value| = x.significand * 2 ^ x.exponent := by
    have hnonneg : (0 : ℚ) ≤ x.significand * 2 ^ x.exponent := by positivity
    rw [value]
    cases x.sign <;> simp [signFactor, abs_of_nonneg]
  have hsignificand : (x.significand : ℚ) < 2 ^ (53 : ℤ) := by exact_mod_cast x.significand_lt
  have hlt : (2 : ℚ) ^ (e + 52) < 2 ^ (53 + x.exponent) := by
    calc (2 : ℚ) ^ (e + 52) ≤ x.significand * 2 ^ x.exponent := he.trans_eq habs
      _ < 2 ^ (53 : ℤ) * 2 ^ x.exponent := by gcongr
      _ = 2 ^ (53 + x.exponent) := (zpow_add₀ (by norm_num) _ _).symm
  have hexponent := (zpow_lt_zpow_iff_right₀ (by norm_num : (1 : ℚ) < 2)).mp hlt
  omega

/-- A positive value has no sign bit. -/
theorem value_of_pos (hx : 0 < x.value) :
    x.bits.toNat < 2 ^ 63 ∧ x.value = x.significand * 2 ^ x.exponent := by
  have hnonneg : (0 : ℚ) ≤ x.significand * 2 ^ x.exponent := by positivity
  by_cases hsign : x.isNegative = true
  · rw [value, sign, if_pos hsign, signFactor] at hx
    linarith
  · refine ⟨not_le.mp (mt x.isNegative_iff.mpr hsign), ?_⟩
    rw [value, sign, if_neg hsign, signFactor, one_mul]

/-- The significand has 53 bits, all of them unless the exponent is the least one. -/
theorem canonical_significand (x : Binary64) :
    x.significand < 2 ^ 53 ∧ -1074 ≤ x.exponent
      ∧ (2 ^ 52 ≤ x.significand ∨ x.exponent = -1074) := by
  refine ⟨x.significand_lt, ?_, ?_⟩
  · rw [exponent_eq]
    omega
  · by_cases hfield : x.exponentField = 0
    · right
      rw [exponent_eq, hfield]
      rfl
    · exact .inl (le_significand hfield)

/-- A positive value has one word. -/
theorem eq_of_value_eq (hx : 0 < x.value) (h : y.value = x.value) : y = x := by
  obtain ⟨hxbits, hxvalue⟩ := value_of_pos hx
  obtain ⟨hybits, hyvalue⟩ := value_of_pos (h ▸ hx)
  have hcompare := compare_magnitude y.canonical_significand x.canonical_significand
  rw [← hyvalue, ← hxvalue, h, compare_eq_iff_eq.mpr rfl, Ordering.then_eq_eq, compare_eq_iff_eq,
    compare_eq_iff_eq] at hcompare
  obtain ⟨hexponent, hsignificand⟩ := hcompare
  rw [exponent_eq, exponent_eq] at hexponent
  unfold significand at hsignificand
  have hxf := x.fraction_lt
  have hyf := y.fraction_lt
  have hfields : y.exponentField = x.exponentField ∧ y.fraction = x.fraction := by
    split at hsignificand <;> split at hsignificand <;> omega
  rw [exponentField_eq, exponentField_eq, fraction_eq, fraction_eq] at hfields
  have hbits : y.bits.toNat = x.bits.toNat := by omega
  cases x
  cases y
  exact congrArg Binary64.mk (UInt64.toNat_inj.mp hbits)

/-! ## Figures away from both ends -/

/-- A number between two powers of two. -/
structure Within (n : ℕ) (x : Binary64) : Prop where
  isNumber : x.isNaN = false
  le_value : 2 ^ (-n : ℤ) ≤ x.value
  value_le : x.value ≤ 2 ^ n

namespace Within

variable (h : Within n x)
include h

theorem value_pos : 0 < x.value := lt_of_lt_of_le (by positivity) h.le_value

theorem nonNegative : NonNegative x := ⟨h.isNumber, h.value_pos.le⟩

theorem small : Small n x := ⟨h.nonNegative, h.isNumber, h.value_le⟩

theorem isFinite (hn : n < 1024) : x.isFinite = true := h.small.isFinite hn

theorem zero_mul (hn : n < 1024) : 0.0 * x = 0.0 :=
  zero_mul_of_pos (h.isFinite hn) h.value_pos

theorem max_zero : x.max 0.0 = x := max_zero_of_pos h.value_pos h.isNumber

end Within

/-- Rounding keeps a number between powers of two. -/
theorem HasValue.within {q : ℚ} (h : HasValue x (rounded q)) (hlow : 2 ^ (-n : ℤ) ≤ q)
    (hhigh : q ≤ 2 ^ n) (hn : n ≤ 971) : Within n x where
  isNumber := h.isNumber
  le_value := by
    rw [h.value_eq, ← rounded_zpow (e := -n) (by omega) (by omega)]
    exact rounded_mono hlow
  value_le := by
    rw [h.value_eq, ← rounded_two_pow (n := n) (by omega)]
    exact rounded_mono hhigh

/-- A factor that is not tiny either, such as all constants of a trial are. -/
structure Mild (c : Binary64) : Prop extends Factor c where
  le_value : 2 ^ (-12 : ℤ) ≤ c.value

theorem Mild.within (h : Mild c) : Within 12 c :=
  ⟨isNaN_of_isFinite h.isFinite, h.le_value, h.value_le.trans (by norm_num)⟩

/-- Comparing words decides whether a constant is mild. -/
theorem Mild.const (h : 0.000244140625 ≤ c ∧ c ≤ 64.0) : Mild c := by
  have hlow : HasValue 0.000244140625 (2 ^ (-12 : ℤ)) :=
    hasValue_of_fields (n := 2 ^ 52) (e := -64) rfl (by decide) (by norm_num)
  have hle := value_le_of_le h.1
  rw [hlow.value_eq] at hle
  refine ⟨.const ⟨?_, h.2⟩, hle⟩
  rw [lt_iff_value hasValue_zero.isNumber (isNaN_of_le h.1).2, hasValue_zero.value_eq]
  exact lt_of_lt_of_le (by positivity) hle

theorem Mild.of_mem {lo hi : Binary64} (hlo : Mild lo) (hhi : Mild hi) (h : lo ≤ c ∧ c ≤ hi) :
    Mild c :=
  ⟨hlo.toFactor.of_mem hhi.toFactor h, hlo.le_value.trans (value_le_of_le h.1)⟩

section Exact

variable {p q : ℚ} (hp : 2 ^ (-n : ℤ) ≤ p ∧ p ≤ 2 ^ n) (hq : 2 ^ (-k : ℤ) ≤ q ∧ q ≤ 2 ^ k)
include hp hq

theorem mul_mem_zpow : 2 ^ (-(n + k : ℕ) : ℤ) ≤ p * q ∧ p * q ≤ 2 ^ (n + k) := by
  have hp₀ : 0 < p := lt_of_lt_of_le (by positivity) hp.1
  have hq₀ : 0 < q := lt_of_lt_of_le (by positivity) hq.1
  rw [Nat.cast_add, neg_add, zpow_add₀ (by norm_num), pow_add]
  exact ⟨mul_le_mul hp.1 hq.1 (by positivity) hp₀.le, mul_le_mul hp.2 hq.2 hq₀.le (by positivity)⟩

theorem div_mem_zpow : 2 ^ (-(n + k : ℕ) : ℤ) ≤ p / q ∧ p / q ≤ 2 ^ (n + k) := by
  have hq₀ : 0 < q := lt_of_lt_of_le (by positivity) hq.1
  have hinv : 2 ^ (-k : ℤ) ≤ q⁻¹ ∧ q⁻¹ ≤ 2 ^ k := by
    constructor
    · rw [zpow_neg, zpow_natCast]
      exact inv_anti₀ hq₀ hq.2
    · have h := inv_anti₀ (by positivity) hq.1
      rwa [zpow_neg, inv_inv, zpow_natCast] at h
  rw [div_eq_mul_inv]
  exact mul_mem_zpow hp hinv

end Exact

theorem Within.mul (hx : Within n x) (hc : Within k c) (h : n + k ≤ 971) :
    Within (n + k) (x * c) := by
  obtain ⟨hlow, hhigh⟩ := mul_mem_zpow ⟨hx.le_value, hx.value_le⟩ ⟨hc.le_value, hc.value_le⟩
  exact (hasValue_mul (hx.isFinite (by omega)) (hc.isFinite (by omega))).within hlow hhigh h

/-! ## Scaled figures -/

/-- A figure and its multiple by a power of two. -/
structure Scaled (j n : ℕ) (x y : Binary64) : Prop where
  within : Within n x
  hasValue : HasValue y (2 ^ j * x.value)

namespace Scaled

variable (h : Scaled j n x y)
include h

theorem isFinite (hj : n + j < 1024) : y.isFinite = true := by
  have hpos := h.within.value_pos
  refine (h.hasValue.nonNegative (by positivity)).isFinite (h.hasValue.atMost (n := n + j) ?_) hj
  rw [pow_add, mul_comm]
  exact mul_le_mul_of_nonneg_right h.within.value_le (by positivity)

theorem mul (hc : Within k c) (hj : n + k + j ≤ 971) :
    Scaled j (n + k) (x * c) (y * c) where
  within := h.within.mul hc (by omega)
  hasValue := by
    obtain ⟨hlow, hhigh⟩ :=
      mul_mem_zpow ⟨h.within.le_value, h.within.value_le⟩ ⟨hc.le_value, hc.value_le⟩
    have hproduct := hasValue_mul (h.isFinite (by omega)) (hc.isFinite (by omega))
    rw [h.hasValue.value_eq, mul_assoc, rounded_two_pow_mul hlow hhigh hj] at hproduct
    rwa [(hasValue_mul (h.within.isFinite (by omega)) (hc.isFinite (by omega))).value_eq]

theorem mul_left (hc : Within k c) (hj : n + k + j ≤ 971) :
    Scaled j (n + k) (c * x) (c * y) where
  within := by
    rw [Nat.add_comm]
    exact hc.mul h.within (by omega)
  hasValue := by
    have hx := hasValue_mul (hc.isFinite (by omega)) (h.within.isFinite (by omega))
    have hy := hasValue_mul (hc.isFinite (by omega)) (h.isFinite (by omega))
    have hswap := (h.mul hc hj).hasValue.value_eq
    rw [(hasValue_mul (h.isFinite (by omega)) (hc.isFinite (by omega))).value_eq,
      (hasValue_mul (h.within.isFinite (by omega)) (hc.isFinite (by omega))).value_eq,
      mul_comm y.value, mul_comm x.value, ← hx.value_eq, ← hy.value_eq] at hswap
    exact ⟨hy.isNumber, hswap⟩

theorem div (hc : Within k c) (hj : n + k + j ≤ 971) :
    Scaled j (n + k) (x / c) (y / c) := by
  obtain ⟨hlow, hhigh⟩ :=
    div_mem_zpow ⟨h.within.le_value, h.within.value_le⟩ ⟨hc.le_value, hc.value_le⟩
  have hx := hasValue_div (h.within.isFinite (by omega)) (hc.isFinite (by omega)) hc.value_pos.ne'
  have hy := hasValue_div (h.isFinite (by omega)) (hc.isFinite (by omega)) hc.value_pos.ne'
  rw [h.hasValue.value_eq, mul_div_assoc, rounded_two_pow_mul hlow hhigh hj] at hy
  exact ⟨hx.within hlow hhigh (by omega), by rwa [hx.value_eq]⟩

end Scaled

/-- A figure is a multiple of another, and its computed product too: nothing is rounded. -/
structure Multiple (c x y : Binary64) : Prop where
  eq : y = x * c
  exact : y.value = x.value * c.value

theorem Multiple.zero (hc : Factor c) : Multiple c 0.0 0.0 where
  eq := (zero_mul_factor hc).symm
  exact := by rw [hasValue_zero.value_eq, zero_mul]

/-- A factor that is a power of two. -/
def PowerOfTwo (c : Binary64) : Prop := ∃ j ≤ 6, HasValue c (2 ^ j)

theorem PowerOfTwo.factor (h : PowerOfTwo c) : Factor c := by
  obtain ⟨j, hj, hc⟩ := h
  have hle : (2 : ℚ) ^ j ≤ 2 ^ 6 := pow_le_pow_right₀ (by norm_num) hj
  refine ⟨(hc.nonNegative (by positivity)).isFinite (hc.atMost hle), ?_, hc.value_eq.trans_le hle⟩
  rw [hc.value_eq]
  positivity

theorem hasValue_two : HasValue 2.0 (2 ^ 1) :=
  hasValue_of_fields (n := 2 ^ 52) (e := -51) rfl (by decide) (by norm_num)

theorem hasValue_four : HasValue 4.0 (2 ^ 2) :=
  hasValue_of_fields (n := 2 ^ 52) (e := -50) rfl (by decide) (by norm_num)

theorem hasValue_quarter : HasValue 0.25 (2 ^ (-2 : ℤ)) :=
  hasValue_of_fields (n := 2 ^ 52) (e := -54) rfl (by decide) (by norm_num)

theorem powerOfTwo_two : PowerOfTwo 2.0 := ⟨1, by norm_num, hasValue_two⟩

theorem powerOfTwo_four : PowerOfTwo 4.0 := ⟨2, by norm_num, hasValue_four⟩

theorem multiple_two_half : Multiple 2.0 0.5 1.0 where
  eq := by decide
  exact := by
    rw [hasValue_one.value_eq, hasValue_half.value_eq, hasValue_two.value_eq]
    norm_num

theorem multiple_four_quarter : Multiple 4.0 0.25 1.0 where
  eq := by decide
  exact := by
    rw [hasValue_one.value_eq, hasValue_quarter.value_eq, hasValue_four.value_eq]
    norm_num

theorem Scaled.multiple (h : Scaled j n x y) (hc : HasValue c (2 ^ j)) (hj : n + j ≤ 971) :
    Multiple c x y := by
  have hpos := h.within.value_pos
  have hcf : c.isFinite = true :=
    (hc.nonNegative (by positivity)).isFinite (hc.atMost (n := j) le_rfl) (by omega)
  have hproduct := hasValue_mul (h.within.isFinite (by omega)) hcf
  rw [hc.value_eq, mul_comm, rounded_two_pow_mul h.within.le_value h.within.value_le hj,
    rounded_value h.within.isNumber] at hproduct
  refine ⟨eq_of_value_eq ?_ ?_, ?_⟩
  · rw [hproduct.value_eq]
    positivity
  · rw [h.hasValue.value_eq, hproduct.value_eq]
  · rw [h.hasValue.value_eq, hc.value_eq, mul_comm]

/-- What keeps scaled figures scaled keeps multiples by a power of two. -/
theorem Multiple.map (h : Multiple c x y) (hc : PowerOfTwo c) (hx : Within n x)
    {f : Binary64 → Binary64} (hf : ∀ j ≤ 6, Scaled j n x y → Scaled j k (f x) (f y))
    (hk : k + 6 ≤ 971) : Multiple c (f x) (f y) := by
  have hproduct := h.eq ▸ hx.nonNegative.mul hc.factor
  obtain ⟨j, hj, hvalue⟩ := hc
  have hscaled : Scaled j n x y :=
    ⟨hx, hproduct.isNumber, by rw [h.exact, hvalue.value_eq, mul_comm]⟩
  exact (hf j hj hscaled).multiple hvalue (by omega)

/-- A zero or a figure away from both ends. -/
def Sparse (n : ℕ) (x : Binary64) : Prop := x = 0.0 ∨ Within n x

theorem Sparse.mul (h : Sparse n x) (hc : Within k c) (hn : n + k ≤ 971) :
    Sparse (n + k) (x * c) := by
  rcases h with rfl | h
  · exact .inl (hc.zero_mul (by omega))
  · exact .inr (h.mul hc hn)

theorem Multiple.mul_left {d : Binary64} (h : Multiple c x y) (hc : PowerOfTwo c)
    (hx : Within n x) (hy : Within n y) (hd : Sparse k d)
    (hn : n + k + 6 ≤ 971) : Multiple c (d * x) (d * y) := by
  rcases hd with rfl | hd
  · rw [hx.zero_mul (by omega), hy.zero_mul (by omega)]
    exact .zero hc.factor
  · exact h.map (f := (d * ·)) hc hx (fun _ hj h => h.mul_left hd (by omega)) hn

theorem Multiple.div {d : Binary64} (h : Multiple c x y) (hc : PowerOfTwo c) (hx : Sparse n x)
    (hd : Within k d) (hzero : 0.0 / d = 0.0) (hn : n + k + 6 ≤ 971) :
    Multiple c (x / d) (y / d) := by
  rcases hx with rfl | hx
  · rw [h.eq, zero_mul_factor hc.factor, hzero]
    exact .zero hc.factor
  · exact h.map (f := (· / d)) hc hx (fun _ hj h => h.div hd (by omega)) hn

/-! ## Settled figures -/

/-- A number that is not positive, or far from the least units and from overflow. -/
def Settled (n : ℕ) (x : Binary64) : Prop := x ≤ 0.0 ∨ Within n x

theorem Settled.mul (h : Settled n x) (hc : Within k c) (hn : n + k ≤ 971) :
    Settled (n + k) (x * c) :=
  h.imp (mul_le_zero_of_pos · (hc.isFinite (by omega)) hc.value_pos) fun h => h.mul hc hn

theorem Settled.sparse_max_zero (h : Settled n x) : Sparse n (x.max 0.0) :=
  h.imp max_zero_of_le fun (h : Within n x) => h.max_zero.symm ▸ h

/-- It makes no difference whether negative numbers are raised to zero before or after a product. -/
theorem Settled.mul_max_zero (h : Settled n x) (hc : Within k c)
    (hn : n + k ≤ 971) : (x * c).max 0.0 = x.max 0.0 * c := by
  rcases h with h | h
  · rw [max_zero_of_le h, hc.zero_mul (by omega)]
    exact max_zero_of_le (mul_le_zero_of_pos h (hc.isFinite (by omega)) hc.value_pos)
  · rw [h.max_zero, (h.mul hc hn).max_zero]

theorem settled_ofUInt64 (m : UInt64) : Settled 64 (ofUInt64 m) := by
  have h := hasValue_ofUInt64 m
  rcases Nat.eq_zero_or_pos m.toNat with hzero | hpos
  · left
    rw [hzero, Nat.cast_zero, rounded_zero] at h
    exact h.le hasValue_zero le_rfl
  · right
    have hone : (1 : ℚ) ≤ m.toNat := by exact_mod_cast hpos
    have hlow : (2 : ℚ) ^ (-64 : ℤ) ≤ m.toNat := le_trans (by norm_num) hone
    have hhigh : (m.toNat : ℚ) ≤ 2 ^ 64 := by exact_mod_cast m.toNat_lt.le
    exact h.within hlow hhigh (by norm_num)

/-- Of a sum that is positive one summand is, and the sum is not much smaller. -/
theorem le_add_of_settled (hx : Settled n x) (hy : Settled n y) (hpos : 0 < x.value + y.value) :
    2 ^ (-(n + 53 : ℕ) : ℤ) ≤ x.value + y.value := by
  have hexponent : (-(n + 53 : ℕ) : ℤ) = -n - 53 := by
    push_cast
    ring
  have habs {z : Binary64} (hz : Within n z) : (2 : ℚ) ^ (-n : ℤ) ≤ |z.value| :=
    hz.le_value.trans (le_abs_self _)
  rw [hexponent]
  rcases hy with hy | hy
  · have hx : Within n x := hx.resolve_left fun hx => by
      have hx₀ := (le_zero_iff (isNaN_of_le hx).1).mp hx
      have hy₀ := (le_zero_iff (isNaN_of_le hy).1).mp hy
      linarith
    rw [add_comm] at hpos ⊢
    exact le_add_of_dyadic y.dyadic_value x.dyadic_value (habs hx) hpos
  · exact le_add_of_dyadic x.dyadic_value y.dyadic_value (habs hy) hpos

theorem Settled.atMost (h : Settled n x) : AtMost n x := by
  rcases h with h | h
  · have hx := (isNaN_of_le h).1
    exact ⟨hx, ((le_zero_iff hx).mp h).trans (by positivity)⟩
  · exact ⟨h.isNumber, h.value_le⟩

theorem Settled.add (hx : Settled n x) (hy : Settled n y) (hf : y.isFinite = true)
    (hn : n + 53 ≤ 971) : Settled (n + 53) (x + y) := by
  cases hfx : x.isFinite with
  | false =>
    have hx₀ := hx.atMost.value_of_infinite (by omega) hfx
    exact .inl ((hasValue_add_of_infinite hx.atMost.isNumber hfx hf).le hasValue_zero hx₀)
  | true =>
    have hsum := hasValue_add hfx hf
    rcases le_or_gt (x.value + y.value) 0 with hneg | hpos
    · exact .inl (hsum.le hasValue_zero ((rounded_mono hneg).trans_eq rounded_zero))
    · have hhigh : x.value + y.value ≤ 2 ^ (n + 53) := by
        calc x.value + y.value ≤ 2 ^ n + 2 ^ n := add_le_add hx.atMost.value_le hy.atMost.value_le
          _ = 2 ^ (n + 1) := by ring
          _ ≤ 2 ^ (n + 53) := pow_le_pow_right₀ (by norm_num) (by omega)
      exact .inr (hsum.within (le_add_of_settled hx hy hpos) hhigh hn)

/-- What is left when a number from zero on is taken away. -/
theorem Settled.sub (hx : Settled n x) (hf : x.isFinite = true) (hy : NonNegative y)
    (hn : n + 53 ≤ 971) : Settled (n + 53) (x - y) := by
  cases hfy : y.isFinite with
  | false =>
    have hinfinite := hasValue_sub_of_infinite hf hy.isNumber hfy
    exact .inl (hinfinite.le hasValue_zero (neg_nonpos.mpr hy.le_value))
  | true =>
    have hdiff := hasValue_sub hf hfy
    rcases le_or_gt (x.value - y.value) 0 with hneg | hpos
    · exact .inl (hdiff.le hasValue_zero ((rounded_mono hneg).trans_eq rounded_zero))
    · have hx₀ : 0 < x.value := hy.le_value.trans_lt (sub_pos.mp hpos)
      have hx : Within n x := hx.resolve_left fun hx =>
        hx₀.not_ge ((le_zero_iff (isNaN_of_le hx).1).mp hx)
      have hexponent : (-(n + 53 : ℕ) : ℤ) = -n - 53 := by
        push_cast
        ring
      have hlow : 2 ^ (-(n + 53 : ℕ) : ℤ) ≤ x.value - y.value := by
        rw [sub_eq_neg_add] at hpos ⊢
        rw [hexponent]
        exact le_add_of_dyadic y.dyadic_value.neg x.dyadic_value
          (hx.le_value.trans (le_abs_self _)) hpos
      have hhigh : x.value - y.value ≤ 2 ^ (n + 53) := by
        calc x.value - y.value ≤ x.value := sub_le_self _ hy.le_value
          _ ≤ 2 ^ n := hx.value_le
          _ ≤ 2 ^ (n + 53) := pow_le_pow_right₀ (by norm_num) (by omega)
      exact .inr (hdiff.within hlow hhigh hn)

end Binary64
end BattleOdds
