import BattleOdds.Draw
import BattleOdds.Proofs.Binary64.Bounds

/-!
# What can be drawn

`Yields d P` says that a draw has a property whatever the generator is; it is composed along the
binds of a drawing computation. A unit draw is a multiple of `2 ^ -53` below one, a scaled draw
stays in its range, and the roll of a force is a number that is not negative, also where the force
is without bound.
-/
namespace BattleOdds

namespace Draw

variable {α β : Type} {P : α → Prop} {Q : β → Prop}

@[simp] theorem times_zero (draw : Draw α) (g : Generator) : times draw 0 g = ([], g) := rfl

theorem times_succ (draw : Draw α) (n : Nat) (g : Generator) :
    times draw (n + 1) g
      = ((draw g).1 :: (times draw n (draw g).2).1, (times draw n (draw g).2).2) := rfl

@[simp] theorem length_times (draw : Draw α) (n : Nat) (g : Generator) :
    (times draw n g).1.length = n := by
  induction n generalizing g with
  | zero => rfl
  | succ n ih => simp [times_succ, ih]

theorem times_map (f : α → β) (draw : Draw α) (n : Nat) (g : Generator) :
    times (f <$> draw) n g = ((times draw n g).1.map f, (times draw n g).2) := by
  induction n generalizing g with
  | zero => rfl
  | succ n ih =>
    rw [times_succ, times_succ]
    exact congrArg (fun rest => (f (draw g).1 :: rest.1, rest.2)) (ih (draw g).2)

/-- Repetitions split anywhere: the later ones go on from the generator the first ones leave. -/
theorem times_add (draw : Draw α) (m n : Nat) (g : Generator) :
    times draw (m + n) g
      = ((times draw m g).1 ++ (times draw n (times draw m g).2).1,
        (times draw n (times draw m g).2).2) := by
  induction m generalizing g with
  | zero =>
    rw [Nat.zero_add]
    rfl
  | succ m ih => rw [Nat.succ_add, times_succ, times_succ, ih, List.cons_append]

/-- A repetition draws from the generator that the ones before it leave. -/
theorem getElem?_times (draw : Draw α) {i n : Nat} (h : i < n) (g : Generator) :
    (times draw n g).1[i]? = some (draw ((fun g => (draw g).2)^[i] g)).1 := by
  induction i generalizing n g with
  | zero =>
    obtain ⟨n, rfl⟩ := Nat.exists_eq_add_of_lt h
    rfl
  | succ i ih =>
    obtain ⟨n, rfl⟩ := Nat.exists_eq_succ_of_ne_zero (Nat.ne_zero_of_lt h)
    rw [times_succ, List.getElem?_cons_succ, ih (Nat.lt_of_succ_lt_succ h),
      Function.iterate_succ_apply]

/-- Whatever the generator is, the drawn value has a property. -/
def Yields (d : Draw α) (P : α → Prop) : Prop := ∀ g, P (d g).1

theorem Yields.pure {a : α} (h : P a) : Yields (Pure.pure a) P := fun _ => h

theorem Yields.bind {d : Draw α} {f : α → Draw β} (hd : Yields d P)
    (hf : ∀ a, P a → Yields (f a) Q) : Yields (d >>= f) Q := by
  intro g
  exact hf (d g).1 (hd g) (d g).2

theorem Yields.map {d : Draw α} {f : α → β} (hd : Yields d P) (hf : ∀ a, P a → Q (f a)) :
    Yields (f <$> d) Q := by
  intro g
  exact hf (d g).1 (hd g)

theorem Yields.mono {P' : α → Prop} {d : Draw α} (hd : Yields d P) (h : ∀ a, P a → P' a) :
    Yields d P' := fun g => h (d g).1 (hd g)

/-- Repetitions draw what one of them may draw. -/
theorem Yields.times {d : Draw α} (hd : Yields d P) (n : Nat) :
    Yields (times d n) fun xs => xs.length = n ∧ ∀ x ∈ xs, P x := by
  induction n with
  | zero => exact .pure ⟨rfl, by simp⟩
  | succ n ih =>
    refine hd.bind fun x hx => ih.bind fun xs hxs => .pure ⟨by simp [hxs.1], ?_⟩
    intro y hy
    rcases List.mem_cons.mp hy with rfl | hy
    · exact hx
    · exact hxs.2 y hy

end Draw

open Binary64 Rounding

/-! ## Unit draws -/

namespace Draw

theorem hasValue_unitStep : HasValue unitStep (2 ^ (-53 : ℤ)) := ⟨by decide, by
  rw [value, show unitStep.significand = 2 ^ 52 by decide,
    show unitStep.exponent = -105 by decide, show unitStep.sign = .positive from rfl, signFactor]
  norm_num⟩

/-- The top 53 bits of a word, in units of `2 ^ -53`. Nothing is rounded. -/
theorem hasValue_unitOfWord (w : UInt64) :
    HasValue (unitOfWord w) ((w >>> 11).toNat * 2 ^ (-53 : ℤ)) := by
  have hbits : (w >>> 11).toNat < 2 ^ 53 := by
    have := w.toNat_lt
    rw [UInt64.toNat_shiftRight, Nat.shiftRight_eq_div_pow]
    exact Nat.div_lt_of_lt_mul (by simpa using this)
  have hwhole : HasValue (ofUInt64 (w >>> 11)) (w >>> 11).toNat := by
    have h := hasValue_ofUInt64 (w >>> 11)
    have hexact := rounded_of_bits (e := 0) hbits (by norm_num) (by norm_num)
    rw [zpow_zero, mul_one] at hexact
    rwa [hexact] at h
  have hfinite : (ofUInt64 (w >>> 11)).isFinite = true := (small_ofUInt64 _).isFinite (by norm_num)
  have h := hasValue_mul hfinite (show unitStep.isFinite = true by decide)
  rw [hwhole.value_eq, hasValue_unitStep.value_eq,
    rounded_of_bits hbits (by norm_num) (by norm_num)] at h
  exact h

/-- A unit draw is at least zero and less than one. -/
theorem small_unitOfWord (w : UInt64) : Small 0 (unitOfWord w) := by
  have h := hasValue_unitOfWord w
  have hbits : ((w >>> 11).toNat : ℚ) ≤ 2 ^ (53 : ℤ) := by
    have := w.toNat_lt
    have hnat : (w >>> 11).toNat ≤ 2 ^ 53 := by
      rw [UInt64.toNat_shiftRight, Nat.shiftRight_eq_div_pow]
      exact (Nat.div_lt_of_lt_mul (by simpa using this)).le
    exact_mod_cast hnat
  refine ⟨h.nonNegative (by positivity), h.atMost ?_⟩
  calc ((w >>> 11).toNat : ℚ) * 2 ^ (-53 : ℤ) ≤ 2 ^ (53 : ℤ) * 2 ^ (-53 : ℤ) :=
        mul_le_mul_of_nonneg_right hbits (by positivity)
    _ = 2 ^ 0 := by norm_num

theorem yields_unit : Yields unit (Small 0) := fun g => small_unitOfWord g.output

/-! ## Scaled draws -/

variable {lo hi u x : Binary64}

/-- A scaled draw stays in its range, wherever that lies, as long as its length does not overflow.
-/
theorem scale_mem_of_isFinite_sub (hlo : lo.isFinite = true) (hhi : hi.isFinite = true)
    (hspanf : (hi - lo).isFinite = true) (hlt : lo < hi) (hu : Small 0 u) :
    lo ≤ scale lo hi u ∧ scale lo hi u < hi := by
  have hln := isNaN_of_isFinite hlo
  have hhn := isNaN_of_isFinite hhi
  have hspan : NonNegative (hi - lo) :=
    (hasValue_sub hhi hlo).nonNegative
      (rounded_nonneg (sub_nonneg.mpr ((lt_iff_value hln hhn).mp hlt).le))
  have hempty : ¬ hi ≤ lo := (not_le_iff_lt hhn hln).mpr hlt
  have hpart := hasValue_mul hspanf (hu.isFinite (by norm_num))
  have hpart₀ : 0 ≤ rounded ((hi - lo).value * u.value) :=
    rounded_nonneg (mul_nonneg hspan.le_value hu.nonNegative.le_value)
  have hpartf : ((hi - lo) * u).isFinite = true := by
    have hle : (hi - lo).value * u.value ≤ (hi - lo).value :=
      mul_le_of_le_one_right hspan.le_value (hu.atMost.value_le.trans_eq (pow_zero 2))
    have h := (isFinite_iff_value hspan.isNumber).mp hspanf
    rw [abs_of_nonneg hspan.le_value] at h
    rw [isFinite_iff_value hpart.isNumber, hpart.value_eq, abs_of_nonneg hpart₀]
    exact ((rounded_mono hle).trans_eq (rounded_value hspan.isNumber)).trans_lt h
  -- The sum may overflow; it is then not below the upper bound.
  have hsum := hasValue_add hlo hpartf
  have hge : lo.value ≤ (lo + (hi - lo) * u).value := by
    calc lo.value = rounded lo.value := (rounded_value hln).symm
      _ ≤ rounded (lo.value + ((hi - lo) * u).value) :=
          rounded_mono (le_add_of_nonneg_right (hpart.value_eq ▸ hpart₀))
      _ = (lo + (hi - lo) * u).value := hsum.value_eq.symm
  rw [scale, if_neg hempty]
  by_cases htop : hi ≤ lo + (hi - lo) * u
  · simp only [if_pos htop]
    exact ⟨le_refl_of_isNaN hln, hlt⟩
  · simp only [if_neg htop]
    exact ⟨(le_iff_value hln hsum.isNumber).mpr hge, (not_le_iff_lt hhn hsum.isNumber).mp htop⟩

/-- From a non-negative figure up to a finite one the length does not overflow. -/
theorem isFinite_distance (hlo : NonNegative lo) (hhi : hi.isFinite = true) (hlt : lo < hi) :
    lo.isFinite = true ∧ (hi - lo).isFinite = true := by
  have hhn := isNaN_of_isFinite hhi
  rw [lt_iff_value hlo.isNumber hhn] at hlt
  have hpos : 0 ≤ hi.value := hlo.le_value.trans hlt.le
  have hover : hi.value < overflow := by
    have h := (isFinite_iff_value hhn).mp hhi
    rwa [abs_of_nonneg hpos] at h
  have hlof : lo.isFinite = true := by
    rw [isFinite_iff_value hlo.isNumber, abs_of_nonneg hlo.le_value]
    exact hlt.trans hover
  have hv := hasValue_sub hhi hlof
  have hnonneg : 0 ≤ (hi - lo).value :=
    hv.value_eq ▸ rounded_nonneg (sub_nonneg.mpr hlt.le)
  have hle : (hi - lo).value ≤ hi.value := by
    calc (hi - lo).value = rounded (hi.value - lo.value) := hv.value_eq
      _ ≤ rounded hi.value := rounded_mono (sub_le_self _ hlo.le_value)
      _ = hi.value := rounded_value hhn
  refine ⟨hlof, ?_⟩
  rw [isFinite_iff_value hv.isNumber, abs_of_nonneg hnonneg]
  exact hle.trans_lt hover

theorem scale_mem (hlo : NonNegative lo) (hhi : hi.isFinite = true) (hlt : lo < hi)
    (hu : Small 0 u) : lo ≤ scale lo hi u ∧ scale lo hi u < hi := by
  obtain ⟨hlof, hspanf⟩ := isFinite_distance hlo hhi hlt
  exact scale_mem_of_isFinite_sub hlof hhi hspanf hlt hu

theorem yields_within (hlo : NonNegative lo) (hhi : hi.isFinite = true) (hlt : lo < hi) :
    Yields (within lo hi) fun x => lo ≤ x ∧ x < hi :=
  yields_unit.map fun _ hu => scale_mem hlo hhi hlt hu

theorem yields_within_factor (hlo : Factor lo) (hhi : Factor hi) (hlt : lo < hi) :
    Yields (within lo hi) Factor :=
  (yields_within hlo.nonNegative hhi.isFinite hlt).mono fun _ h =>
    hlo.of_mem hhi ⟨h.1, le_of_lt h.2⟩

theorem yields_variance : Yields variance Factor :=
  yields_within_factor (.const (by decide)) (.const (by decide)) (by decide)

/-- The roll of a force is a number from zero on. A force without bound rolls itself: two fifths of
it are no less. -/
theorem yields_forceRoll {strength : Binary64} (h : NonNegative strength) :
    Yields (forceRoll strength) NonNegative := by
  have hshare : Factor 0.4 := .const (by decide)
  have hlo : NonNegative (0.4 * strength) := .factor_mul hshare h
  refine yields_unit.map fun u hu => ?_
  by_cases hle : strength ≤ 0.4 * strength
  · rw [scale, if_pos hle]
    exact hlo
  · rw [le_iff_value h.isNumber hlo.isNumber, not_le] at hle
    have hfinite : strength.isFinite = true := by
      cases hf : strength.isFinite with
      | true => rfl
      | false =>
        have hv := hasValue_mul_of_infinite_right hshare.isFinite hshare.value_pos h.isNumber hf
        exact absurd hv.value_eq hle.ne
    have hlt := (lt_iff_value hlo.isNumber h.isNumber).mpr hle
    obtain ⟨hge, -⟩ := scale_mem hlo hfinite hlt hu
    obtain ⟨-, hn⟩ := isNaN_of_le hge
    exact ⟨hn, hlo.le_value.trans ((le_iff_value hlo.isNumber hn).mp hge)⟩

end Draw
end BattleOdds
