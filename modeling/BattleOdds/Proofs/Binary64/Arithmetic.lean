import BattleOdds.Proofs.Binary64.DatumArithmetic

/-!
# The values of sums, products and quotients

On finite numbers each operation gives the rounded value of its exact result. On infinities the
result is an infinity again, wherever it is a number at all. A NaN gives a NaN.
-/
namespace BattleOdds.Binary64
open Float.Model Float.Model.UnpackedFloat Rounding

variable {x y : Binary64}

/-- On numbers an operation is the one on data, as long as it gives a number. -/
theorem lift_eq_ofDatum {op : Float → Float → Float}
    {f : UnpackedFloat → UnpackedFloat → UnpackedFloat}
    (hop : ∀ a b, op a b = .ofModel (.pack (f a.toModel.unpack b.toModel.unpack)))
    (hx : x.isNaN = false) (hy : y.isNaN = false)
    (h : (ofDatum (f x.datum y.datum)).isNaN = false) :
    lift op x y = ofDatum (f x.datum y.datum) := by
  have hr : op x.toFloat y.toFloat = .ofModel (.pack (f x.datum y.datum)) := by
    rw [hop, unpack_toFloat, unpack_toFloat]
  have hnan : (op x.toFloat y.toFloat).isNaN = false := by
    rw [hr]
    rw [isNaN_eq_false_iff] at h
    change (ofDatum (f x.datum y.datum)).datum.isNaN = false
    cases hd : (ofDatum (f x.datum y.datum)).datum with
    | notANumber => exact absurd hd h
    | _ => rfl
  unfold lift
  rw [hx, hy]
  simp only [Bool.false_eq_true, if_false, hnan]
  rw [hr]
  rfl

theorem add_eq_ofDatum (hx : x.isNaN = false) (hy : y.isNaN = false)
    (h : (ofDatum (UnpackedFloat.add .binary64 x.datum y.datum)).isNaN = false) :
    x + y = ofDatum (UnpackedFloat.add .binary64 x.datum y.datum) :=
  lift_eq_ofDatum (fun _ _ => rfl) hx hy h

theorem sub_eq_ofDatum (hx : x.isNaN = false) (hy : y.isNaN = false)
    (h : (ofDatum (UnpackedFloat.sub .binary64 x.datum y.datum)).isNaN = false) :
    x - y = ofDatum (UnpackedFloat.sub .binary64 x.datum y.datum) :=
  lift_eq_ofDatum (fun _ _ => rfl) hx hy h

theorem mul_eq_ofDatum (hx : x.isNaN = false) (hy : y.isNaN = false)
    (h : (ofDatum (UnpackedFloat.mul .binary64 x.datum y.datum)).isNaN = false) :
    x * y = ofDatum (UnpackedFloat.mul .binary64 x.datum y.datum) :=
  lift_eq_ofDatum (fun _ _ => rfl) hx hy h

theorem div_eq_ofDatum (hx : x.isNaN = false) (hy : y.isNaN = false)
    (h : (ofDatum (UnpackedFloat.div .binary64 x.datum y.datum)).isNaN = false) :
    x / y = ofDatum (UnpackedFloat.div .binary64 x.datum y.datum) :=
  lift_eq_ofDatum (fun _ _ => rfl) hx hy h

/-! ## Finite operands -/

theorem isFinite_datum (hx : x.isFinite = true) : x.datum.isFinite = true :=
  (isFinite_iff_datum x).mp hx

theorem hasValue_add (hx : x.isFinite = true) (hy : y.isFinite = true) :
    HasValue (x + y) (rounded (x.value + y.value)) := by
  have h := value_add_datum x.canonical_datum y.canonical_datum (isFinite_datum hx)
    (isFinite_datum hy)
  rw [← value_eq_datumValue (isNaN_of_isFinite hx), ← value_eq_datumValue (isNaN_of_isFinite hy)]
    at h
  rwa [add_eq_ofDatum (isNaN_of_isFinite hx) (isNaN_of_isFinite hy) h.isNumber]

theorem hasValue_sub (hx : x.isFinite = true) (hy : y.isFinite = true) :
    HasValue (x - y) (rounded (x.value - y.value)) := by
  have hfin : y.datum.neg.isFinite = true := by
    have := isFinite_datum hy
    cases hd : y.datum <;> simp_all [UnpackedFloat.neg, UnpackedFloat.isFinite]
  have h := value_add_datum x.canonical_datum (canonical_neg y.canonical_datum)
    (isFinite_datum hx) hfin
  rw [datumValue_neg, ← value_eq_datumValue (isNaN_of_isFinite hx),
    ← value_eq_datumValue (isNaN_of_isFinite hy), ← sub_eq_add_neg, ← sub_datum] at h
  rwa [sub_eq_ofDatum (isNaN_of_isFinite hx) (isNaN_of_isFinite hy) h.isNumber]

theorem hasValue_mul (hx : x.isFinite = true) (hy : y.isFinite = true) :
    HasValue (x * y) (rounded (x.value * y.value)) := by
  have h := value_mul_datum x.canonical_datum.1 y.canonical_datum.1 (isFinite_datum hx)
    (isFinite_datum hy)
  rw [← value_eq_datumValue (isNaN_of_isFinite hx), ← value_eq_datumValue (isNaN_of_isFinite hy)]
    at h
  rwa [mul_eq_ofDatum (isNaN_of_isFinite hx) (isNaN_of_isFinite hy) h.isNumber]

theorem hasValue_div (hx : x.isFinite = true) (hy : y.isFinite = true) (hz : y.value ≠ 0) :
    HasValue (x / y) (rounded (x.value / y.value)) := by
  have hy' := value_eq_datumValue (isNaN_of_isFinite hy)
  have h := value_div_datum (isFinite_datum hx) (isFinite_datum hy) (hy' ▸ hz)
  rw [← value_eq_datumValue (isNaN_of_isFinite hx), ← hy'] at h
  rwa [div_eq_ofDatum (isNaN_of_isFinite hx) (isNaN_of_isFinite hy) h.isNumber]

/-- The value of a whole number, rounded. -/
theorem hasValue_ofUInt64 (n : UInt64) : HasValue (ofUInt64 n) (rounded n.toNat) := by
  have h := value_normalize n.toNat 0 .positive
  rw [zpow_zero, mul_one, Int.cast_natCast] at h
  exact h

theorem rounded_value (hx : x.isNaN = false) : rounded x.value = x.value := by
  rw [value_eq_datumValue hx, rounded_datumValue x.canonical_datum]

/-! ## NaN operands -/

theorem isNaN_quiet (h : x.isNaN = true) : x.quiet.isNaN = true := by
  have hmagnitude : x.magnitude.toNat ≤ x.quiet.magnitude.toNat := by
    rw [magnitude, magnitude, quiet, UInt64.toNat_and, UInt64.toNat_and, UInt64.toNat_or,
      Nat.and_or_distrib_right]
    exact Nat.left_le_or
  rw [isNaN, decide_eq_true_iff, UInt64.lt_iff_toNat_lt] at h ⊢
  exact h.trans_le hmagnitude

theorem isNaN_lift {op : Float → Float → Float} (h : x.isNaN = true) :
    (lift op x y).isNaN = true := by
  rw [lift, if_pos h]
  exact isNaN_quiet h

/-! ## Infinite operands -/

/-- A number that is not finite is an infinity. -/
theorem datum_of_not_finite (hx : x.isNaN = false) (hi : x.isFinite = false) :
    ∃ s, x.datum = .infinity s := by
  have hn := (isNaN_eq_false_iff x).mp hx
  have hf : ¬ x.datum.isFinite = true := by
    rw [← isFinite_iff_datum, hi]
    exact Bool.false_ne_true
  cases hd : x.datum with
  | infinity s => exact ⟨s, rfl⟩
  | notANumber => exact absurd hd hn
  | zero s => exact absurd (by rw [hd]; rfl) hf
  | finite s m e h => exact absurd (by rw [hd]; rfl) hf

theorem hasValue_ofDatum_infinity (s : Sign) :
    HasValue (ofDatum (.infinity s)) (signFactor s * overflow) :=
  value_ofDatum ⟨trivial, trivial⟩ UnpackedFloat.noConfusion

/-- An operation that comes to an infinity gives its value. -/
theorem hasValue_of_eq_infinity {z : Binary64} {u : UnpackedFloat} {s : Sign}
    (hz : (ofDatum u).isNaN = false → z = ofDatum u) (hu : u = .infinity s) :
    HasValue z (signFactor s * overflow) := by
  subst hu
  have hv := hasValue_ofDatum_infinity s
  rwa [hz hv.isNumber]

/-- An infinity swallows a finite summand. -/
theorem hasValue_add_of_infinite (hx : x.isNaN = false) (hi : x.isFinite = false)
    (hy : y.isFinite = true) : HasValue (x + y) x.value := by
  obtain ⟨s, hs⟩ := datum_of_not_finite hx hi
  have hadd : UnpackedFloat.add .binary64 x.datum y.datum = .infinity s := by
    have := isFinite_datum hy
    rw [hs]
    cases hd : y.datum <;> simp_all [UnpackedFloat.add, UnpackedFloat.isFinite]
  rw [value_eq_datumValue hx, hs]
  exact hasValue_of_eq_infinity (add_eq_ofDatum hx (isNaN_of_isFinite hy)) hadd

theorem hasValue_add_of_infinite_right (hx : x.isFinite = true) (hy : y.isNaN = false)
    (hi : y.isFinite = false) : HasValue (x + y) y.value := by
  obtain ⟨s, hs⟩ := datum_of_not_finite hy hi
  have hadd : UnpackedFloat.add .binary64 x.datum y.datum = .infinity s := by
    have := isFinite_datum hx
    rw [hs]
    cases hd : x.datum <;> simp_all [UnpackedFloat.add, UnpackedFloat.isFinite]
  rw [value_eq_datumValue hy, hs]
  exact hasValue_of_eq_infinity (add_eq_ofDatum (isNaN_of_isFinite hx) hy) hadd

/-- Two infinities of one sign add up to themselves. -/
theorem hasValue_add_of_infinities (hx : x.isNaN = false) (hi : x.isFinite = false)
    (h : y.datum = x.datum) : HasValue (x + y) x.value := by
  obtain ⟨s, hs⟩ := datum_of_not_finite hx hi
  have hadd : UnpackedFloat.add .binary64 x.datum y.datum = .infinity s := by
    rw [h, hs]
    cases s <;> rfl
  have hy : y.isNaN = false := by
    rw [isNaN_eq_false_iff, h]
    exact (isNaN_eq_false_iff x).mp hx
  rw [value_eq_datumValue hx, hs]
  exact hasValue_of_eq_infinity (add_eq_ofDatum hx hy) hadd

theorem hasValue_sub_of_infinite (hx : x.isFinite = true) (hy : y.isNaN = false)
    (hi : y.isFinite = false) : HasValue (x - y) (-y.value) := by
  obtain ⟨s, hs⟩ := datum_of_not_finite hy hi
  have hsub : UnpackedFloat.sub .binary64 x.datum y.datum = .infinity (-s) := by
    have := isFinite_datum hx
    rw [hs]
    cases hd : x.datum <;> simp_all [UnpackedFloat.sub, UnpackedFloat.isFinite]
  rw [value_eq_datumValue hy, hs]
  have hv := hasValue_of_eq_infinity (sub_eq_ofDatum (isNaN_of_isFinite hx) hy) hsub
  rwa [signFactor_neg, neg_mul] at hv

theorem hasValue_sub_of_infinite_left (hx : x.isNaN = false) (hi : x.isFinite = false)
    (hy : y.isFinite = true) : HasValue (x - y) x.value := by
  obtain ⟨s, hs⟩ := datum_of_not_finite hx hi
  have hsub : UnpackedFloat.sub .binary64 x.datum y.datum = .infinity s := by
    have := isFinite_datum hy
    rw [hs]
    cases hd : y.datum <;> simp_all [UnpackedFloat.sub, UnpackedFloat.isFinite]
  rw [value_eq_datumValue hx, hs]
  exact hasValue_of_eq_infinity (sub_eq_ofDatum hx (isNaN_of_isFinite hy)) hsub

/-- A positive finite figure has a positive datum. -/
theorem datum_of_pos (hx : x.isFinite = true) (hpos : 0 < x.value) :
    ∃ m e h, x.datum = .finite .positive m e h := by
  have hfin := isFinite_datum hx
  rw [value_eq_datumValue (isNaN_of_isFinite hx)] at hpos
  cases hd : x.datum with
  | notANumber => rw [hd] at hfin; cases hfin
  | infinity s => rw [hd] at hfin; cases hfin
  | zero s => rw [hd] at hpos; exact absurd hpos (lt_irrefl 0)
  | finite s m e h =>
    cases s with
    | positive => exact ⟨m, e, h, rfl⟩
    | negative =>
      have hneg : (0 : ℚ) ≤ m * 2 ^ e := by positivity
      rw [hd, datumValue, signFactor, neg_one_mul] at hpos
      linarith

/-- An infinity times a positive figure is that infinity. -/
theorem hasValue_mul_of_infinite (hx : x.isNaN = false) (hi : x.isFinite = false)
    (hy : y.isFinite = true) (hpos : 0 < y.value) : HasValue (x * y) x.value := by
  obtain ⟨s, hs⟩ := datum_of_not_finite hx hi
  obtain ⟨m, e, h, hd⟩ := datum_of_pos hy hpos
  have hmul : UnpackedFloat.mul .binary64 x.datum y.datum = .infinity s := by
    rw [hs, hd]
    cases s <;> rfl
  rw [value_eq_datumValue hx, hs]
  exact hasValue_of_eq_infinity (mul_eq_ofDatum hx (isNaN_of_isFinite hy)) hmul

theorem hasValue_mul_of_infinite_right (hx : x.isFinite = true) (hpos : 0 < x.value)
    (hy : y.isNaN = false) (hi : y.isFinite = false) : HasValue (x * y) y.value := by
  obtain ⟨s, hs⟩ := datum_of_not_finite hy hi
  obtain ⟨m, e, h, hd⟩ := datum_of_pos hx hpos
  have hmul : UnpackedFloat.mul .binary64 x.datum y.datum = .infinity s := by
    rw [hs, hd]
    cases s <;> rfl
  rw [value_eq_datumValue hy, hs]
  exact hasValue_of_eq_infinity (mul_eq_ofDatum (isNaN_of_isFinite hx) hy) hmul

theorem hasValue_div_of_infinite (hx : x.isNaN = false) (hi : x.isFinite = false)
    (hy : y.isFinite = true) (hpos : 0 < y.value) : HasValue (x / y) x.value := by
  obtain ⟨s, hs⟩ := datum_of_not_finite hx hi
  obtain ⟨m, e, h, hd⟩ := datum_of_pos hy hpos
  have hdiv : UnpackedFloat.div .binary64 x.datum y.datum = .infinity s := by
    rw [hs, hd]
    cases s <;> rfl
  rw [value_eq_datumValue hx, hs]
  exact hasValue_of_eq_infinity (div_eq_ofDatum hx (isNaN_of_isFinite hy)) hdiv

end BattleOdds.Binary64
