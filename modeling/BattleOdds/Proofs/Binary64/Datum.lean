import BattleOdds.Binary64
import BattleOdds.Proofs.Binary64.Rounding

/-!
# What a word stands for

`datum` unpacks a word into sign, significand and exponent, the form in which arithmetic takes its
operands and leaves its results. This module relates it to the fields of the word, gives both an
exact rational value, and shows that packing a datum and unpacking it again loses nothing but
exponents that are too great, which become infinity. Infinity has the value `2 ^ 1024`, so that the
order of values is the order of all numbers.
-/
namespace BattleOdds.Binary64
open Float.Model Float.Model.UnpackedFloat Rounding

/-! ## The fields of a word -/

theorem magnitude_toNat (x : Binary64) : x.magnitude.toNat = x.bits.toNat % 2 ^ 63 := by
  rw [magnitude, UInt64.toNat_and]
  exact Nat.and_two_pow_sub_one_eq_mod _ 63

theorem exponentField_eq (x : Binary64) :
    x.exponentField = x.bits.toNat % 2 ^ 63 / 2 ^ 52 := by
  rw [exponentField, UInt64.toNat_shiftRight, magnitude_toNat, Nat.shiftRight_eq_div_pow]
  rfl

theorem fraction_eq (x : Binary64) : x.fraction = x.bits.toNat % 2 ^ 52 := by
  rw [fraction, UInt64.toNat_and]
  exact Nat.and_two_pow_sub_one_eq_mod _ 52

theorem fraction_lt (x : Binary64) : x.fraction < 2 ^ 52 := by
  rw [fraction_eq]
  exact Nat.mod_lt _ (by decide)

theorem exponentField_lt (x : Binary64) : x.exponentField < 2048 := by
  rw [exponentField_eq]
  omega

theorem isNegative_iff (x : Binary64) : x.isNegative = true ↔ 2 ^ 63 ≤ x.bits.toNat := by
  rw [isNegative, decide_eq_true_iff, UInt64.le_iff_toNat_le]
  rfl

theorem isNaN_iff_fields (x : Binary64) :
    x.isNaN = true ↔ x.exponentField = 2047 ∧ x.fraction ≠ 0 := by
  rw [isNaN, decide_eq_true_iff, UInt64.lt_iff_toNat_lt, magnitude_toNat, exponentField_eq,
    fraction_eq, show infinityBits.toNat = 2047 * 2 ^ 52 from rfl]
  have := x.bits.toNat_lt
  omega

theorem isFinite_iff_fields (x : Binary64) : x.isFinite = true ↔ x.exponentField < 2047 := by
  rw [isFinite, decide_eq_true_iff, UInt64.lt_iff_toNat_lt, magnitude_toNat, exponentField_eq,
    show infinityBits.toNat = 2047 * 2 ^ 52 from rfl]
  omega

/-! ## The datum of a word -/

/-- The datum that a word stands for. -/
def datum (x : Binary64) : UnpackedFloat := UnpackedFloat.unpack .binary64 x.bits.toBitVec

/-- The sign of a word. -/
def sign (x : Binary64) : Sign := if x.isNegative then .negative else .positive

theorem unpackMantissa_toNat (x : Binary64) :
    (@unpackMantissa .binary64 x.bits.toBitVec).toNat = x.fraction := by
  rw [fraction_eq]
  simp [unpackMantissa]

theorem unpackExponent_toNat (x : Binary64) :
    (@unpackExponent .binary64 x.bits.toBitVec).toNat = x.exponentField := by
  have := x.bits.toNat_lt
  rw [exponentField_eq]
  simp only [unpackExponent, BitVec.toNat_cast, BitVec.extractLsb_toNat, UInt64.toNat_toBitVec,
    Nat.shiftRight_eq_div_pow]
  norm_num
  omega

theorem sign_ofBitVec (x : Binary64) :
    Sign.ofBitVec (@unpackSign .binary64 x.bits.toBitVec) = x.sign := by
  have hlt := x.bits.toNat_lt
  have hbit : (@unpackSign .binary64 x.bits.toBitVec).toNat = x.bits.toNat / 2 ^ 63 := by
    simp only [unpackSign, BitVec.toNat_cast, BitVec.extractLsb_toNat, UInt64.toNat_toBitVec,
      Nat.shiftRight_eq_div_pow]
    norm_num
    omega
  have hzero : (@unpackSign .binary64 x.bits.toBitVec = 0#1) ↔ ¬ x.isNegative = true := by
    rw [isNegative_iff, BitVec.toNat_eq, hbit]
    simp only [BitVec.toNat_ofNat]
    omega
  unfold Sign.ofBitVec sign
  by_cases h : x.isNegative = true
  · rw [if_neg (by rw [hzero]; simpa using h), if_pos h]
  · rw [if_pos (hzero.mpr h), if_neg h]

theorem unpackExponent_eq_iff (x : Binary64) (e : BitVec 11) :
    @unpackExponent .binary64 x.bits.toBitVec = e ↔ x.exponentField = e.toNat := by
  rw [BitVec.toNat_eq, unpackExponent_toNat]

theorem unpackMantissa_eq_zero_iff (x : Binary64) :
    @unpackMantissa .binary64 x.bits.toBitVec = 0#52 ↔ x.fraction = 0 := by
  rw [BitVec.toNat_eq, unpackMantissa_toNat]
  rfl

theorem datum_of_infinite {x : Binary64} (h : x.exponentField = 2047) (hf : x.fraction = 0) :
    x.datum = .infinity x.sign := by
  have hexp := (x.unpackExponent_eq_iff (-1#11)).mpr h
  have hman := x.unpackMantissa_eq_zero_iff.mpr hf
  simp only [datum, UnpackedFloat.unpack, hexp, hman, if_true, sign_ofBitVec]

theorem datum_of_nan {x : Binary64} (h : x.exponentField = 2047) (hf : x.fraction ≠ 0) :
    x.datum = .notANumber := by
  have hexp := (x.unpackExponent_eq_iff (-1#11)).mpr h
  have hman := mt x.unpackMantissa_eq_zero_iff.mp hf
  simp only [datum, UnpackedFloat.unpack, hexp, if_true, if_neg hman]

theorem datum_of_zero {x : Binary64} (h : x.exponentField = 0) (hf : x.fraction = 0) :
    x.datum = .zero x.sign := by
  have hexp := (x.unpackExponent_eq_iff 0#11).mpr h
  have hman := x.unpackMantissa_eq_zero_iff.mpr hf
  simp only [datum, UnpackedFloat.unpack, hexp, hman, if_true, dite_true, sign_ofBitVec]
  rfl

theorem datum_of_subnormal {x : Binary64} (h : x.exponentField = 0) (hf : 0 < x.fraction) :
    x.datum = .finite x.sign x.fraction (-1074) hf := by
  have hexp := (x.unpackExponent_eq_iff 0#11).mpr h
  have hman := mt x.unpackMantissa_eq_zero_iff.mp hf.ne'
  simp only [datum, UnpackedFloat.unpack, hexp, dif_neg hman, sign_ofBitVec, unpackMantissa_toNat]
  rfl

theorem datum_of_normal {x : Binary64} (h : 0 < x.exponentField) (h' : x.exponentField < 2047) :
    x.datum = .finite x.sign (2 ^ 52 + x.fraction) (x.exponentField - 1075) (by omega) := by
  have htop := mt (x.unpackExponent_eq_iff (-1#11)).mp h'.ne
  have hbot := mt (x.unpackExponent_eq_iff 0#11).mp h.ne'
  have hone : (1#1 ++ @unpackMantissa .binary64 x.bits.toBitVec).toNat
      = 2 ^ 52 + x.fraction := by
    rw [BitVec.toNat_append, unpackMantissa_toNat, ← Nat.shiftLeft_add_eq_or_of_lt x.fraction_lt]
    rfl
  simp only [datum, UnpackedFloat.unpack, if_neg htop, if_neg hbot, sign_ofBitVec, hone,
    unpackExponent_toNat]
  rfl

/-- The five kinds of words, told apart by their fields, and what each stands for. -/
inductive Kind (x : Binary64) : Prop
  | zero (he : x.exponentField = 0) (hf : x.fraction = 0) (hd : x.datum = .zero x.sign)
  | subnormal (he : x.exponentField = 0) (hf : 0 < x.fraction)
      (hd : x.datum = .finite x.sign x.fraction (-1074) hf)
  | normal (hpos : 0 < x.exponentField) (hlt : x.exponentField < 2047)
      (hd : x.datum = .finite x.sign (2 ^ 52 + x.fraction) (x.exponentField - 1075) (by omega))
  | infinite (he : x.exponentField = 2047) (hf : x.fraction = 0) (hd : x.datum = .infinity x.sign)
  | nan (he : x.exponentField = 2047) (hf : x.fraction ≠ 0) (hd : x.datum = .notANumber)

theorem kind (x : Binary64) : Kind x := by
  rcases Nat.eq_zero_or_pos x.exponentField with he | hpos
  · rcases Nat.eq_zero_or_pos x.fraction with hf | hf
    · exact .zero he hf (datum_of_zero he hf)
    · exact .subnormal he hf (datum_of_subnormal he hf)
  · rcases (Nat.le_of_lt_succ x.exponentField_lt).lt_or_eq with hlt | he
    · exact .normal hpos hlt (datum_of_normal hpos hlt)
    · by_cases hf : x.fraction = 0
      · exact .infinite he hf (datum_of_infinite he hf)
      · exact .nan he hf (datum_of_nan he hf)

/-! ## Packing -/

/-- The significand has 53 bits, all of them unless the exponent is the least one. -/
def Canonical : UnpackedFloat → Prop
  | .finite _ m e _ => m < 2 ^ 53 ∧ -1074 ≤ e ∧ (2 ^ 52 ≤ m ∨ e = -1074)
  | _ => True

/-- The exponent is not too great for a word. -/
def InRange : UnpackedFloat → Prop
  | .finite _ _ e _ => e ≤ 971
  | _ => True

theorem canonical_datum (x : Binary64) : Canonical x.datum ∧ InRange x.datum := by
  have hlt := x.fraction_lt
  cases x.kind with
  | subnormal he hf hd =>
    rw [hd]
    exact ⟨⟨by omega, by omega, .inr rfl⟩, by simp [InRange]⟩
  | normal hpos hlt' hd =>
    rw [hd]
    exact ⟨⟨by omega, by omega, .inl (by omega)⟩, by simp only [InRange]; omega⟩
  | zero _ _ hd | infinite _ _ hd | nan _ _ hd =>
    rw [hd]
    exact ⟨trivial, trivial⟩

/-- The word of a datum. -/
def ofDatum (u : UnpackedFloat) : Binary64 := ⟨UInt64.ofBitVec (UnpackedFloat.pack .binary64 u)⟩

/-- What the sign adds to a word. -/
def signBits : Sign → ℕ
  | .negative => 2 ^ 63
  | .positive => 0

theorem packComponents_toNat (s : Sign) (e : BitVec 11) (m : BitVec 52) :
    (packComponents .binary64 s e m).toNat = signBits s + e.toNat * 2 ^ 52 + m.toNat := by
  have he := e.isLt
  have hm := m.isLt
  have hhigh : (s.toBitVec ++ e).toNat = signBits s / 2 ^ 52 + e.toNat := by
    rw [BitVec.toNat_append, ← Nat.shiftLeft_add_eq_or_of_lt he]
    cases s <;> simp [Sign.toBitVec, signBits]
  unfold packComponents
  rw [BitVec.toNat_append, ← Nat.shiftLeft_add_eq_or_of_lt hm, hhigh, Nat.shiftLeft_eq]
  cases s <;> simp only [signBits] <;> omega

/-- The fields of a word that is put together from them. -/
theorem fields_of_bits {x : Binary64} {s : Sign} {e m : ℕ} (he : e < 2048) (hm : m < 2 ^ 52)
    (h : x.bits.toNat = signBits s + e * 2 ^ 52 + m) :
    x.sign = s ∧ x.exponentField = e ∧ x.fraction = m := by
  have hneg := x.isNegative_iff
  rw [exponentField_eq, fraction_eq]
  cases s with
  | negative =>
    simp only [signBits] at h
    refine ⟨?_, by omega, by omega⟩
    rw [sign, if_pos (hneg.mpr (by omega))]
  | positive =>
    simp only [signBits] at h
    refine ⟨?_, by omega, by omega⟩
    rw [sign, if_neg (by rw [hneg]; omega)]

theorem fields_of_components (s : Sign) {e m : ℕ} (he : e < 2048) (hm : m < 2 ^ 52) :
    let x : Binary64 := ⟨UInt64.ofBitVec
      (packComponents .binary64 s (BitVec.ofNat 11 e) (BitVec.ofNat 52 m))⟩
    x.sign = s ∧ x.exponentField = e ∧ x.fraction = m := by
  apply fields_of_bits he hm
  have h := packComponents_toNat s (BitVec.ofNat 11 e) (BitVec.ofNat 52 m)
  rw [BitVec.toNat_ofNat, BitVec.toNat_ofNat, Nat.mod_eq_of_lt he, Nat.mod_eq_of_lt hm] at h
  exact h

/-- The three ways in which a finite datum is packed. -/
theorem pack_finite (s : Sign) (m : ℕ) (e : ℤ) (h : 0 < m) :
    UnpackedFloat.pack .binary64 (.finite s m e h)
      = if 2048 ≤ (e + 1075).toNat + 1 then packedInfinity .binary64 s
        else if m.log2 + 1 = 53 then
          packComponents .binary64 s (BitVec.ofNat 11 (e + 1075).toNat) (BitVec.ofNat 52 m)
        else packComponents .binary64 s (BitVec.ofNat 11 0) (BitVec.ofNat 52 m) := by
  have hbias : e + (Format.binary64.exponentBias : ℤ)
      + (Format.binary64.mantissaBitsWithoutImplicit : ℤ) = e + 1075 := by
    change e + ((1023 : ℕ) : ℤ) + ((52 : ℕ) : ℤ) = e + 1075
    omega
  simp only [UnpackedFloat.pack, hbias]
  rfl

theorem ofDatum_overflow {s : Sign} {m : ℕ} {e : ℤ} {h : 0 < m} (he : 971 < e) :
    ofDatum (.finite s m e h) = ofDatum (.infinity s) := by
  unfold ofDatum
  rw [pack_finite, if_pos (by omega)]
  rfl

/-- Packing loses nothing of what fits a word. -/
theorem datum_ofDatum {u : UnpackedFloat} (hc : Canonical u) (hr : InRange u) :
    (ofDatum u).datum = u := by
  cases u with
  | notANumber => rfl
  | infinity s => cases s <;> rfl
  | zero s => cases s <;> rfl
  | finite s m e h =>
    obtain ⟨hm, he, hn⟩ := hc
    have hr' : e ≤ 971 := hr
    unfold ofDatum
    rw [pack_finite, if_neg (by omega)]
    by_cases hlo : 2 ^ 52 ≤ m
    · have hlog : m.log2 = 52 := (Nat.log2_eq_iff h.ne').mpr ⟨hlo, hm⟩
      have hbits : BitVec.ofNat 52 m = BitVec.ofNat 52 (m - 2 ^ 52) := by
        rw [BitVec.toNat_eq, BitVec.toNat_ofNat, BitVec.toNat_ofNat]
        omega
      rw [if_pos (by omega), hbits]
      obtain ⟨hs, he', hf⟩ := fields_of_components s (e := (e + 1075).toNat) (m := m - 2 ^ 52)
        (by omega) (by omega)
      rw [datum_of_normal (by omega) (by omega)]
      congr 1 <;> omega
    · obtain rfl : e = -1074 := hn.resolve_left hlo
      have hlog := (Nat.log2_lt h.ne').mpr (not_le.mp hlo)
      rw [if_neg (by omega)]
      obtain ⟨hs, he', hf⟩ := fields_of_components s (e := 0) (m := m) (by omega) (by omega)
      rw [datum_of_subnormal he' (by omega)]
      congr 1

/-- What does not fit a word becomes infinity. -/
theorem datum_ofDatum_overflow {s : Sign} {m : ℕ} {e : ℤ} {h : 0 < m} (he : 971 < e) :
    (ofDatum (.finite s m e h)).datum = .infinity s := by
  rw [ofDatum_overflow he]
  exact datum_ofDatum trivial trivial

end BattleOdds.Binary64
