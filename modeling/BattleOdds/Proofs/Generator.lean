import BattleOdds.Proofs.Draw
import Mathlib.Data.UInt

/-!
# The stream of a generator

A draw adds an odd stride to the state and mixes the sum into the drawn word. So skipping draws is
adding strides, and the states return only after all `2 ^ 64` of them. Mixing is one-to-one: a
xor-shift is undone by repeating it, and an odd factor by its inverse. So the words of a period are
all words, each once, and their top bits all unit figures alike.
-/
namespace BattleOdds

namespace Generator

/-! ## Skipping ahead -/

/-- The generator after a number of draws. -/
def skip (g : Generator) (n : ℕ) : Generator := advance^[n] g

@[simp] theorem skip_zero (g : Generator) : g.skip 0 = g := rfl

theorem skip_one (g : Generator) : g.skip 1 = g.advance := rfl

theorem skip_skip (g : Generator) (m n : ℕ) : (g.skip m).skip n = g.skip (m + n) := by
  rw [skip, skip, skip, Nat.add_comm, Function.iterate_add_apply]

/-- Each draw adds the stride once. -/
theorem skip_eq (g : Generator) (n : ℕ) : g.skip n = ⟨g.state + n.toUInt64 * stride⟩ := by
  induction n with
  | zero => simp
  | succ n ih =>
    rw [← skip_skip, ih, skip_one, advance, Nat.toUInt64_eq, Nat.toUInt64_eq,
      UInt64.ofNat_add, UInt64.add_mul, UInt64.add_assoc, UInt64.ofNat_one, UInt64.one_mul]

/-- The word of the draw number `i`, counted from zero. -/
def word (g : Generator) (i : ℕ) : UInt64 := (g.skip i).output

@[simp] theorem word_skip (g : Generator) (n i : ℕ) : (g.skip n).word i = g.word (n + i) := by
  rw [word, word, skip_skip]

/-- A number of draws yields the words in order and skips as many states. -/
theorem times_word (g : Generator) (n : ℕ) :
    Draw.times Draw.word n g = ((List.range n).map g.word, g.skip n) := by
  induction n generalizing g with
  | zero => simp
  | succ n ih =>
    have hstep : Draw.word g = (g.word 0, g.skip 1) := rfl
    rw [Draw.times_succ, hstep, ih, skip_skip, Nat.add_comm 1 n, List.range_succ_eq_map,
      List.map_cons, List.map_map]
    refine Prod.ext (congrArg (g.word 0 :: ·) (List.map_congr_left fun i _ => ?_)) rfl
    rw [word_skip, Nat.add_comm 1 i, Function.comp_apply]

/-! ## Mixing -/

theorem xorShift_xorShift (k z : UInt64) :
    xorShift k (xorShift k z) = z ^^^ z >>> k >>> k := by
  simp only [xorShift, UInt64.shiftRight_xor]
  rw [UInt64.xor_assoc, ← UInt64.xor_assoc (z >>> k), UInt64.xor_self, UInt64.zero_xor]

/-- Four shifts by a quarter of a word or more leave nothing of it. -/
theorem shiftRight_four {k : UInt64} (hk : 16 ≤ k.toNat ∧ k.toNat < 64) (z : UInt64) :
    z >>> k >>> k >>> k >>> k = 0 := by
  apply UInt64.toNat_inj.mp
  have hmod : k.toNat % 64 = k.toNat := Nat.mod_eq_of_lt hk.2
  have hpow : z.toNat < 2 ^ (k.toNat + k.toNat + k.toNat + k.toNat) :=
    z.toNat_lt.trans_le (Nat.pow_le_pow_right (by decide) (by omega))
  simp only [UInt64.toNat_shiftRight, hmod, ← Nat.shiftRight_add]
  rw [Nat.shiftRight_eq_div_pow, Nat.div_eq_of_lt hpow, UInt64.toNat_zero]

/-- Shifts cancel in pairs, so the fourth repetition restores the word. -/
theorem xorShift_injective {k : UInt64} (hk : 16 ≤ k.toNat ∧ k.toNat < 64) :
    Function.Injective (xorShift k) := by
  have hfour : Function.LeftInverse (xorShift k ∘ xorShift k ∘ xorShift k) (xorShift k) := by
    intro z
    rw [Function.comp_apply, Function.comp_apply, xorShift_xorShift, xorShift_xorShift,
      UInt64.shiftRight_xor, UInt64.shiftRight_xor, UInt64.xor_assoc,
      ← UInt64.xor_assoc (z >>> k >>> k), UInt64.xor_self, UInt64.zero_xor, shiftRight_four hk,
      UInt64.xor_zero]
  exact hfour.injective

theorem mul_word_injective {a b : UInt64} (h : a * b = 1) :
    Function.Injective fun z : UInt64 => z * a :=
  (IsUnit.of_mul_eq_one b h).mul_left_injective

/-- Every word is drawn from exactly one state. -/
theorem mix_bijective : Function.Bijective mix := by
  have hfinite : Finite UInt64 := .of_injective _ UInt64.toFin_injective
  -- Each factor is given with its inverse.
  have hfirst : Function.Injective fun z : UInt64 => z * 0xbf58476d1ce4e5b9 :=
    mul_word_injective (b := 0x96de1b173f119089) (by decide)
  have hsecond : Function.Injective fun z : UInt64 => z * 0x94d049bb133111eb :=
    mul_word_injective (b := 0x319642b2d24d8ec3) (by decide)
  rw [← Finite.injective_iff_bijective]
  exact (xorShift_injective (by decide)).comp
    (hsecond.comp ((xorShift_injective (by decide)).comp
      (hfirst.comp (xorShift_injective (by decide)))))

/-! ## The period -/

theorem toUInt64_mul_stride_eq_iff (i j : ℕ) :
    i.toUInt64 * stride = j.toUInt64 * stride ↔ i ≡ j [MOD 2 ^ 64] := by
  have hodd : Function.Injective fun z : UInt64 => z * stride :=
    mul_word_injective (b := 0xf1de83e19937733d) (by decide)
  rw [hodd.eq_iff (a := i.toUInt64) (b := j.toUInt64), Nat.toUInt64_eq, Nat.toUInt64_eq,
    UInt64.ofNat_eq_iff_mod_eq_toNat, UInt64.toNat_ofNat', Nat.ModEq]

/-- Two draws of a stream agree exactly if they are a multiple of the period apart. -/
theorem word_eq_word_iff (g : Generator) (i j : ℕ) :
    g.word i = g.word j ↔ i ≡ j [MOD 2 ^ 64] := by
  rw [word, word, output, output, mix_bijective.injective.eq_iff, advance, advance, skip_eq,
    skip_eq, add_left_inj, add_right_inj, toUInt64_mul_stride_eq_iff]

theorem periodic_word_iff (g : Generator) (p : ℕ) : Function.Periodic g.word p ↔ 2 ^ 64 ∣ p := by
  rw [← Nat.modEq_zero_iff_dvd]
  constructor
  · intro hp
    have h := hp 0
    rwa [zero_add, word_eq_word_iff] at h
  · intro hp i
    rw [word_eq_word_iff]
    exact hp.add_left i

/-- Within a period every word is drawn. -/
theorem exists_word_eq (g : Generator) (w : UInt64) : ∃ i < 2 ^ 64, g.word i = w := by
  have hinjective : Function.Injective fun i : Fin UInt64.size => (g.word i).toFin := by
    intro i j hij
    have hmod := (g.word_eq_word_iff i j).mp (UInt64.toFin_injective hij)
    exact Fin.ext (Nat.ModEq.eq_of_lt_of_lt hmod i.isLt j.isLt)
  obtain ⟨i, hi⟩ := Finite.surjective_of_injective hinjective w.toFin
  exact ⟨i, i.isLt, UInt64.toFin_injective hi⟩

/-- The words of a period. -/
def cycle (g : Generator) : List UInt64 := (List.range (2 ^ 64)).map g.word

theorem nodup_cycle (g : Generator) : g.cycle.Nodup := by
  refine List.Nodup.map_on (fun i hi j hj hij => ?_) List.nodup_range
  exact Nat.ModEq.eq_of_lt_of_lt ((g.word_eq_word_iff i j).mp hij) (List.mem_range.mp hi)
    (List.mem_range.mp hj)

theorem mem_cycle (g : Generator) (w : UInt64) : w ∈ g.cycle := by
  obtain ⟨i, hi, hw⟩ := g.exists_word_eq w
  exact List.mem_map.mpr ⟨i, List.mem_range.mpr hi, hw⟩

/-- What follows after some draws is the stream of the generator that skips them. -/
theorem drop_times_word (g : Generator) (n m : ℕ) :
    (Draw.times Draw.word (n + m) g).1.drop n = (Draw.times Draw.word m (g.skip n)).1 := by
  rw [times_word, times_word, List.range_add, List.map_append, List.drop_left' (by simp),
    List.map_map]
  exact List.map_congr_left fun i _ => (g.word_skip n i).symm

/-- The words after some draws of a stream, as many as a period has. -/
theorem drop_times_word_cycle (g : Generator) (k : ℕ) :
    (Draw.times Draw.word (k + 2 ^ 64) g).1.drop k = (g.skip k).cycle := by
  rw [drop_times_word, times_word, cycle]

/-! ## Unit draws of a period -/

/-- The words of which the top 53 bits are a given number. -/
def withTopBits (j : ℕ) : List UInt64 := (List.range 2048).map fun b => (2048 * j + b).toUInt64

theorem toNat_withTopBits {j b : ℕ} (hj : j < 2 ^ 53) (hb : b < 2048) :
    (2048 * j + b).toUInt64.toNat = 2048 * j + b := by
  rw [Nat.toUInt64_eq, UInt64.toNat_ofNat']
  exact Nat.mod_eq_of_lt (by omega)

theorem toNat_shiftRight_eleven (w : UInt64) : (w >>> 11).toNat = w.toNat / 2048 := by
  rw [UInt64.toNat_shiftRight, Nat.shiftRight_eq_div_pow]
  rfl

theorem nodup_withTopBits {j : ℕ} (hj : j < 2 ^ 53) : (withTopBits j).Nodup := by
  refine List.Nodup.map_on (fun b hb c hc h => ?_) List.nodup_range
  have hnat := congrArg UInt64.toNat h
  rw [toNat_withTopBits hj (List.mem_range.mp hb), toNat_withTopBits hj (List.mem_range.mp hc)]
    at hnat
  omega

theorem mem_withTopBits {j : ℕ} (hj : j < 2 ^ 53) (w : UInt64) :
    w ∈ withTopBits j ↔ (w >>> 11).toNat = j := by
  rw [toNat_shiftRight_eleven, withTopBits, List.mem_map]
  constructor
  · rintro ⟨b, hb, rfl⟩
    rw [toNat_withTopBits hj (List.mem_range.mp hb)]
    have := List.mem_range.mp hb
    omega
  · intro h
    have hrest : w.toNat % 2048 < 2048 := Nat.mod_lt _ (by decide)
    refine ⟨w.toNat % 2048, List.mem_range.mpr hrest, UInt64.toNat_inj.mp ?_⟩
    rw [toNat_withTopBits hj hrest]
    omega

theorem value_unitOfWord_eq_iff (v w : UInt64) :
    (Draw.unitOfWord v).value = (Draw.unitOfWord w).value
      ↔ (v >>> 11).toNat = (w >>> 11).toNat := by
  rw [(Draw.hasValue_unitOfWord v).value_eq, (Draw.hasValue_unitOfWord w).value_eq,
    mul_left_inj' (by positivity), Nat.cast_inj]

/-- Unit draws of one value are one figure: it is determined by the top bits of the word. -/
theorem unitOfWord_eq_iff_value (v w : UInt64) :
    Draw.unitOfWord v = Draw.unitOfWord w
      ↔ (Draw.unitOfWord v).value = (Draw.unitOfWord w).value := by
  refine ⟨congrArg Binary64.value, fun h => ?_⟩
  rw [value_unitOfWord_eq_iff, UInt64.toNat_inj] at h
  rw [Draw.unitOfWord, Draw.unitOfWord, h]

theorem hasValue_unitOfWord_topBits {j : ℕ} (hj : j < 2 ^ 53) :
    Binary64.HasValue (Draw.unitOfWord (2048 * j).toUInt64) (j / 2 ^ 53) := by
  have htop : ((2048 * j).toUInt64 >>> 11).toNat = j :=
    (mem_withTopBits hj _).mp (List.mem_map.mpr ⟨0, by simp, rfl⟩)
  have hvalue := Draw.hasValue_unitOfWord (2048 * j).toUInt64
  rwa [htop, zpow_neg, ← div_eq_mul_inv] at hvalue

/-- The unit draws after some draws of a stream, as many as a period has. -/
theorem drop_times_unit_cycle (g : Generator) (k : ℕ) :
    (Draw.times Draw.unit (k + 2 ^ 64) g).1.drop k = (g.skip k).cycle.map Draw.unitOfWord := by
  rw [Draw.unit, Draw.times_map, ← List.map_drop, drop_times_word_cycle]

/-- Each multiple of `2 ^ -53` below one is drawn for 2048 words of a period. -/
theorem count_map_unitOfWord_cycle (g : Generator) (w : UInt64) :
    (g.cycle.map Draw.unitOfWord).count (Draw.unitOfWord w) = 2048 := by
  have hj : (w >>> 11).toNat < 2 ^ 53 := by
    have := w.toNat_lt
    rw [toNat_shiftRight_eleven]
    omega
  have hperm : (g.cycle.filter fun v => Draw.unitOfWord v == Draw.unitOfWord w).Perm
      (withTopBits (w >>> 11).toNat) := by
    rw [List.perm_ext_iff_of_nodup (g.nodup_cycle.filter _) (nodup_withTopBits hj)]
    intro v
    rw [List.mem_filter, mem_withTopBits hj, beq_iff_eq, unitOfWord_eq_iff_value,
      value_unitOfWord_eq_iff]
    exact and_iff_right (g.mem_cycle v)
  calc (g.cycle.map Draw.unitOfWord).count (Draw.unitOfWord w)
    _ = (g.cycle.filter fun v => Draw.unitOfWord v == Draw.unitOfWord w).length := by
        rw [List.count, List.countP_map, List.countP_eq_length_filter]
        rfl
    _ = 2048 := by rw [hperm.length_eq, withTopBits, List.length_map, List.length_range]

/-- The stream of a generator. Its state moves by the stride, so skipping draws is a change of seed;
mixing loses nothing, so the period is exactly `2 ^ 64` draws, which yield every word once and every
unit figure 2048 times. -/
theorem stream_period (seed : UInt64) :
    let word (i : ℕ) := (advance^[i] (ofSeed seed)).output
    (∀ n, Draw.times Draw.word n (ofSeed seed)
        = ((List.range n).map word, ofSeed (seed + n.toUInt64 * 0x9e3779b97f4a7c15)))
    ∧ (∀ n m, (Draw.times Draw.word m (ofSeed (seed + n.toUInt64 * 0x9e3779b97f4a7c15))).1
        = (Draw.times Draw.word (n + m) (ofSeed seed)).1.drop n)
    ∧ Function.Bijective mix
    ∧ (∀ p, Function.Periodic word p ↔ 2 ^ 64 ∣ p)
    ∧ (∀ i j, word i = word j ↔ i ≡ j [MOD 2 ^ 64])
    ∧ (∀ k w, ((Draw.times Draw.word (k + 2 ^ 64) (ofSeed seed)).1.drop k).count w = 1)
    ∧ ∀ k j : ℕ, j < 2 ^ 53 →
        let units := (Draw.times Draw.unit (k + 2 ^ 64) (ofSeed seed)).1.drop k
        ∃ x, Binary64.HasValue x (j / 2 ^ 53) ∧ units.count x = 2048
          ∧ ∀ y ∈ units, Binary64.HasValue y (j / 2 ^ 53) → y = x := by
  intro word
  have hword : word = (ofSeed seed).word := rfl
  have hskip (n : ℕ) : ofSeed (seed + n.toUInt64 * 0x9e3779b97f4a7c15) = (ofSeed seed).skip n :=
    ((ofSeed seed).skip_eq n).symm
  refine ⟨fun n => ?_, fun n m => ?_, mix_bijective, periodic_word_iff _,
    word_eq_word_iff _, fun k w => ?_, fun k j hj => ?_⟩
  · rw [hskip, times_word, hword]
  · rw [hskip, drop_times_word]
  · rw [drop_times_word_cycle]
    exact List.count_eq_one_of_mem (nodup_cycle _) (mem_cycle _ w)
  · intro units
    have hunits : units = ((ofSeed seed).skip k).cycle.map Draw.unitOfWord :=
      (ofSeed seed).drop_times_unit_cycle k
    have hvalue := hasValue_unitOfWord_topBits hj
    rw [hunits]
    refine ⟨_, hvalue, count_map_unitOfWord_cycle _ _, ?_⟩
    intro y hy hyvalue
    obtain ⟨v, -, rfl⟩ := List.mem_map.mp hy
    rw [unitOfWord_eq_iff_value, hyvalue.value_eq, hvalue.value_eq]

/-- Among the draws after the first five stands the least positive figure. -/
theorem stream_period_least_unit :
    1 < 2 ^ 53 ∧ ∃ x, Binary64.HasValue x ((1 : ℕ) / 2 ^ 53)
      ∧ ((Draw.times Draw.unit (5 + 2 ^ 64) (ofSeed 7)).1.drop 5).count x = 2048 := by
  have hlt : 1 < 2 ^ 53 := by decide
  obtain ⟨x, hvalue, hcount, -⟩ := (stream_period 7).2.2.2.2.2.2 5 1 hlt
  exact ⟨hlt, x, hvalue, hcount⟩

end Generator

end BattleOdds
