import BattleOdds.Proofs.Binary64.Nearest
import BattleOdds.Proofs.Generator

/-!
# The range of a draw

A draw from a range takes one word and adds a part of the length of the range to its lower bound.
Length, part and sum are rounded one after the other, so the sum may reach the upper bound or
overflow; the lower bound is then drawn instead. So what is drawn lies in the half-open range,
wherever that is, and the roll of a force and the variance of an effect lie in theirs.
-/
namespace BattleOdds.Draw
open Binary64 Rounding

variable {lo hi x : Binary64}

/-- A unit draw counts the top 53 bits of the drawn word. -/
theorem hasValue_unit (g : Generator) :
    HasValue (unit g).1 ((g.output.toNat / 2 ^ 11 : ℕ) / 2 ^ 53) := by
  have h := hasValue_unitOfWord g.output
  rwa [Generator.toNat_shiftRight_eleven, zpow_neg, ← div_eq_mul_inv] at h

/-- From an empty range its lower bound is drawn. -/
theorem scale_of_not_lt (hlo : lo.isFinite = true) (hhi : hi.isFinite = true) (h : ¬ lo < hi)
    (u : Binary64) : scale lo hi u = lo :=
  if_pos ((not_lt_iff_le (isNaN_of_isFinite hlo) (isNaN_of_isFinite hhi)).mp h)

theorem within_mem (hlo : lo.isFinite = true) (hhi : hi.isFinite = true)
    (hspan : (hi - lo).isFinite = true) (hlt : lo < hi) (g : Generator) :
    lo ≤ (within lo hi g).1 ∧ (within lo hi g).1 < hi :=
  scale_mem_of_isFinite_sub hlo hhi hspan hlt (small_unitOfWord g.output)

/-- The roll of a finite force lies between two fifths of it and the whole of it, which only a force
of zero rolls. -/
theorem forceRoll_mem (hf : x.isFinite = true) (hx : 0.0 ≤ x) (g : Generator) :
    0.4 * x ≤ (forceRoll x g).1 ∧ (forceRoll x g).1 ≤ x ∧ (0.0 < x → (forceRoll x g).1 < x) := by
  have hshare : Factor 0.4 := .const (by decide)
  have hnonneg : NonNegative x := .const hx
  have hle : 0.4 * x ≤ x := factor_mul_le hshare (by decide) hnonneg hf
  have hlo : (0.4 * x).isFinite = true := (hnonneg.factor_mul hshare).isFinite_of_le hle hf
  by_cases hlt : 0.4 * x < x
  · obtain ⟨hge, hbelow⟩ := yields_within (hnonneg.factor_mul hshare) hf hlt g
    exact ⟨hge, le_of_lt hbelow, fun _ => hbelow⟩
  · have hroll : (forceRoll x g).1 = 0.4 * x := scale_of_not_lt hlo hf hlt _
    rw [hroll]
    refine ⟨le_refl_of_isNaN (isNaN_of_isFinite hlo), hle, fun hpos => ?_⟩
    exact absurd (factor_mul_lt hshare (by decide) hpos hf) hlt

/-- A draw from a range of finite length takes one word, whatever the bounds are, and lies in the
range; an empty range yields its lower bound. So the roll of a force is at least two fifths of it
and less than the whole, and the variance of an effect stays between its bounds. -/
theorem draws_in_range (g : Generator) :
    ((unit g).2 = g.advance ∧ HasValue (unit g).1 ((g.output.toNat / 2 ^ 11 : ℕ) / 2 ^ 53))
    ∧ (∀ lo hi : Binary64, lo.isFinite = true → hi.isFinite = true → (hi - lo).isFinite = true →
        within lo hi g = (scale lo hi (unit g).1, g.advance)
        ∧ (lo < hi → lo ≤ (within lo hi g).1 ∧ (within lo hi g).1 < hi)
        ∧ (¬ lo < hi → (within lo hi g).1 = lo))
    ∧ (∀ x : Binary64, x.isFinite = true → 0.0 ≤ x →
        0.4 * x ≤ (forceRoll x g).1 ∧ (forceRoll x g).1 ≤ x
        ∧ (0.0 < x → (forceRoll x g).1 < x))
    ∧ 0.85 ≤ (variance g).1 ∧ (variance g).1 < 1.05 := by
  refine ⟨⟨rfl, hasValue_unit g⟩, fun lo hi hlo hhi hspan => ⟨rfl, fun hlt => ?_, fun h => ?_⟩,
    fun x hf hx => forceRoll_mem hf hx g, ?_⟩
  · exact within_mem hlo hhi hspan hlt g
  · exact scale_of_not_lt hlo hhi h _
  · exact within_mem (by decide) (by decide) (by decide) (by decide) g

/-- A range about zero, an empty one, and the least force there is. -/
theorem draws_in_range_of_least_force :
    let g : Generator := .ofSeed 7
    let least : Binary64 := ⟨1⟩
    (-1.5 ≤ (within (-1.5) 2.5 g).1 ∧ (within (-1.5) 2.5 g).1 < 2.5)
    ∧ (within 2.5 2.5 g).1 = 2.5
    ∧ 0.0 < least ∧ 0.4 * least ≤ (forceRoll least g).1 ∧ (forceRoll least g).1 < least := by
  intro g least
  obtain ⟨-, hwithin, hroll, -⟩ := draws_in_range g
  obtain ⟨-, hmem, -⟩ := hwithin (-1.5) 2.5 (by decide) (by decide) (by decide)
  obtain ⟨-, -, hempty⟩ := hwithin 2.5 2.5 (by decide) (by decide) (by decide)
  have hpos : 0.0 < least := by decide
  obtain ⟨hge, -, hlt⟩ := hroll least (by decide) (by decide)
  exact ⟨hmem (by decide), hempty (by decide), hpos, hge, hlt hpos⟩

end BattleOdds.Draw
