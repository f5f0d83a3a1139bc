import BattleOdds.Proofs.Binary64.Nearest
import BattleOdds.Proofs.Run.Batched
import BattleOdds.Proofs.Trial.Magnitudes
import BattleOdds.Report.Encoding

/-!
# Odds are frequencies

A share takes three operations, but only the division rounds: a count, and a hundred times it, are
figures as long as the total does not exceed `9 * 10 ^ 13`. So a share is the figure nearest to the
exact percentage, it tells none and all from some, and four of them add up to a hundred with an
error of seven roundings. Runs are far shorter, and their tallies count what their columns hold.
-/
namespace BattleOdds
open Binary64 Rounding

theorem hasValue_hundred : HasValue 100.0 100 :=
  hasValue_of_fields (n := 100 * 2 ^ 46) (e := -46) rfl (by decide) (by norm_num)

namespace Odds

variable {count other total : ℕ}

/-! ## Exact percentages -/

/-- What a share is before it is rounded. -/
def percentage (count total : ℕ) : ℚ := 100 * count / total

theorem percentage_nonneg (count total : ℕ) : 0 ≤ percentage count total := by
  unfold percentage
  positivity

theorem percentage_mono (h : count ≤ other) (total : ℕ) :
    percentage count total ≤ percentage other total := by
  unfold percentage
  gcongr

theorem percentage_self (h : 0 < total) : percentage total total = 100 := by
  have hpos : (total : ℚ) ≠ 0 := by exact_mod_cast h.ne'
  exact mul_div_cancel_right₀ 100 hpos

theorem percentage_le_hundred (h : count ≤ total) (hpos : 0 < total) :
    percentage count total ≤ 100 :=
  (percentage_mono h total).trans_eq (percentage_self hpos)

/-- One trial of at most `9 * 10 ^ 13` is more than `2 ^ -40` percent of them. -/
theorem two_pow_le_percentage_one (hpos : 0 < total) (hmost : total ≤ 9 * 10 ^ 13) :
    2 ^ (-40 : ℤ) ≤ percentage 1 total := by
  have htotal : (0 : ℚ) < total := by exact_mod_cast hpos
  have hcast : (total : ℚ) ≤ 9 * 10 ^ 13 := by exact_mod_cast hmost
  rw [percentage, le_div_iff₀ htotal]
  norm_num
  linarith

theorem rounded_percentage_pos (hcount : 0 < count) (hpos : 0 < total)
    (hmost : total ≤ 9 * 10 ^ 13) : 0 < rounded (percentage count total) := by
  have hexact := rounded_of_bits (m := 1) (e := -40) (by norm_num) (by norm_num) (by norm_num)
  rw [Nat.cast_one, one_mul] at hexact
  calc (0 : ℚ)
    _ < 2 ^ (-40 : ℤ) := by positivity
    _ = rounded (2 ^ (-40 : ℤ)) := hexact.symm
    _ ≤ rounded (percentage count total) :=
        rounded_mono ((two_pow_le_percentage_one hpos hmost).trans (percentage_mono hcount total))

/-- All but one trial are so much less than a hundred percent that they are not rounded up to it. -/
theorem rounded_percentage_lt (h : count < total) (hmost : total ≤ 9 * 10 ^ 13) :
    rounded (percentage count total) < 100 := by
  have hpos : 0 < total := Nat.zero_lt_of_lt h
  have hrest : percentage count total + percentage 1 total ≤ 100 := by
    have hsum : percentage count total + percentage 1 total = percentage (count + 1) total := by
      unfold percentage
      push_cast
      ring
    rw [hsum]
    exact percentage_le_hundred h hpos
  have hexact := rounded_of_bits (m := 100 * 2 ^ 40 - 1) (e := -40) (by norm_num) (by norm_num)
    (by norm_num)
  have hvalue : ((100 * 2 ^ 40 - 1 : ℕ) : ℚ) * 2 ^ (-40 : ℤ) = 100 - 2 ^ (-40 : ℤ) := by norm_num
  rw [hvalue] at hexact
  calc rounded (percentage count total)
    _ ≤ rounded (100 - 2 ^ (-40 : ℤ)) :=
        rounded_mono (by linarith [two_pow_le_percentage_one hpos hmost])
    _ = 100 - 2 ^ (-40 : ℤ) := hexact
    _ < 100 := sub_lt_self _ (by positivity)

/-! ## Shares -/

/-- The count and a hundred times the count are exact. -/
theorem hasValue_share (h : count ≤ total) (hpos : 0 < total) (hmost : total ≤ 9 * 10 ^ 13) :
    HasValue (share count total) (rounded (percentage count total)) := by
  have hcount := hasValue_ofNat (show count < 2 ^ 53 by omega)
  have htotal := hasValue_ofNat (show total < 2 ^ 53 by omega)
  have hhundred : (100.0 : Binary64).isFinite = true := by decide
  have hprod := hasValue_mul (isFinite_ofNat count) hhundred
  have hexact : rounded (count * 100) = count * 100 := by
    exact_mod_cast rounded_natCast (show count * 100 < 2 ^ 53 by omega)
  rw [hcount.value_eq, hasValue_hundred.value_eq, hexact] at hprod
  have hfinite : (ofNat count * 100.0).isFinite = true :=
    ((small_ofUInt64 _).mul small_hundred (by norm_num)).isFinite (by norm_num)
  have hpos' : (ofNat total).value ≠ 0 := by
    rw [htotal.value_eq]
    exact_mod_cast hpos.ne'
  have h := hasValue_div hfinite (isFinite_ofNat total) hpos'
  rwa [hprod.value_eq, htotal.value_eq, mul_comm (count : ℚ)] at h

theorem share_mem (h : count ≤ total) (hpos : 0 < total) (hmost : total ≤ 9 * 10 ^ 13) :
    0.0 ≤ share count total ∧ share count total ≤ 100.0 := by
  have hshare := hasValue_share h hpos hmost
  have hexact : rounded 100 = 100 := rounded_natCast (m := 100) (by norm_num)
  refine ⟨hasValue_zero.le hshare (rounded_nonneg (percentage_nonneg _ _)),
    hshare.le hasValue_hundred ?_⟩
  exact (rounded_mono (percentage_le_hundred h hpos)).trans_eq hexact

theorem nearest_share (h : count ≤ total) (hpos : 0 < total) (hmost : total ≤ 9 * 10 ^ 13) :
    Nearest (percentage count total) (share count total) := by
  obtain ⟨hzero, hhundred⟩ := share_mem h hpos hmost
  have hfinite := (NonNegative.const hzero).isFinite_of_le hhundred (by decide)
  exact (hasValue_share h hpos hmost).nearest hfinite (percentage_nonneg _ _)

/-- Only no trials at all are none of the trials. -/
theorem hasValue_share_zero_iff (h : count ≤ total) (hpos : 0 < total)
    (hmost : total ≤ 9 * 10 ^ 13) : HasValue (share count total) 0 ↔ count = 0 := by
  have hshare := hasValue_share h hpos hmost
  constructor
  · intro hzero
    by_contra hne
    have hlt := rounded_percentage_pos (Nat.pos_of_ne_zero hne) hpos hmost
    exact hlt.ne (hzero.value_eq.symm.trans hshare.value_eq)
  · rintro rfl
    have hnone : percentage 0 total = 0 := by simp [percentage]
    rwa [hnone, rounded_zero] at hshare

/-- Only all trials are all of them. -/
theorem hasValue_share_hundred_iff (h : count ≤ total) (hpos : 0 < total)
    (hmost : total ≤ 9 * 10 ^ 13) : HasValue (share count total) 100 ↔ count = total := by
  have hshare := hasValue_share h hpos hmost
  constructor
  · intro hhundred
    by_contra hne
    have hlt := rounded_percentage_lt (lt_of_le_of_ne h hne) hmost
    exact hlt.ne (hshare.value_eq.symm.trans hhundred.value_eq)
  · rintro rfl
    have hexact : rounded 100 = 100 := rounded_natCast (m := 100) (by norm_num)
    rwa [percentage_self hpos, hexact] at hshare

theorem share_le_share (h : count ≤ other) (hle : other ≤ total) (hpos : 0 < total)
    (hmost : total ≤ 9 * 10 ^ 13) : share count total ≤ share other total :=
  (hasValue_share (h.trans hle) hpos hmost).le (hasValue_share hle hpos hmost)
    (rounded_mono (percentage_mono h total))

/-! ## Errors of sums -/

/-- A figure that comes of a number by a few roundings below `2 ^ 7`. -/
structure Approximates (roundings : ℕ) (q : ℚ) (x : Binary64) : Prop where
  nonNegative : NonNegative x
  abs_value_sub_le : |x.value - q| ≤ roundings * 2 ^ (-47 : ℤ)

theorem approximates_share (h : count ≤ total) (hpos : 0 < total) (hmost : total ≤ 9 * 10 ^ 13) :
    Approximates 1 (percentage count total) (share count total) := by
  have hshare := hasValue_share h hpos hmost
  refine ⟨hshare.nonNegative (rounded_nonneg (percentage_nonneg _ _)), ?_⟩
  rw [hshare.value_eq, Nat.cast_one, one_mul]
  refine abs_rounded_sub_le (n := 7) (percentage_nonneg _ _) ?_ (by norm_num) (by norm_num)
  exact (percentage_le_hundred h hpos).trans_lt (by norm_num)

/-- A sum that stays below `2 ^ 7` is rounded once more. -/
theorem Approximates.add {j k : ℕ} {p q : ℚ} {x y : Binary64} (hx : Approximates j p x)
    (hy : Approximates k q y) (hsum : p + q ≤ 100) (hfew : j + k ≤ 16) :
    Approximates (j + k + 1) (p + q) (x + y) := by
  obtain ⟨hx₀, hx₁⟩ := hx
  obtain ⟨hy₀, hy₁⟩ := hy
  have herror : |x.value + y.value - (p + q)| ≤ (j + k) * 2 ^ (-47 : ℤ) := by
    calc |x.value + y.value - (p + q)|
      _ = |x.value - p + (y.value - q)| := by rw [add_sub_add_comm]
      _ ≤ |x.value - p| + |y.value - q| := abs_add_le _ _
      _ ≤ j * 2 ^ (-47 : ℤ) + k * 2 ^ (-47 : ℤ) := add_le_add hx₁ hy₁
      _ = (j + k) * 2 ^ (-47 : ℤ) := by ring
  have hsmall : ((j : ℚ) + k) * 2 ^ (-47 : ℤ) ≤ 1 := by
    have hcast : (j : ℚ) + k ≤ 16 := by exact_mod_cast hfew
    calc ((j : ℚ) + k) * 2 ^ (-47 : ℤ)
      _ ≤ 16 * 2 ^ (-47 : ℤ) := mul_le_mul_of_nonneg_right hcast (by positivity)
      _ ≤ 1 := by norm_num
  have hbound : x.value + y.value < 2 ^ 7 := by linarith [(abs_le.mp herror).2]
  have hx₂ : AtMost 7 x := ⟨hx₀.isNumber, by linarith [hy₀.le_value]⟩
  have hy₂ : AtMost 7 y := ⟨hy₀.isNumber, by linarith [hx₀.le_value]⟩
  have hadd := hasValue_add (hx₀.isFinite hx₂ (by norm_num)) (hy₀.isFinite hy₂ (by norm_num))
  have hnonneg : 0 ≤ x.value + y.value := add_nonneg hx₀.le_value hy₀.le_value
  have hrounding : |rounded (x.value + y.value) - (x.value + y.value)| ≤ 2 ^ (-47 : ℤ) :=
    abs_rounded_sub_le (n := 7) hnonneg hbound (by norm_num) (by norm_num)
  refine ⟨hx₀.add hy₀, ?_⟩
  rw [hadd.value_eq]
  calc |rounded (x.value + y.value) - (p + q)|
    _ ≤ |rounded (x.value + y.value) - (x.value + y.value)| + |x.value + y.value - (p + q)| :=
        abs_sub_le _ _ _
    _ ≤ 2 ^ (-47 : ℤ) + (j + k) * 2 ^ (-47 : ℤ) := add_le_add hrounding herror
    _ = (j + k + 1 : ℕ) * 2 ^ (-47 : ℤ) := by push_cast; ring

/-! ## Odds of a tally -/

/-- The share of a tier. -/
def of (o : Odds) : Tier → Binary64
  | .failure => o.failure
  | .pyrrhic => o.pyrrhic
  | .moderate => o.moderate
  | .decisive => o.decisive

variable {t : Tally}

theorem ofTally_eq (hpos : 0 < t.total) (hmost : t.total ≤ 9 * 10 ^ 13) :
    ofTally t
      = { decisive := share t.decisive t.total
          moderate := share t.moderate t.total
          pyrrhic := share t.pyrrhic t.total
          failure := share t.failure t.total } := by
  have hword : t.total % wordCount 64 = t.total := Nat.mod_eq_of_lt (hmost.trans_lt (by decide))
  simp only [ofTally, hword, if_neg hpos.ne']

theorem of_ofTally (hpos : 0 < t.total) (hmost : t.total ≤ 9 * 10 ^ 13) (tier : Tier) :
    (ofTally t).of tier = share (t.count tier) t.total := by
  rw [ofTally_eq hpos hmost]
  cases tier <;> rfl

theorem of_ofTally_of_none (h : t.total = 0) (tier : Tier) : (ofTally t).of tier = 0.0 := by
  have hnone : ofTally t = {} := by
    simp only [ofTally, h, Nat.zero_mod, if_true]
  rw [hnone]
  cases tier <;> rfl

/-- The four shares add up to a hundred, with an error of seven roundings. -/
theorem approximates_total (hpos : 0 < t.total) (hmost : t.total ≤ 9 * 10 ^ 13) :
    Approximates 7 100 (ofTally t).total := by
  have hshare (tier : Tier) :
      Approximates 1 (percentage (t.count tier) t.total) (share (t.count tier) t.total) :=
    approximates_share (t.count_le_total tier) hpos hmost
  have hsum : percentage t.decisive t.total + percentage t.moderate t.total
      + percentage t.pyrrhic t.total + percentage t.failure t.total = 100 := by
    rw [← percentage_self hpos]
    simp only [percentage, Tally.total]
    push_cast
    ring
  have hfailure := percentage_nonneg t.failure t.total
  have hpyrrhic := percentage_nonneg t.pyrrhic t.total
  have htotal := (((hshare .decisive).add (hshare .moderate) (by simp only [Tally.count]; linarith)
    (by norm_num)).add (hshare .pyrrhic) (by simp only [Tally.count]; linarith) (by norm_num)).add
    (hshare .failure) hsum.le (by norm_num)
  rw [ofTally_eq hpos hmost]
  simp only [Tally.count, hsum] at htotal
  exact htotal

theorem abs_total_sub_lt (hpos : 0 < t.total) (hmost : t.total ≤ 9 * 10 ^ 13) :
    (ofTally t).total.isFinite = true ∧ |(ofTally t).total.value - 100| < 1 / 10 ^ 9 := by
  obtain ⟨hnonneg, herror⟩ := approximates_total hpos hmost
  have hless : |(ofTally t).total.value - 100| < 1 / 10 ^ 9 := herror.trans_lt (by norm_num)
  have hsmall : (ofTally t).total.value ≤ 2 ^ 7 := by linarith [(abs_lt.mp hless).2]
  exact ⟨hnonneg.isFinite ⟨hnonneg.isNumber, hsmall⟩ (by norm_num), hless⟩

end Odds

/-- The odds of a tally are the frequencies in the column of the tiers. -/
theorem Ledger.Aligned.nearest_odds {l : Ledger} (h : l.Aligned) (hpos : 0 < l.tally.total)
    (hmost : l.tally.total ≤ 9 * 10 ^ 13) (tier : Tier) :
    Nearest (100 * l.tiers.count tier / l.tiers.size) ((Odds.ofTally l.tally).of tier) := by
  have hnearest := Odds.nearest_share (l.tally.count_le_total tier) hpos hmost
  rwa [← Odds.of_ofTally hpos hmost, h.count_tally, h.total_tally] at hnearest

/-- A run has at least a hundred trials, but far fewer than the odds could count. -/
theorem Runner.total_tally_run_mem (runner : Runner) (r : Request) (prices : Prices)
    (seed : UInt64) :
    let tally := (runner.run (.resolve r prices) r seed).tally
    0 < tally.total ∧ tally.total ≤ 9 * 10 ^ 13 := by
  intro tally
  have htotal : tally.total = r.trials :=
    (runner.aligned_run _ r seed).total_tally.trans (runner.size_run _ r seed)
  have hmany : 100 ≤ r.trials := hundred_le_clampIterations r.iterations
  have hfew : r.trials ≤ 20000 := clampIterations_le r.iterations
  exact ⟨by omega, by omega⟩

/-- The percentages of a tally under the four labels of a report, the best tier first, each the
figure nearest to the exact one. They tell none and all from some, keep the order of the counts and
add up to a hundred; those of no trials are zero. So the percentages that a run reports, whichever
runner makes it, are the frequencies in the column of its tiers. -/
theorem odds_conserve_trials :
    (∀ t : Tally, 0 < t.total → t.total ≤ 9 * 10 ^ 13 →
      let odds := Odds.ofTally t
      (∀ tier, Nearest (100 * t.count tier / t.total) (odds.of tier)
        ∧ 0.0 ≤ odds.of tier ∧ odds.of tier ≤ 100.0
        ∧ (HasValue (odds.of tier) 0 ↔ t.count tier = 0)
        ∧ (HasValue (odds.of tier) 100 ↔ t.count tier = t.total))
      ∧ (∀ s : Tally, s.total = t.total → ∀ lesser greater, s.count lesser ≤ t.count greater →
        (Odds.ofTally s).of lesser ≤ odds.of greater)
      ∧ odds.total.isFinite = true ∧ |odds.total.value - 100| < 1 / 10 ^ 9)
    ∧ (∀ t : Tally, t.total = 0 → ∀ tier, (Odds.ofTally t).of tier = 0.0)
    ∧ (∀ odds : Odds, odds.toJson
        = .record ([("IT", 3), ("MS", 2), ("PV", 1), ("UF", 0)].map fun (label, rounds) =>
            (label, .figure (odds.of (.ofRounds rounds)))))
    ∧ ∀ r : Request, r.faults = [] → ∀ (machine : Machine) (runner : Runner) (prices : Prices)
        (entropy : UInt64) (moment : Timestamp), machine.Serves runner →
      ∃ outcome, r.run machine runner prices entropy moment = .ok outcome
        ∧ (∀ tier,
            Nearest (100 * outcome.ledger.tiers.count tier / outcome.ledger.tiers.size)
              (outcome.report.odds.of tier))
        ∧ |outcome.report.odds.total.value - 100| < 1 / 10 ^ 9 := by
  refine ⟨fun t hpos hmost => ⟨fun tier => ?_, fun s hs lesser greater hle => ?_, ?_⟩,
    fun t => Odds.of_ofTally_of_none, fun odds => rfl,
    fun r hvalid machine runner prices entropy moment hserves =>
      ⟨_, Request.run_eq_ok hvalid hserves prices entropy moment, ?_⟩⟩
  · have hle := t.count_le_total tier
    obtain ⟨hzero, hhundred⟩ := Odds.share_mem hle hpos hmost
    rw [Odds.of_ofTally hpos hmost]
    exact ⟨Odds.nearest_share hle hpos hmost, hzero, hhundred,
      Odds.hasValue_share_zero_iff hle hpos hmost, Odds.hasValue_share_hundred_iff hle hpos hmost⟩
  · rw [Odds.of_ofTally hpos hmost, Odds.of_ofTally (hs ▸ hpos) (hs ▸ hmost), hs]
    exact Odds.share_le_share hle (t.count_le_total greater) hpos hmost
  · exact Odds.abs_total_sub_lt hpos hmost
  · obtain ⟨hpos, hmost⟩ := runner.total_tally_run_mem r prices (r.seed.getD entropy)
    have haligned := runner.aligned_run (.resolve r prices) r (r.seed.getD entropy)
    exact ⟨fun tier => haligned.nearest_odds hpos hmost tier, (Odds.abs_total_sub_lt hpos hmost).2⟩

/-- Seven trials, none of them in one tier, and a run of ships against ships. -/
theorem odds_conserve_trials_of_fleet :
    let t : Tally := { failure := 1, moderate := 2, decisive := 4 }
    let r : Request :=
      { seed := some 3, attacker := { ships := 4 }, defender := { ships := 3 }, action := .naval 4 }
    let machine := Machine.withRoomFor 8
    (0 < t.total ∧ t.total ≤ 9 * 10 ^ 13)
    ∧ Nearest (100 * 4 / 7) (Odds.ofTally t).decisive
    ∧ HasValue (Odds.ofTally t).pyrrhic 0
    ∧ (Odds.ofTally t).failure ≤ (Odds.ofTally t).moderate
    ∧ (Odds.ofTally {}).failure = 0.0
    ∧ r.faults = [] ∧ machine.Serves (.batched 4)
    ∧ ∃ outcome, r.run machine (.batched 4) {} 0 default = .ok outcome
      ∧ |outcome.report.odds.total.value - 100| < 1 / 10 ^ 9 := by
  intro t r machine
  have hpos : 0 < t.total := by decide
  have hmost : t.total ≤ 9 * 10 ^ 13 := by decide
  have hvalid : r.faults = [] := by decide
  have hserves : machine.Serves (.batched 4) := by decide
  obtain ⟨htally, hnone, -, hrun⟩ := odds_conserve_trials
  obtain ⟨hshares, hmono, -⟩ := htally t hpos hmost
  obtain ⟨hnearest, -⟩ := hshares .decisive
  obtain ⟨-, -, -, hzero, -⟩ := hshares .pyrrhic
  obtain ⟨outcome, hok, -, hsum⟩ := hrun r hvalid machine (.batched 4) {} 0 default hserves
  exact ⟨⟨hpos, hmost⟩, hnearest, hzero.mpr rfl, hmono t rfl .failure .moderate (by decide),
    hnone {} rfl .failure, hvalid, hserves, outcome, hok, hsum⟩

end BattleOdds
