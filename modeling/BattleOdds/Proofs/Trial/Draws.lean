import BattleOdds.Proofs.Generator
import BattleOdds.Proofs.Ledger.Columns
import BattleOdds.Proofs.Trial.Bounds

/-!
# How many draws a trial takes

A figure takes one draw whatever its bounds are, empty or not a number, so what a computation draws
is a matter of its shape. The rounds of a fight take a fixed number of draws and its aftermath
another, which is spent where a round is won. So the draws of a trial follow from its action and the
number of won rounds, under any factors. An action that commits nothing draws nothing.
-/
namespace BattleOdds

namespace Draw

variable {α β : Type} {m n : ℕ}

/-- The generator moves by as many draws as the result tells. -/
def Spends (d : Draw α) (cost : α → ℕ) : Prop := ∀ g, (d g).2 = g.skip (cost (d g).1)

theorem Spends.pure (a : α) : Spends (Pure.pure a) fun _ => 0 := fun g => g.skip_zero.symm

/-- First a fixed number of draws, then as many as the last result tells. -/
theorem Spends.bind {d : Draw α} {f : α → Draw β} {cost : β → ℕ} (hd : Spends d fun _ => m)
    (hf : ∀ a, Spends (f a) cost) : Spends (d >>= f) fun b => m + cost b := by
  intro g
  calc ((d >>= f) g).2
    _ = (d g).2.skip (cost ((d >>= f) g).1) := hf (d g).1 (d g).2
    _ = g.skip (m + cost ((d >>= f) g).1) := by rw [hd g, Generator.skip_skip]

/-- One draw more than what follows it. -/
theorem Spends.cons {d : Draw α} {f : α → Draw β} (hd : Spends d fun _ => 1)
    (hf : ∀ a, Spends (f a) fun _ => n) : Spends (d >>= f) fun _ => n + 1 := by
  have h := hd.bind hf
  rwa [Nat.add_comm] at h

theorem Spends.map {d : Draw α} {f : α → β} {cost : β → ℕ} (hd : Spends d fun a => cost (f a)) :
    Spends (f <$> d) cost := fun g => hd g

theorem Spends.times {d : Draw α} {cost : α → ℕ} (hd : Spends d cost) (n : ℕ) :
    Spends (times d n) fun xs => (xs.map cost).sum := by
  induction n with
  | zero => exact fun g => g.skip_zero.symm
  | succ n ih =>
    intro g
    simp only [times_succ, List.map_cons, List.sum_cons]
    rw [← Generator.skip_skip, ← hd g]
    exact ih (d g).2

theorem Spends.times_const {d : Draw α} (hd : Spends d fun _ => m) (n : ℕ) :
    Spends (Draw.times d n) fun _ => n * m := by
  intro g
  have h := hd.times n g
  simp only [List.map_const', List.sum_replicate, length_times, smul_eq_mul] at h
  exact h

/-- Repetitions that draw equally much begin at equal distances. -/
theorem Spends.times_eq_map {d : Draw α} (hd : Spends d fun _ => m) (n : ℕ) (g : Generator) :
    (Draw.times d n g).1 = (List.range n).map fun i => (d (g.skip (m * i))).1 := by
  induction n generalizing g with
  | zero => rfl
  | succ n ih =>
    have hrest (i : ℕ) : (g.skip m).skip (m * i) = g.skip (m * i.succ) := by
      rw [Generator.skip_skip, Nat.mul_succ, Nat.add_comm]
    rw [List.range_succ_eq_map, List.map_cons, List.map_map, times_succ, hd g]
    simp only [ih, hrest, Function.comp_def, Nat.mul_zero, Generator.skip_zero]

theorem spends_word : Spends word fun _ => 1 := fun g => g.skip_one.symm

theorem spends_unit : Spends unit fun _ => 1 := spends_word.map

/-- One draw, for any bounds. -/
theorem spends_within (lo hi : Binary64) : Spends (within lo hi) fun _ => 1 := spends_unit.map

theorem times_pure (a : α) (n : ℕ) (g : Generator) :
    Draw.times (Pure.pure a) n g = (List.replicate n a, g) := by
  induction n with
  | zero => rfl
  | succ n ih =>
    rw [times_succ]
    exact congrArg (fun rest => (a :: rest.1, rest.2)) ih

end Draw

open Draw (Spends spends_within)

/-! ## Fights -/

namespace Fight

variable {ρ ε : Type} {round : Draw ρ} {attackerWon : ρ → Bool} {aftermath : Draw ε} {m n : ℕ}

theorem spends_draw (hround : Spends round fun _ => m) (haftermath : Spends aftermath fun _ => n) :
    Spends (draw round attackerWon aftermath) fun fight =>
      roundCount * m + if fight.rounds.countP attackerWon = 0 then 0 else n := by
  refine (hround.times_const roundCount).bind fun rounds g => ?_
  by_cases h : rounds.countP attackerWon = 0
  · rw [if_pos h]
    exact g.skip_zero.symm.trans (congrArg g.skip (if_pos h)).symm
  · rw [if_neg h]
    exact (haftermath g).trans (congrArg g.skip (if_neg h)).symm

/-- A score that tells the won rounds tells the draws. -/
theorem spends_score {defeat : List ρ → TrialResult} {victory : List ρ → ε → TrialResult}
    (hround : Spends round fun _ => m) (haftermath : Spends aftermath fun _ => n)
    (hdefeat : ∀ rounds, (defeat rounds).roundsWon = rounds.countP attackerWon)
    (hvictory : ∀ rounds drawn, (victory rounds drawn).roundsWon = rounds.countP attackerWon) :
    Spends (score defeat victory <$> draw round attackerWon aftermath) fun result =>
      if result.roundsWon = 0 then roundCount * m else roundCount * m + n := by
  have hwon (fight : Fight ρ ε) :
      (score defeat victory fight).roundsWon = fight.rounds.countP attackerWon :=
    roundsWon_score hdefeat hvictory fight
  have hdraw : Spends (draw round attackerWon aftermath) _ := spends_draw hround haftermath
  simp only [add_ite, Nat.add_zero, ← hwon] at hdraw
  exact hdraw.map

/-- There are three rounds to win. -/
theorem yields_roundsWon_le {defeat : List ρ → TrialResult} {victory : List ρ → ε → TrialResult}
    (hdefeat : ∀ rounds, (defeat rounds).roundsWon = rounds.countP attackerWon)
    (hvictory : ∀ rounds drawn, (victory rounds drawn).roundsWon = rounds.countP attackerWon) :
    Draw.Yields (score defeat victory <$> draw round attackerWon aftermath) (·.roundsWon ≤ 3) := by
  refine yields_score_of_forall (fun rounds hlength => ?_) fun rounds drawn hlength _ => ?_
  · rw [hdefeat]
    exact countP_le_three hlength _
  · rw [hvictory]
    exact countP_le_three hlength _

end Fight

/-! ## Trials -/

/-- A strike on a type of unit draws for its attrition. -/
def AirTarget.attritionDraws : AirTarget → ℕ
  | .soldiers | .tanks | .ships => 1
  | .infra | .aircraft | .money => 0

namespace Action

/-- The draws of a trial that ends with a number of won rounds. -/
def draws (won : ℕ) : Action → ℕ
  | .ground soldiers tanks _ =>
    if soldiers = 0 ∧ tanks = 0 then 0 else if won = 0 then 12 else 14
  | .air aircraft target =>
    if aircraft = 0 then 0 else if won = 0 then 6 else 7 + target.attritionDraws
  | .naval ships => if ships = 0 then 0 else if won = 0 then 6 else 7

/-- The action commits no unit of any type. -/
def Idle (action : Action) : Prop := ∀ unit ∈ action.committed, unit.2 = 0

@[simp] theorem idle_ground {soldiers tanks : UInt64} {armed : Bool} :
    (ground soldiers tanks armed).Idle ↔ soldiers = 0 ∧ tanks = 0 := by simp [Idle, committed]

@[simp] theorem idle_air {aircraft : UInt64} {target : AirTarget} :
    (air aircraft target).Idle ↔ aircraft = 0 := by simp [Idle, committed]

@[simp] theorem idle_naval {ships : UInt64} : (naval ships).Idle ↔ ships = 0 := by
  simp [Idle, committed]

theorem draws_of_idle {action : Action} (h : action.Idle) (won : ℕ) : action.draws won = 0 := by
  cases action with
  | ground soldiers tanks armed => exact if_pos (idle_ground.mp h)
  | air aircraft target => exact if_pos (idle_air.mp h)
  | naval ships => exact if_pos (idle_naval.mp h)

/-- Rounds won beyond the third do not count. -/
theorem draws_rounds_ofRounds (action : Action) (won : ℕ) :
    action.draws (Tier.ofRounds won).rounds = action.draws won := by
  have hzero : (Tier.ofRounds won).rounds = 0 ↔ won = 0 := by
    rw [Tier.rounds_ofRounds]
    omega
  cases action <;> simp only [draws, hzero]

/-- What comes of a trial in which nothing is committed. -/
def idleResult : Action → TrialResult
  | .ground .. => { moneyLooted := some 0.0, improvementChance := some 0.0 }
  | .air .. => {}
  | .naval .. => { improvementChance := some 0.0 }

/-- Where nothing is committed, nothing is drawn. -/
theorem trial_of_idle {action : Action} (h : action.Idle) (defender : Profile) (context : Context)
    (factors : Factors) : action.trial defender context factors = pure action.idleResult := by
  cases action with
  | ground soldiers tanks armed => exact if_pos (idle_ground.mp h)
  | air aircraft target => exact if_pos (idle_air.mp h)
  | naval ships => exact if_pos (idle_naval.mp h)

end Action

theorem spends_roll (forces : GroundForces) : Spends forces.roll fun _ => 4 :=
  (spends_within _ _).cons fun _ => (spends_within _ _).cons fun _ =>
    (spends_within _ _).cons fun _ => (spends_within _ _).cons fun _ => .pure _

theorem spends_duelRound (attacker defender : Binary64) :
    Spends (duelRound attacker defender) fun _ => 2 :=
  (spends_within _ _).cons fun _ => (spends_within _ _).cons fun _ => .pure _

section Trial

variable (defender : Profile) (context : Context) (factors : Factors)

theorem spends_groundTrial (order : GroundOrder) (h : ¬ (order.soldiers = 0 ∧ order.tanks = 0)) :
    Spends (groundTrial order defender context factors) fun result =>
      if result.roundsWon = 0 then 12 else 14 := by
  have haftermath : Spends (do
      let damage ← Draw.variance
      let loot ← Draw.within 0.8 1.1
      return (damage, loot)) fun _ => 2 :=
    (spends_within _ _).cons fun _ => (spends_within _ _).cons fun _ => .pure _
  rw [groundTrial_eq_score _ _ _ _ h]
  exact Fight.spends_score (spends_roll _) haftermath (fun _ => rfl) fun _ _ => rfl

theorem spends_attritionDraw (target : AirTarget) :
    Spends target.attritionDraw fun _ => target.attritionDraws := by
  cases target
  case soldiers | tanks | ships => exact (spends_within 0.85 1.05).map
  case infra | aircraft | money => exact .pure none

theorem spends_airTrial (order : AirOrder) (h : order.aircraft ≠ 0) :
    Spends (airTrial order defender factors) fun result =>
      if result.roundsWon = 0 then 6 else 7 + order.target.attritionDraws := by
  have haftermath : Spends (do
      let attrition ← order.target.attritionDraw
      let damage ← Draw.variance
      return (attrition, damage)) fun _ => order.target.attritionDraws + 1 :=
    (spends_attritionDraw _).bind fun _ => (spends_within _ _).cons fun _ => .pure _
  have hsum : 7 + order.target.attritionDraws
      = roundCount * 2 + (order.target.attritionDraws + 1) := by
    rw [roundCount]
    omega
  rw [airTrial_eq_score _ _ _ h, hsum]
  exact Fight.spends_score (spends_duelRound _ _) haftermath (fun _ => rfl) fun _ _ => rfl

theorem spends_navalTrial {ships : UInt64} (h : ships ≠ 0) :
    Spends (navalTrial ships defender context factors) fun result =>
      if result.roundsWon = 0 then 6 else 7 := by
  rw [navalTrial_eq_score _ _ _ _ h]
  exact Fight.spends_score (spends_duelRound _ _) (spends_within _ _) (fun _ => rfl)
    fun _ _ => rfl

/-- A trial takes the draws that its action and its won rounds tell. -/
theorem spends_trial (action : Action) :
    Spends (action.trial defender context factors) fun result => action.draws result.roundsWon := by
  by_cases hidle : action.Idle
  · rw [Action.trial_of_idle hidle]
    simp only [Action.draws_of_idle hidle]
    exact .pure _
  · cases action with
    | ground soldiers tanks armed =>
      rw [Action.idle_ground] at hidle
      simp only [Action.draws, if_neg hidle]
      exact spends_groundTrial defender context factors ⟨soldiers, tanks, armed⟩ hidle
    | air aircraft target =>
      rw [Action.idle_air] at hidle
      simp only [Action.draws, if_neg hidle]
      exact spends_airTrial defender factors ⟨aircraft, target⟩ hidle
    | naval ships =>
      rw [Action.idle_naval] at hidle
      simp only [Action.draws, if_neg hidle]
      exact spends_navalTrial defender context factors hidle

/-- No factors make a trial have more than three won rounds. -/
theorem yields_roundsWon_le (action : Action) :
    Draw.Yields (action.trial defender context factors) (·.roundsWon ≤ 3) := by
  by_cases hidle : action.Idle
  · rw [Action.trial_of_idle hidle]
    cases action <;> exact .pure (Nat.zero_le 3)
  · cases action with
    | ground soldiers tanks armed =>
      rw [Action.idle_ground] at hidle
      rw [Action.trial, groundTrial_eq_score _ _ _ _ hidle]
      exact Fight.yields_roundsWon_le (fun _ => rfl) fun _ _ => rfl
    | air aircraft target =>
      rw [Action.idle_air] at hidle
      rw [Action.trial, airTrial_eq_score _ _ _ hidle]
      exact Fight.yields_roundsWon_le (fun _ => rfl) fun _ _ => rfl
    | naval ships =>
      rw [Action.idle_naval] at hidle
      rw [Action.trial, navalTrial_eq_score _ _ _ _ hidle]
      exact Fight.yields_roundsWon_le (fun _ => rfl) fun _ _ => rfl

end Trial

end BattleOdds
