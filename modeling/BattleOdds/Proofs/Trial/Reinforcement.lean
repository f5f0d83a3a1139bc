import BattleOdds.Proofs.Draw.Recoil
import BattleOdds.Proofs.Trial.Draws
import BattleOdds.Proofs.Trial.GroundBounds

/-!
# Reinforcement

A round takes as many words as it has rolls, so two trials of one kind roll their rounds with the
same words, whatever is sent into them. Of these words a reinforced side rolls no less than it would
have rolled before, and it wins each round that it would have won, unless an arm recoils that would
not have recoiled before. So many rounds at most may reinforcement lose.
-/
namespace BattleOdds
open Binary64

/-! ## Forces -/

/-- What a side sends into the rounds of a battle. -/
inductive Force
  | single (strength : Binary64)
  | combined (soldiers tanks : Binary64)

/-- In each arm the attacker rolls first. -/
def Side.turn : Side → ℕ
  | .attacker => 0
  | .defender => 1

/-- The unit draw of a side for an arm in a round that begins with a generator. -/
def Side.unitDraw (side : Side) (arm : ℕ) (g : Generator) : Binary64 :=
  Draw.unitOfWord (g.word (2 * arm + side.turn))

namespace Force

/-- The draws of a round in which both sides send such a force. -/
def draws : Force → ℕ
  | single _ => 2
  | combined .. => 4

/-- What the arms of a side roll in all in a round. -/
def total (side : Side) (g : Generator) : Force → Binary64
  | single strength => Draw.roll strength (side.unitDraw 0 g)
  | combined soldiers tanks =>
    Draw.roll soldiers (side.unitDraw 0 g) + Draw.roll tanks (side.unitDraw 1 g)

/-- In a round an arm of the second force recoils that does not recoil in the first. -/
def RecoilsAlone (side : Side) (g : Generator) : Force → Force → Prop
  | single strength, single strength' => Draw.RecoilsAlone strength strength' (side.unitDraw 0 g)
  | combined soldiers tanks, combined soldiers' tanks' =>
    Draw.RecoilsAlone soldiers soldiers' (side.unitDraw 0 g)
      ∨ Draw.RecoilsAlone tanks tanks' (side.unitDraw 1 g)
  | _, _ => False

instance (side : Side) (g : Generator) (f f' : Force) : Decidable (RecoilsAlone side g f f') :=
  match f, f' with
  | single _, single _ => inferInstanceAs (Decidable (Draw.RecoilsAlone _ _ _))
  | combined .., combined .. => inferInstanceAs (Decidable (_ ∨ _))
  | single _, combined .. => inferInstanceAs (Decidable False)
  | combined .., single _ => inferInstanceAs (Decidable False)

/-- The rounds of a battle in which an arm of the second force recoils alone. -/
def recoilRounds (side : Side) (g : Generator) (f f' : Force) : ℕ :=
  (List.range roundCount).countP fun i => f.RecoilsAlone side (g.skip (f.draws * i)) f'

/-- The second force is of the kind of the first, finite, and no weaker in any arm. -/
inductive Raised : Force → Force → Prop
  | single {x y : Binary64} (h : Under x y) (hf : y.isFinite = true) : Raised (single x) (single y)
  | combined {x y z w : Binary64} (hsoldiers : Under x y) (hfsoldiers : y.isFinite = true)
    (htanks : Under z w) (hftanks : w.isFinite = true) : Raised (combined x z) (combined y w)

/-- In a round in which no arm of it recoils alone the stronger force rolls no less. -/
theorem Raised.under_total {f f' : Force} (h : Raised f f') {side : Side} {g : Generator}
    (halone : ¬ f.RecoilsAlone side g f') : Under (f.total side g) (f'.total side g) := by
  have hunit (arm : ℕ) : Small 0 (side.unitDraw arm g) := Draw.small_unitOfWord _
  cases h with
  | single h hf => exact Draw.under_roll h hf (hunit 0) halone
  | combined hsoldiers hfsoldiers htanks hftanks =>
    obtain ⟨hsoldier, htank⟩ := not_or.mp halone
    exact (Draw.under_roll hsoldiers hfsoldiers (hunit 0) hsoldier).add
      (Draw.under_roll htanks hftanks (hunit 1) htank)

end Force

/-! ## The rounds of a trial -/

namespace Action

variable {action action' : Action} {defender defender' : Profile}

/-- What a side sends into the rounds of an action. -/
def force (action : Action) (defender : Profile) (factors : Factors) (side : Side) : Force :=
  match action with
  | .ground soldiers tanks armed =>
    let forces := GroundForces.muster { soldiers, tanks, armed } defender factors
    match side with
    | .attacker => .combined forces.attackerSoldiers forces.attackerTanks
    | .defender => .combined forces.defenderSoldiers forces.defenderTanks
  | .air aircraft _ =>
    match side with
    | .attacker => .single (ofUInt64 aircraft * aircraftStrength)
    | .defender => .single (ofUInt64 defender.aircraft * aircraftStrength)
  | .naval ships =>
    match side with
    | .attacker => .single (ofUInt64 ships * shipStrength)
    | .defender => .single (ofUInt64 defender.ships * shipStrength)

/-- The attacker wins a round that begins with a generator. -/
def WinsRound (action : Action) (defender : Profile) (factors : Factors) (g : Generator) : Prop :=
  (action.force defender factors .defender).total .defender g
    < (action.force defender factors .attacker).total .attacker g

instance (action : Action) (defender : Profile) (factors : Factors) (g : Generator) :
    Decidable (action.WinsRound defender factors g) := inferInstanceAs (Decidable (_ < _))

/-- A round begins as many draws after the one before it as both sides have arms. -/
theorem roundsWon_trial (hidle : ¬ action.Idle) (defender : Profile) (context : Context)
    (factors : Factors) (g : Generator) (side : Side) :
    (action.trial defender context factors g).1.roundsWon
      = (List.range roundCount).countP fun i => action.WinsRound defender factors
          (g.skip ((action.force defender factors side).draws * i)) := by
  cases action with
  | ground soldiers tanks armed =>
    rw [idle_ground] at hidle
    rw [trial, groundTrial_eq_score _ _ _ _ hidle]
    refine (Fight.roundsWon_score_draw (fun _ => rfl) (fun _ _ => rfl) g).trans ?_
    rw [(spends_roll _).times_eq_map, List.countP_map]
    cases side <;> rfl
  | air aircraft target =>
    rw [idle_air] at hidle
    rw [trial, airTrial_eq_score _ _ _ hidle]
    refine (Fight.roundsWon_score_draw (fun _ => rfl) (fun _ _ => rfl) g).trans ?_
    rw [(spends_duelRound _ _).times_eq_map, List.countP_map]
    cases side <;> rfl
  | naval ships =>
    rw [idle_naval] at hidle
    rw [trial, navalTrial_eq_score _ _ _ _ hidle]
    refine (Fight.roundsWon_score_draw (fun _ => rfl) (fun _ _ => rfl) g).trans ?_
    rw [(spends_duelRound _ _).times_eq_map, List.countP_map]
    cases side <;> rfl

theorem roundsWon_trial_of_idle (hidle : action.Idle) (defender : Profile) (context : Context)
    (factors : Factors) (g : Generator) :
    (action.trial defender context factors g).1.roundsWon = 0 := by
  rw [trial_of_idle hidle]
  cases action <;> rfl

end Action

/-! ## Reinforcement -/

/-- The second action commits no less, in the same way. -/
inductive Action.Reinforced : Action → Action → Prop
  | ground {soldiers soldiers' tanks tanks' : UInt64} {armed : Bool}
    (hsoldiers : soldiers ≤ soldiers') (htanks : tanks ≤ tanks') :
    Reinforced (.ground soldiers tanks armed) (.ground soldiers' tanks' armed)
  | air {aircraft aircraft' : UInt64} {target : AirTarget} (h : aircraft ≤ aircraft') :
    Reinforced (.air aircraft target) (.air aircraft' target)
  | naval {ships ships' : UInt64} (h : ships ≤ ships') : Reinforced (.naval ships) (.naval ships')

/-- The second profile has no fewer units and residents, and finitely many residents. -/
structure Profile.Reinforced (p p' : Profile) : Prop where
  soldiers : p.soldiers ≤ p'.soldiers
  tanks : p.tanks ≤ p'.tanks
  aircraft : p.aircraft ≤ p'.aircraft
  ships : p.ships ≤ p'.ships
  population : p.highestCityPopulation ≤ p'.highestCityPopulation
  isFinite : p'.highestCityPopulation.isFinite = true

section Strengths

variable {c : Binary64}

theorem small_strength (m : UInt64) (hc : Factor c) : Small 70 (ofUInt64 m * c) :=
  (small_ofUInt64 m).mul hc.small (by omega)

theorem hasValue_residentsPerDefender : HasValue 400.0 400 :=
  hasValue_of_fields (n := 400 * 2 ^ 44) (e := -44) rfl (by decide) (by norm_num)

/-- However many the residents are, the defenders among them leave room for the other factors. -/
theorem small_residents (hf : c.isFinite = true) : Small 1016 (c.max 0.0 / 400.0) := by
  have hmax := isFinite_max_zero hf
  have hnonneg := (nonNegative_max_zero c).le_value
  have hover := (isFinite_iff_value (isNaN_of_isFinite hmax)).mp hmax
  have hpower : Rounding.overflow = 2 ^ 1016 * 2 ^ 8 := by
    rw [Rounding.overflow, show (1024 : ℤ) = (1016 : ℕ) + (8 : ℕ) by norm_num,
      zpow_add₀ (by norm_num), zpow_natCast, zpow_natCast]
  rw [abs_of_nonneg hnonneg, hpower] at hover
  have hquot := hasValue_div hmax (show (400.0 : Binary64).isFinite = true by decide) (by
    rw [hasValue_residentsPerDefender.value_eq]
    norm_num)
  rw [hasValue_residentsPerDefender.value_eq] at hquot
  refine hquot.small (by positivity) ?_ (by omega)
  rw [div_le_iff₀ (by norm_num)]
  exact hover.le.trans (by gcongr; norm_num)

end Strengths

section Raised

variable {action action' : Action} {defender defender' : Profile} {factors : Factors}
variable (hf : factors.Positive)
include hf

theorem raised_attacker (h : action.Reinforced action') (defender : Profile) :
    (action.force defender factors .attacker).Raised
      (action'.force defender factors .attacker) := by
  cases h with
  | @ground _ _ _ _ armed hsoldiers htanks =>
    have hsoldier : Factor (soldierStrength armed) := by cases armed <;> exact .const (by decide)
    have htank : Factor tankStrength := .const (by decide)
    refine .combined ((under_ofUInt64 hsoldiers).mul (.refl hsoldier))
      ((small_strength _ hsoldier).isFinite (by omega))
      (((under_ofUInt64 htanks).mul (.refl htank)).mul (.refl hf.attackerTankStrength)) ?_
    exact ((small_strength _ htank).mul hf.attackerTankStrength.small (by omega)).isFinite
      (by omega)
  | air h =>
    have hstrength : Factor aircraftStrength := .const (by decide)
    exact .single ((under_ofUInt64 h).mul (.refl hstrength))
      ((small_strength _ hstrength).isFinite (by omega))
  | naval h =>
    have hstrength : Factor shipStrength := .const (by decide)
    exact .single ((under_ofUInt64 h).mul (.refl hstrength))
      ((small_strength _ hstrength).isFinite (by omega))

theorem raised_defender (h : defender.Reinforced defender') (action : Action) :
    (action.force defender factors .defender).Raised
      (action.force defender' factors .defender) := by
  cases action with
  | ground soldiers tanks armed =>
    have hsoldier : Factor (soldierStrength true) := .const (by decide)
    have htank : Factor tankStrength := .const (by decide)
    have hresidents : Under (defender.highestCityPopulation.max 0.0)
        (defender'.highestCityPopulation.max 0.0) :=
      ⟨nonNegative_max_zero _, max_zero_le_max_zero h.population⟩
    have hdivided := hresidents.div (show (400.0 : Binary64).isFinite = true by decide) (by
      rw [hasValue_residentsPerDefender.value_eq]
      norm_num)
    have heffective := ((small_ofUInt64 defender'.soldiers).mono (m := 1016) (by omega)).add
      (small_residents h.isFinite) (by omega)
    refine .combined (((under_ofUInt64 h.soldiers).add hdivided).mul (.refl hsoldier))
      ((heffective.mul hsoldier.small (by omega)).isFinite (by omega))
      (((under_ofUInt64 h.tanks).mul (.refl htank)).mul (.refl hf.defenderTankStrength)) ?_
    exact ((small_strength _ htank).mul hf.defenderTankStrength.small (by omega)).isFinite
      (by omega)
  | air aircraft target =>
    have hstrength : Factor aircraftStrength := .const (by decide)
    exact .single ((under_ofUInt64 h.aircraft).mul (.refl hstrength))
      ((small_strength _ hstrength).isFinite (by omega))
  | naval ships =>
    have hstrength : Factor shipStrength := .const (by decide)
    exact .single ((under_ofUInt64 h.ships).mul (.refl hstrength))
      ((small_strength _ hstrength).isFinite (by omega))

end Raised

/-! ## Rounds won -/

/-- Where each element that one test passes is passed by one of two others. -/
theorem countP_le_add {α : Type} {p q r : α → Bool} (l : List α)
    (h : ∀ a ∈ l, p a = true → r a = false → q a = true) :
    l.countP p ≤ l.countP q + l.countP r := by
  calc l.countP p
    _ = (l.filter r).countP p + (l.filter (!r ·)).countP p := List.countP_eq_countP_filter_add l p r
    _ ≤ (l.filter r).length + (l.filter (!r ·)).countP q := by
        refine Nat.add_le_add List.countP_le_length (List.countP_mono_left fun a ha hp => ?_)
        obtain ⟨hmem, hr⟩ := List.mem_filter.mp ha
        exact h a hmem hp (Bool.not_eq_true' _ |>.mp hr)
    _ ≤ l.countP q + l.countP r := by
        rw [← List.countP_eq_length_filter, Nat.add_comm]
        exact Nat.add_le_add_right List.filter_sublist.countP_le _

theorem Force.Raised.draws_eq {f f' : Force} (h : f.Raised f') : f'.draws = f.draws := by
  cases h <;> rfl

theorem Action.Reinforced.idle {action action' : Action} (h : action.Reinforced action')
    (hidle : action'.Idle) : action.Idle := by
  cases h with
  | ground hsoldiers htanks =>
    obtain ⟨rfl, rfl⟩ := Action.idle_ground.mp hidle
    exact Action.idle_ground.mpr ⟨UInt64.le_zero_iff.mp hsoldiers, UInt64.le_zero_iff.mp htanks⟩
  | air h =>
    obtain rfl := Action.idle_air.mp hidle
    exact Action.idle_air.mpr (UInt64.le_zero_iff.mp h)
  | naval h =>
    obtain rfl := Action.idle_naval.mp hidle
    exact Action.idle_naval.mpr (UInt64.le_zero_iff.mp h)

/-- The defenders of an action are the same however much it commits. -/
theorem Action.Reinforced.force_defender {action action' : Action} (h : action.Reinforced action')
    (defender : Profile) (factors : Factors) :
    action'.force defender factors .defender = action.force defender factors .defender := by
  cases h <;> rfl

/-- What an action commits does not depend on the defender. -/
theorem Action.force_attacker (action : Action) (defender defender' : Profile) (factors : Factors) :
    action.force defender' factors .attacker = action.force defender factors .attacker := by
  cases action <;> rfl

section RoundsWon

variable {action action' : Action} {defender defender' : Profile} {factors : Factors}
variable {f f' : Force} {side : Side} (context : Context) (g : Generator)

/-- Rounds that are won in one trial and lost in another are no more than those in which an arm
recoils alone, if there is no other way to lose them. -/
theorem roundsWon_le_add (hidle : action'.Idle → action.Idle)
    (hdraws : (action.force defender factors side).draws = f.draws)
    (hdraws' : (action'.force defender' factors side).draws = f.draws)
    (hround : ∀ g, action.WinsRound defender factors g → ¬ f.RecoilsAlone side g f' →
      action'.WinsRound defender' factors g) :
    (action.trial defender context factors g).1.roundsWon
      ≤ (action'.trial defender' context factors g).1.roundsWon + f.recoilRounds side g f' := by
  by_cases h : action.Idle
  · rw [Action.roundsWon_trial_of_idle h]
    exact Nat.zero_le _
  · rw [Action.roundsWon_trial h _ _ _ _ side, Action.roundsWon_trial (mt hidle h) _ _ _ _ side,
      hdraws, hdraws']
    refine countP_le_add _ fun i _ hwon halone => ?_
    exact decide_eq_true (hround _ (of_decide_eq_true hwon) (of_decide_eq_false halone))

variable (hf : factors.Positive)
include hf

theorem roundsWon_attacker (h : action.Reinforced action') (defender : Profile) :
    (action.trial defender context factors g).1.roundsWon
      ≤ (action'.trial defender context factors g).1.roundsWon
        + (action.force defender factors .attacker).recoilRounds .attacker g
          (action'.force defender factors .attacker) := by
  have hraised := raised_attacker hf h defender
  refine roundsWon_le_add context g h.idle rfl hraised.draws_eq fun g hwon halone => ?_
  have hmore := (hraised.under_total halone).le
  have hsame := h.force_defender defender factors
  unfold Action.WinsRound at hwon ⊢
  rw [hsame]
  exact lt_of_le_of_lt_of_le (le_refl_of_isNaN (isNaN_of_lt hwon).1) hwon hmore

theorem roundsWon_defender (h : defender.Reinforced defender') (action : Action) :
    (action.trial defender' context factors g).1.roundsWon
      ≤ (action.trial defender context factors g).1.roundsWon
        + (action.force defender factors .defender).recoilRounds .defender g
          (action.force defender' factors .defender) := by
  have hraised := raised_defender hf h action
  refine roundsWon_le_add context g id hraised.draws_eq rfl fun g hwon halone => ?_
  have hmore := (hraised.under_total halone).le
  have hsame := action.force_attacker defender defender' factors
  unfold Action.WinsRound at hwon ⊢
  rw [hsame] at hwon
  exact lt_of_le_of_lt_of_le hmore hwon (le_refl_of_isNaN (isNaN_of_lt hwon).2)

end RoundsWon

/-- From one generator a reinforced attacker wins no fewer rounds, and one against a reinforced
defender no more, but for rounds in which an arm of the reinforced side recoils that would not have
recoiled without reinforcement. Only the seven greatest of all unit draws make an arm recoil, unless
it is next to nothing. -/
theorem roundsWon_reinforced (context : Context) (fortified : Bool) (g : Generator) :
    let factors := Factors.resolve context fortified
    (∀ (action action' : Action) (defender : Profile), action.Reinforced action' →
        (action.trial defender context factors g).1.roundsWon
          ≤ (action'.trial defender context factors g).1.roundsWon
            + (action.force defender factors .attacker).recoilRounds .attacker g
              (action'.force defender factors .attacker))
    ∧ (∀ (action : Action) (defender defender' : Profile), defender.Reinforced defender' →
        (action.trial defender' context factors g).1.roundsWon
          ≤ (action.trial defender context factors g).1.roundsWon
            + (action.force defender factors .defender).recoilRounds .defender g
              (action.force defender' factors .defender))
    ∧ ∀ (strength : Binary64) (word : UInt64), strength.isFinite = true →
        2 ^ (-1000 : ℤ) ≤ strength.value → Draw.Recoils strength (Draw.unitOfWord word) →
        2 ^ 53 - 8 < word.toNat / 2 ^ 11 := by
  intro factors
  have hf : factors.Positive := Factors.positive_resolve context fortified
  refine ⟨fun action action' defender h => roundsWon_attacker context g hf h defender,
    fun action defender defender' h => roundsWon_defender context g hf h action, ?_⟩
  intro strength word hfinite hlow hrecoils
  exact Draw.lt_toNat_of_recoils
    ⟨isNaN_of_isFinite hfinite, le_trans (by positivity) hlow⟩ hfinite hlow hrecoils

set_option maxRecDepth 20000 in
/-- A ground battle with more attackers, and with more defenders, in which no arm recoils; and a
force of three ships that recoils for the greatest unit draw. -/
theorem roundsWon_reinforced_of_ground :
    let factors := Factors.resolve {} false
    let g := Generator.ofSeed 7
    let lesser : Action := .ground 100 2 true
    let greater : Action := .ground 150 3 true
    let defender : Profile := { soldiers := 120, tanks := 2, highestCityPopulation := 4000.0 }
    let defender' : Profile := { defender with soldiers := 140, highestCityPopulation := 8000.0 }
    let word := (Generator.ofSeed 1264356297721974).word 4
    lesser.Reinforced greater ∧ defender.Reinforced defender'
    ∧ (lesser.trial defender {} factors g).1.roundsWon
        ≤ (greater.trial defender {} factors g).1.roundsWon
    ∧ (lesser.trial defender' {} factors g).1.roundsWon
        ≤ (lesser.trial defender {} factors g).1.roundsWon
    ∧ Draw.Recoils 12.0 (Draw.unitOfWord word) ∧ 2 ^ 53 - 8 < word.toNat / 2 ^ 11 := by
  intro factors g lesser greater defender defender' word
  obtain ⟨hattacker, hdefender, hrare⟩ := roundsWon_reinforced {} false g
  have hmore : lesser.Reinforced greater := .ground (by decide) (by decide)
  have hdefended : defender.Reinforced defender' :=
    ⟨by decide, by decide, by decide, by decide, by decide, by decide⟩
  have hone : (1.0 : Binary64) ≤ 12.0 := by decide
  have hvalue := value_le_of_le hone
  rw [hasValue_one.value_eq] at hvalue
  have hlow : (2 : ℚ) ^ (-1000 : ℤ) ≤ (12.0 : Binary64).value :=
    (zpow_le_one_of_nonpos₀ (by norm_num) (by norm_num)).trans hvalue
  have hrecoils : Draw.Recoils 12.0 (Draw.unitOfWord word) := by decide
  have hnone : (lesser.force defender factors .attacker).recoilRounds .attacker g
      (greater.force defender factors .attacker) = 0 := by decide
  have hnone' : (lesser.force defender factors .defender).recoilRounds .defender g
      (lesser.force defender' factors .defender) = 0 := by decide
  have hwon := hattacker lesser greater defender hmore
  have hwon' := hdefender lesser defender defender' hdefended
  rw [hnone, Nat.add_zero] at hwon
  rw [hnone', Nat.add_zero] at hwon'
  exact ⟨hmore, hdefended, hwon, hwon', hrecoils, hrare 12.0 word (by decide) hlow hrecoils⟩

set_option maxRecDepth 20000 in
/-- A third attacking ship loses a round to a recoil, and a third defending ship another. -/
theorem fleet_recoils :
    let factors := Factors.resolve {} false
    let g := Generator.ofSeed 1264356297721974
    let h := Generator.ofSeed 85336213024208202
    (Action.naval 2).Reinforced (.naval 3)
    ∧ ((Action.naval 2).trial { ships := 2 } {} factors g).1.roundsWon = 3
    ∧ ((Action.naval 3).trial { ships := 2 } {} factors g).1.roundsWon = 2
    ∧ Profile.Reinforced { ships := 2 } { ships := 3 }
    ∧ ((Action.naval 2).trial { ships := 2 } {} factors h).1.roundsWon = 0
    ∧ ((Action.naval 2).trial { ships := 3 } {} factors h).1.roundsWon = 1 := by
  intro factors g h
  have hidle (ships : UInt64) (hships : ships ≠ 0) : ¬ (Action.naval ships).Idle :=
    mt Action.idle_naval.mp hships
  have htwo := hidle 2 (by decide)
  have hthree := hidle 3 (by decide)
  refine ⟨.naval (by decide), ?_, ?_,
    ⟨by decide, by decide, by decide, by decide, by decide, by decide⟩, ?_, ?_⟩
  · rw [Action.roundsWon_trial htwo _ _ _ _ .attacker]
    decide
  · rw [Action.roundsWon_trial hthree _ _ _ _ .attacker]
    decide
  · rw [Action.roundsWon_trial htwo _ _ _ _ .attacker]
    decide
  · rw [Action.roundsWon_trial htwo _ _ _ _ .attacker]
    decide

end BattleOdds
