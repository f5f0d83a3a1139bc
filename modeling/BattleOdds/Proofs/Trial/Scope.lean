import BattleOdds.Proofs.Trial.Draws

/-!
# What an action may touch

An action costs each side units of certain types only, and which ones is a table: the arms that
fight and, where the attacker wins a round, those that a strike is sent against or that are caught
on the ground. Loot belongs to ground battles and improvements are out of reach of air strikes. A
trial without a won round has no effect besides its losses, and a chance against improvements takes
three.
-/
namespace BattleOdds

/-- The units that a strike is sent against, if it is sent against units that do not fly. -/
def AirTarget.unit? : AirTarget → Option UnitType
  | .soldiers => some .soldiers
  | .tanks => some .tanks
  | .ships => some .ships
  | .infra | .aircraft | .money => none

/-- Whether a trial with a number of won rounds may cost a side units of a type, under a holder of
ground control. -/
def Action.exposes (action : Action) (control : Holder) (won : ℕ) : Side → UnitType → Bool :=
  match action with
  | .ground .. => fun
    | _, .soldiers | _, .tanks => true
    | .defender, .aircraft => control = .attacker ∧ won ≠ 0
    | _, _ => false
  | .air _ target => fun
    | _, .aircraft => true
    | .defender, unit => target.unit? = some unit ∧ won ≠ 0
    | _, _ => false
  | .naval _ => fun
    | _, .ships => true
    | _, _ => false

def TrialResult.losses (result : TrialResult) : Side → UnitLosses
  | .attacker => result.attackerLosses
  | .defender => result.defenderLosses

/-- A result has no effects beyond those of its action and of the rounds that were won. -/
structure TrialResult.WithinScope (action : Action) (control : Holder) (result : TrialResult) :
    Prop where
  losses (side : Side) (unit : UnitType)
    (h : action.exposes control result.roundsWon side unit = false) :
    (result.losses side).of unit = 0.0
  infraDestroyed (h : result.roundsWon = 0) : result.infraDestroyed = 0.0
  isSome_moneyLooted : result.moneyLooted.isSome = true ↔ action.kind = .ground
  moneyLooted (h : result.roundsWon = 0) (loot : Binary64)
    (hloot : result.moneyLooted = some loot) : loot = 0.0
  isSome_improvementChance : result.improvementChance.isSome = true ↔ action.kind ≠ .air
  improvementChance (h : result.roundsWon ≠ 3) (chance : Binary64)
    (hchance : result.improvementChance = some chance) : chance = 0.0
  moneyDestroyed : result.moneyDestroyed = none

/-- Short of three won rounds no improvement is in danger. -/
theorem improvementChance_eq_zero {won : ℕ} (h : won ≠ 3) (hle : won ≤ 3) (base : Binary64)
    (context : Context) : improvementChance base won context = 0.0 :=
  if_pos (Nat.lt_of_le_of_ne hle h)

/-- Where nothing is committed, nothing is touched. -/
theorem withinScope_idleResult (action : Action) (control : Holder) :
    action.idleResult.WithinScope action control where
  losses side unit _ := by
    cases action <;> cases side <;> cases unit <;> rfl
  infraDestroyed _ := by cases action <;> rfl
  isSome_moneyLooted := by
    cases action
    · exact iff_of_true rfl rfl
    all_goals exact iff_of_false Bool.false_ne_true ActionKind.noConfusion
  moneyLooted _ loot hloot := by
    cases action <;> cases hloot
    rfl
  isSome_improvementChance := by
    cases action
    case air => exact iff_of_false Bool.false_ne_true (absurd rfl)
    all_goals exact iff_of_true rfl ActionKind.noConfusion
  improvementChance _ chance hchance := by
    cases action <;> cases hchance <;> rfl
  moneyDestroyed := by cases action <;> rfl

section Scope

variable {defender : Profile} {context : Context} {factors : Factors}

/-! ## Ground battles -/

theorem withinScope_groundDefeat (order : GroundOrder) (rounds : List GroundRolls) :
    (groundDefeat order defender factors rounds).WithinScope
      (.ground order.soldiers order.tanks order.armed) context.groundControl where
  losses side unit h := by
    cases side <;> cases unit
    case attacker.soldiers | attacker.tanks | defender.soldiers | defender.tanks => cases h
    all_goals rfl
  infraDestroyed _ := rfl
  isSome_moneyLooted := iff_of_true rfl rfl
  moneyLooted _ loot hloot := (Option.some.inj hloot).symm
  isSome_improvementChance := iff_of_true rfl ActionKind.noConfusion
  improvementChance _ chance hchance := (Option.some.inj hchance).symm
  moneyDestroyed := rfl

/-- Aircraft are caught on the ground by an attacker that holds it. -/
theorem groundControlLoss_eq_zero {control : Holder} (h : control ≠ .attacker) (order : GroundOrder)
    (defender : Profile) (won : ℕ) : groundControlLoss order defender control won = 0.0 := by
  cases control with
  | attacker => exact absurd rfl h
  | defender => rfl
  | none => rfl

theorem withinScope_groundVictory (order : GroundOrder) {rounds : List GroundRolls}
    (variances : Binary64 × Binary64) (hlength : rounds.length = roundCount)
    (hwon : rounds.countP GroundRolls.attackerWon ≠ 0) :
    (groundVictory order defender context factors rounds variances).WithinScope
      (.ground order.soldiers order.tanks order.armed) context.groundControl where
  losses side unit h := by
    have hdefeat : (groundDefeat order defender factors rounds).WithinScope
      (.ground order.soldiers order.tanks order.armed) context.groundControl :=
      withinScope_groundDefeat order rounds
    cases side with
    | attacker => exact hdefeat.losses .attacker unit h
    | defender =>
      cases unit with
      | aircraft =>
        have hcontrol : context.groundControl ≠ .attacker := fun hc =>
          of_decide_eq_false h ⟨hc, hwon⟩
        exact groundControlLoss_eq_zero hcontrol order defender _
      | soldiers => cases h
      | tanks => cases h
      | ships => rfl
  infraDestroyed h := absurd h hwon
  isSome_moneyLooted := iff_of_true rfl rfl
  moneyLooted h := absurd h hwon
  isSome_improvementChance := iff_of_true rfl ActionKind.noConfusion
  improvementChance h chance hchance := (Option.some.inj hchance).symm.trans
    (improvementChance_eq_zero h (countP_le_three hlength _) _ context)
  moneyDestroyed := rfl

theorem withinScope_groundTrial (order : GroundOrder)
    (h : ¬ (order.soldiers = 0 ∧ order.tanks = 0)) :
    Draw.Yields (groundTrial order defender context factors)
      (TrialResult.WithinScope (.ground order.soldiers order.tanks order.armed)
        context.groundControl) := by
  rw [groundTrial_eq_score _ _ _ _ h]
  exact Fight.yields_score_of_forall (fun rounds _ => withinScope_groundDefeat order rounds)
    fun rounds variances => withinScope_groundVictory order variances

/-! ## Air strikes -/

theorem withinScope_airDefeat (order : AirOrder) (control : Holder) (rounds : List DuelRolls) :
    (airDefeat order defender factors rounds).WithinScope (.air order.aircraft order.target)
      control where
  losses side unit h := by
    cases side <;> cases unit
    case attacker.aircraft | defender.aircraft => cases h
    all_goals rfl
  infraDestroyed _ := rfl
  isSome_moneyLooted := iff_of_false Bool.false_ne_true ActionKind.noConfusion
  moneyLooted _ loot hloot := by cases hloot
  isSome_improvementChance := iff_of_false Bool.false_ne_true (absurd rfl)
  improvementChance _ chance hchance := by cases hchance
  moneyDestroyed := rfl

/-- A strike books destroyed units under the type that is its target. -/
theorem of_bookAttrition {target : AirTarget} {unit : UnitType} (h : target.unit? ≠ some unit)
    (losses : UnitLosses) (destroyed : Binary64) :
    (bookAttrition target losses destroyed).of unit = losses.of unit := by
  cases target <;> cases unit
  case soldiers.soldiers | tanks.tanks | ships.ships => exact absurd rfl h
  all_goals rfl

theorem of_airLosses (order : AirOrder) {unit : UnitType} (h : order.target.unit? ≠ some unit)
    (rounds : List DuelRolls) (attrition : Option Binary64) :
    (airLosses order defender factors rounds attrition).of unit
      = (airDefeat order defender factors rounds).defenderLosses.of unit := by
  unfold airLosses
  split
  · exact of_bookAttrition h _ _
  · rfl

theorem withinScope_airVictory (order : AirOrder) (control : Holder) {rounds : List DuelRolls}
    (variances : Option Binary64 × Binary64)
    (hwon : rounds.countP DuelRolls.attackerWon ≠ 0) :
    (airVictory order defender factors rounds variances).WithinScope
      (.air order.aircraft order.target) control where
  losses side unit h := by
    have hdefeat : (airDefeat order defender factors rounds).WithinScope
      (.air order.aircraft order.target) control := withinScope_airDefeat order control rounds
    cases side with
    | attacker => exact hdefeat.losses .attacker unit h
    | defender =>
      have hflies : unit ≠ .aircraft := by
        rintro rfl
        cases h
      have htarget : order.target.unit? ≠ some unit := by
        intro ht
        cases unit
        case aircraft => exact hflies rfl
        all_goals exact of_decide_eq_false h ⟨ht, hwon⟩
      refine (of_airLosses order htarget rounds variances.1).trans ?_
      cases unit
      case aircraft => exact absurd rfl hflies
      all_goals rfl
  infraDestroyed h := absurd h hwon
  isSome_moneyLooted := iff_of_false Bool.false_ne_true ActionKind.noConfusion
  moneyLooted _ loot hloot := by cases hloot
  isSome_improvementChance := iff_of_false Bool.false_ne_true (absurd rfl)
  improvementChance _ chance hchance := by cases hchance
  moneyDestroyed := rfl

theorem withinScope_airTrial (order : AirOrder) (control : Holder) (h : order.aircraft ≠ 0) :
    Draw.Yields (airTrial order defender factors)
      (TrialResult.WithinScope (.air order.aircraft order.target) control) := by
  rw [airTrial_eq_score _ _ _ h]
  exact Fight.yields_score_of_forall (fun rounds _ => withinScope_airDefeat order control rounds)
    fun rounds variances _ => withinScope_airVictory order control variances

/-! ## Naval battles -/

theorem withinScope_navalDefeat (ships : UInt64) (control : Holder) (rounds : List DuelRolls) :
    (navalDefeat ships defender factors rounds).WithinScope (.naval ships) control where
  losses side unit h := by
    cases side <;> cases unit
    case attacker.ships | defender.ships => cases h
    all_goals rfl
  infraDestroyed _ := rfl
  isSome_moneyLooted := iff_of_false Bool.false_ne_true ActionKind.noConfusion
  moneyLooted _ loot hloot := by cases hloot
  isSome_improvementChance := iff_of_true rfl ActionKind.noConfusion
  improvementChance _ chance hchance := (Option.some.inj hchance).symm
  moneyDestroyed := rfl

theorem withinScope_navalVictory (ships : UInt64) (control : Holder) {rounds : List DuelRolls}
    (variance : Binary64) (hlength : rounds.length = roundCount)
    (hwon : rounds.countP DuelRolls.attackerWon ≠ 0) :
    (navalVictory ships defender context factors rounds variance).WithinScope (.naval ships)
      control where
  losses side unit h := (withinScope_navalDefeat ships control rounds).losses side unit h
  infraDestroyed h := absurd h hwon
  isSome_moneyLooted := iff_of_false Bool.false_ne_true ActionKind.noConfusion
  moneyLooted _ loot hloot := by cases hloot
  isSome_improvementChance := iff_of_true rfl ActionKind.noConfusion
  improvementChance h chance hchance := (Option.some.inj hchance).symm.trans
    (improvementChance_eq_zero h (countP_le_three hlength _) _ context)
  moneyDestroyed := rfl

theorem withinScope_navalTrial {ships : UInt64} (h : ships ≠ 0) (control : Holder) :
    Draw.Yields (navalTrial ships defender context factors)
      (TrialResult.WithinScope (.naval ships) control) := by
  rw [navalTrial_eq_score _ _ _ _ h]
  exact Fight.yields_score_of_forall (fun rounds _ => withinScope_navalDefeat ships control rounds)
    fun rounds variance => withinScope_navalVictory ships control variance

end Scope

/-- No factors take a trial beyond the scope of its action. -/
theorem withinScope_trial (action : Action) (defender : Profile) (context : Context)
    (factors : Factors) :
    Draw.Yields (action.trial defender context factors)
      (TrialResult.WithinScope action context.groundControl) := by
  by_cases hidle : action.Idle
  · rw [Action.trial_of_idle hidle]
    exact .pure (withinScope_idleResult action _)
  · cases action with
    | ground soldiers tanks armed =>
      exact withinScope_groundTrial ⟨soldiers, tanks, armed⟩ (mt Action.idle_ground.mpr hidle)
    | air aircraft target =>
      exact withinScope_airTrial ⟨aircraft, target⟩ _ (mt Action.idle_air.mpr hidle)
    | naval ships => exact withinScope_navalTrial (mt Action.idle_naval.mpr hidle) _

end BattleOdds
