import BattleOdds.Proofs.Files.Folder
import BattleOdds.Proofs.Run.Batched
import BattleOdds.Session

/-!
# What a session reads

Before a session writes anything it reads the request, the settings and the prices, which leaves the
folder as it is. What it gets from each is said here of the folder alone: a value that a file holds,
or a default in place of a file that is not there.
-/
namespace BattleOdds

/-- The file at a path holds a value, in the format that the path says. -/
def Folder.Holds {α : Type} [FromNode α] (folder : Folder) (path : String) (a : α) : Prop :=
  ∃ s, folder.load path = .ok s ∧ decode (.ofPath path) s = .ok a

/-- What a file holds, given something that is known of it. -/
theorem Folder.exists_holds {α β : Type} [FromNode α] {folder : Folder} {path s : String}
    {f : α → β} {b : β} (hload : folder.load path = .ok s)
    (hdecode : (decode (.ofPath path) s : Except DocumentError α).toOption.map f = some b) :
    ∃ a, folder.Holds path a ∧ f a = b := by
  cases h : (decode (.ofPath path) s : Except DocumentError α) with
  | error e => simp [h, Except.toOption] at hdecode
  | ok a =>
    rw [h] at hdecode
    exact ⟨a, ⟨s, hload, h⟩, Option.some.inj hdecode⟩

/-- The file at a path holds a request without faults. -/
def Folder.Requests (folder : Folder) (path : String) (r : Request) : Prop :=
  folder.Holds path r ∧ r.faults = []

/-- The settings kept at a path: those of the file, or the default ones if there is none. -/
def Folder.Keeps (folder : Folder) (path : String) (settings : Settings) : Prop :=
  folder.Holds path settings ∨ ¬ folder.Exists path ∧ settings = {}

/-- The name of the settings file: of the command line, of the environment, or the default one. -/
def selectedPath (settingsPath : Option String) (options : Options) : String :=
  (options.configPath <|> settingsPath).getD Session.defaultSettingsPath

/-- The prices of a session: those of the file that the command line names, whole, or the kept
ones. -/
def Folder.Charges (folder : Folder) (options : Options) (kept : Settings) (prices : Prices) :
    Prop :=
  match options.pricesPath with
  | some path => folder.Holds path prices
  | none => prices = kept.prices

/-- The settings of a session: the kept ones with what the command line says. -/
def Folder.Resolves (folder : Folder) (settingsPath : Option String) (options : Options)
    (settings : Settings) : Prop :=
  ∃ kept, folder.Keeps (selectedPath settingsPath options) kept
    ∧ ∃ prices, folder.Charges options kept prices
      ∧ settings =
        { prices
          parallel := kept.parallel || options.parallel
          workers := options.workers.getD kept.workers }

/-- The request with the seed of the command line, if there is one. -/
def Request.seededBy (r : Request) (options : Options) : Request :=
  { r with seed := options.seed <|> r.seed }

/-- A seed does not make a request invalid. -/
theorem Request.faults_seededBy (r : Request) (options : Options) :
    (r.seededBy options).faults = r.faults := rfl

/-- There are settings unless a file is kept in their place that holds none. -/
theorem Folder.exists_keeps_iff (folder : Folder) (path : String) :
    (∃ settings, folder.Keeps path settings)
      ↔ ¬ (folder.Exists path ∧ ¬ ∃ settings : Settings, folder.Holds path settings) := by
  simp only [Keeps]
  by_cases hexists : folder.Exists path
  · simp [hexists]
  · simp [hexists]

/-- The settings of a session fail with a file that does not hold what it should. -/
theorem Folder.exists_resolves_iff (folder : Folder) (settingsPath : Option String)
    (options : Options) :
    (∃ settings, folder.Resolves settingsPath options settings)
      ↔ (∃ kept, folder.Keeps (selectedPath settingsPath options) kept)
        ∧ ¬ ∃ path, options.pricesPath = some path
          ∧ ¬ ∃ prices : Prices, folder.Holds path prices := by
  have hcharges (kept : Settings) : (∃ prices, folder.Charges options kept prices)
      ↔ ¬ ∃ path, options.pricesPath = some path
        ∧ ¬ ∃ prices : Prices, folder.Holds path prices := by
    unfold Charges
    cases options.pricesPath with
    | some path => simp
    | none => simp
  constructor
  · rintro ⟨_, kept, hkept, prices, hprices, -⟩
    exact ⟨⟨kept, hkept⟩, (hcharges kept).mp ⟨prices, hprices⟩⟩
  · rintro ⟨⟨kept, hkept⟩, h⟩
    obtain ⟨prices, hprices⟩ := (hcharges kept).mpr h
    exact ⟨_, kept, hkept, prices, hprices, rfl⟩

/-! ## One value at each place -/

section Unique

variable {folder : Folder} {settingsPath : Option String} {options : Options} {path : String}

/-- A file holds one value. -/
theorem Folder.Holds.unique {α : Type} [FromNode α] {a b : α} (ha : folder.Holds path a)
    (hb : folder.Holds path b) : a = b := by
  obtain ⟨s, hs, ha⟩ := ha
  obtain ⟨t, ht, hb⟩ := hb
  cases hs.symm.trans ht
  exact Except.ok.inj (ha.symm.trans hb)

theorem Folder.Holds.exists {α : Type} [FromNode α] {a : α} (h : folder.Holds path a) :
    folder.Exists path := by
  obtain ⟨s, hload, -⟩ := h
  exact Folder.exists_of_load hload

theorem Folder.Keeps.unique {settings settings' : Settings} (h : folder.Keeps path settings)
    (h' : folder.Keeps path settings') : settings = settings' := by
  obtain hholds | ⟨habsent, rfl⟩ := h <;> obtain hholds' | ⟨habsent', rfl⟩ := h'
  · exact hholds.unique hholds'
  · exact absurd hholds.exists habsent'
  · exact absurd hholds'.exists habsent
  · rfl

theorem Folder.Charges.unique {kept : Settings} {prices prices' : Prices}
    (h : folder.Charges options kept prices) (h' : folder.Charges options kept prices') :
    prices = prices' := by
  unfold Folder.Charges at h h'
  cases hpath : options.pricesPath with
  | some file =>
    rw [hpath] at h h'
    exact h.unique h'
  | none =>
    rw [hpath] at h h'
    exact h.trans h'.symm

/-- A session has one value of its settings. -/
theorem Folder.Resolves.unique {settings settings' : Settings}
    (h : folder.Resolves settingsPath options settings)
    (h' : folder.Resolves settingsPath options settings') : settings = settings' := by
  obtain ⟨kept, hkept, prices, hprices, rfl⟩ := h
  obtain ⟨kept', hkept', prices', hprices', rfl⟩ := h'
  obtain rfl := hkept.unique hkept'
  rw [hprices.unique hprices']

end Unique

/-! ## Steps that read -/

namespace Session
open Folder (station)

variable {α β : Type} {folder : Folder} {machine : Machine} {settingsPath : Option String}
  {entropy : UInt64} {moment : Timestamp} {path : String} {options : Options}

/-- An action leaves the folder as it is, and gives exactly the value with a property, if there is
one. -/
def Reads (action : ExceptT LoadError (StateM Folder) α) (folder : Folder) (P : α → Prop) : Prop :=
  ∃ result : Except LoadError α,
    action.run.run folder = (result, folder) ∧ ∀ a, result = .ok a ↔ P a

namespace Reads

variable {action : ExceptT LoadError (StateM Folder) α} {P : α → Prop}

theorem pure (a : α) : Reads (Pure.pure a) folder (· = a) :=
  ⟨.ok a, rfl, fun b => by rw [Except.ok.injEq, eq_comm]⟩

theorem throw (e : LoadError) :
    Reads (MonadExcept.throw e : ExceptT LoadError (StateM Folder) α) folder fun _ => False :=
  ⟨.error e, rfl, fun a => by simp⟩

/-- A result that is there already. -/
theorem lift (x : Except LoadError α) :
    Reads (liftM x : ExceptT LoadError (StateM Folder) α) folder (x = .ok ·) :=
  ⟨x, by cases x <;> rfl, fun a => Iff.rfl⟩

theorem bind {k : α → ExceptT LoadError (StateM Folder) β} {Q : α → β → Prop}
    (h : Reads action folder P) (hk : ∀ a, P a → Reads (k a) folder (Q a)) :
    Reads (action >>= k) folder fun b => ∃ a, P a ∧ Q a b := by
  obtain ⟨result, hrun, hresult⟩ := h
  cases result with
  | error e =>
    refine ⟨.error e, ?_, fun b => ?_⟩
    · rw [ExceptT.run_bind, StateT.run_bind, hrun]
      rfl
    · refine iff_of_false (fun h => by cases h) ?_
      rintro ⟨a, ha, -⟩
      cases (hresult a).mpr ha
  | ok a =>
    -- No other value has the property, so the second step goes on from this one only.
    have ha : ∀ a', P a' ↔ a = a' := fun a' => by rw [← hresult, Except.ok.injEq]
    obtain ⟨result, hrun', hresult'⟩ := hk a ((ha a).mpr rfl)
    refine ⟨result, ?_, fun b => ?_⟩
    · rw [ExceptT.run_bind, StateT.run_bind, hrun]
      exact hrun'
    · rw [hresult' b]
      constructor
      · exact fun hb => ⟨a, (ha a).mpr rfl, hb⟩
      · rintro ⟨a', ha', hb⟩
        rwa [(ha a').mp ha']

theorem of_iff {Q : α → Prop} (h : Reads action folder P) (hPQ : ∀ a, P a ↔ Q a) :
    Reads action folder Q := by
  obtain ⟨result, hrun, hresult⟩ := h
  exact ⟨result, hrun, fun a => (hresult a).trans (hPQ a)⟩

end Reads

/-- What the folder gives for a path. -/
theorem reads_station (path : String) :
    Reads (liftM ((station machine settingsPath entropy moment).load path)) folder
      (folder.load path = ·) :=
  ⟨.ok (folder.load path), rfl, fun a => by rw [Except.ok.injEq]⟩

theorem decodeFile_eq_ok [FromNode α] {s : String} {a : α} :
    decodeFile path s = .ok a ↔ decode (.ofPath path) s = .ok a := by
  rw [decodeFile]
  cases (decode (.ofPath path) s : Except DocumentError α) with
  | error e => exact iff_of_false (fun h => by cases h) fun h => by cases h
  | ok b => simp only [Except.mapError, Except.ok.injEq]

theorem reads_load [FromNode α] (path : String) :
    Reads (load (station machine settingsPath entropy moment) path :
      ExceptT LoadError (StateM Folder) α) folder (folder.Holds path) := by
  refine (Reads.bind (Q := fun loaded a => ∃ s, loaded = .ok s ∧ decode (.ofPath path) s = .ok a)
    (reads_station path) fun loaded _ => ?_).of_iff fun a => ?_
  · cases loaded with
    | ok s =>
      refine (Reads.lift _).of_iff fun a => ?_
      rw [decodeFile_eq_ok]
      simp
    | error fault =>
      refine (Reads.throw _).of_iff fun a => ?_
      simp
  · simp [Folder.Holds]

theorem reads_loadRequest (folder : Folder) (machine : Machine) (settingsPath : Option String)
    (entropy : UInt64) (moment : Timestamp) (path : String) :
    Reads (loadRequest (station machine settingsPath entropy moment) path) folder
      (folder.Requests path) := by
  refine (Reads.bind (Q := fun r a => r.faults = [] ∧ a = r) (reads_load path) fun r _ => ?_).of_iff
    fun a => ?_
  · cases hvalid : r.validate with
    | ok _ =>
      refine (Reads.pure r).of_iff fun a => ?_
      simp [Request.validate_eq_ok_iff.mp hvalid]
    | error e =>
      have hfaults : r.faults ≠ [] := fun h => by
        rw [Request.validate_eq_ok_iff.mpr h] at hvalid
        cases hvalid
      refine (Reads.throw _).of_iff fun a => ?_
      simp [hfaults]
  · constructor
    · rintro ⟨r, hr, hfaults, rfl⟩
      exact ⟨hr, hfaults⟩
    · rintro ⟨hr, hfaults⟩
      exact ⟨a, hr, hfaults, rfl⟩

theorem reads_loadSettings (options : Options) :
    Reads (loadSettings (station machine settingsPath entropy moment) options) folder
      (folder.Keeps (selectedPath settingsPath options)) := by
  let P (loaded : Except FileFault String) (settings : Settings) : Prop :=
    (∃ s, loaded = .ok s ∧ decode (.ofPath (selectedPath settingsPath options)) s = .ok settings)
      ∨ (∃ fault, loaded = .error fault ∧ fault.isAbsent = true) ∧ settings = {}
  refine (Reads.bind (Q := P) (reads_station _) fun loaded _ => ?_).of_iff fun settings => ?_
  · cases loaded with
    | ok s =>
      refine (Reads.lift _).of_iff fun a => ?_
      rw [decodeFile_eq_ok]
      simp [P, selectedPath, station]
    | error fault =>
      cases habsent : fault.isAbsent with
      | true =>
        dsimp only
        rw [habsent]
        refine (Reads.pure _).of_iff fun a => ?_
        simp [P, habsent]
      | false =>
        dsimp only
        rw [habsent]
        refine (Reads.throw _).of_iff fun a => ?_
        simp [P, habsent]
  · simp only [exists_eq_left', P, Folder.Keeps, Folder.Holds, Folder.not_exists_iff]
    rfl

theorem reads_effectiveSettings (folder : Folder) (machine : Machine)
    (settingsPath : Option String) (entropy : UInt64) (moment : Timestamp) (options : Options) :
    Reads (effectiveSettings (station machine settingsPath entropy moment) options) folder
      (folder.Resolves settingsPath options) := by
  refine Reads.bind (reads_loadSettings options) fun kept _ => ?_
  unfold Folder.Charges
  cases options.pricesPath with
  | some path => exact Reads.bind (reads_load path) fun prices _ => Reads.pure _
  | none => exact Reads.bind (Reads.pure kept.prices) fun prices _ => Reads.pure _

end Session

end BattleOdds
