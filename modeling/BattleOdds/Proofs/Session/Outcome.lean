import BattleOdds.Proofs.Session.Reading

/-!
# What a session comes to

What a session reads decides whether it has an answer, and so do the workers of the machine where
trials are to be run in batches. Only when all that it needs is there does it write, and only the
file for the trials. So a session without an answer leaves the folder as it was and prints nothing
but the reason, and one with an answer prints nothing else.
-/
namespace BattleOdds

/-- The file for the trials, if there is to be one, can be made. -/
def Folder.CanExport (folder : Folder) (options : Options) : Prop :=
  ∀ csv, options.samplesCsv = some csv → folder.CanStore csv

/-- The trials of a ledger are written to the file for them, and to no other; or there is to be no
such file, and nothing is written. -/
def Folder.Exports (folder : Folder) (options : Options) (ledger : Ledger) (after : Folder) :
    Prop :=
  match options.samplesCsv with
  | some csv => folder.Written csv ledger.csv after
  | none => after = folder

/-- The run is that of the request in a folder, at the settings of the session. -/
def Folder.Simulates (folder : Folder) (machine : Machine) (settingsPath : Option String)
    (entropy : UInt64) (moment : Timestamp) (options : Options) (path : String) (run : Run) :
    Prop :=
  ∃ r settings, folder.Requests path r ∧ folder.Resolves settingsPath options settings
    ∧ (r.seededBy options).run machine settings.runner settings.prices entropy moment = .ok run

/-- The words are no command line: there is no command, or an option is wrong, or no request is
named. -/
def Misused (args : List String) : Prop :=
  Command.ofArgs? args = none ∨ (∃ e, Options.ofArgs args = .error e)
    ∨ ∃ options, Options.ofArgs args = .ok options ∧ options.requestPath = none

/-- A command line asks for a command on a request, with options. -/
structure Asks (args : List String) (command : Command) (options : Options) (path : String) :
    Prop where
  command_eq : Command.ofArgs? args = some command
  options_eq : Options.ofArgs args = .ok options
  path_eq : options.requestPath = some path

/-- Something is wrong with what a command line asks for. The request cannot be had; or trials are
to be run, and there are settings or prices that cannot be had, or the machine has not the workers
that the settings say, or the file for the trials cannot be made. -/
def Folder.Fails (folder : Folder) (machine : Machine) (settingsPath : Option String)
    (command : Command) (options : Options) (path : String) : Prop :=
  (¬ ∃ r, folder.Requests path r)
    ∨ command = .simulate
      ∧ ((folder.Exists (selectedPath settingsPath options)
          ∧ ¬ ∃ settings : Settings, folder.Holds (selectedPath settingsPath options) settings)
        ∨ (∃ prices, options.pricesPath = some prices ∧ ¬ ∃ p : Prices, folder.Holds prices p)
        ∨ (∃ settings, folder.Resolves settingsPath options settings
          ∧ ¬ machine.Serves settings.runner)
        ∨ ∃ csv, options.samplesCsv = some csv ∧ ¬ folder.CanStore csv)

/-- The line that says what a valid request asks for. -/
def Request.validityLine (r : Request) : String :=
  "request valid: action=" ++ r.action.kind.title ++ ", iterations=" ++ toString r.trials

/-- What a session prints and leaves in the folder, if nothing is wrong. -/
def Folder.Answers (folder : Folder) (machine : Machine) (settingsPath : Option String)
    (entropy : UInt64) (moment : Timestamp) (options : Options) (path : String) (output : String)
    (after : Folder) : Command → Prop
  | .validate => ∃ r, folder.Requests path r ∧ output = r.validityLine ++ "\n"
      ∧ after = folder
  | .simulate => ∃ run, folder.Simulates machine settingsPath entropy moment options path run
      ∧ output = run.report.toJson.pretty ++ "\n" ∧ folder.Exports options run.ledger after

/-- Trials are run where there are a request, settings with workers for them, and a place for the
trials. -/
theorem Folder.fails_simulate_iff (folder : Folder) (machine : Machine)
    (settingsPath : Option String) (options : Options) (path : String) :
    folder.Fails machine settingsPath .simulate options path
      ↔ ¬ ((∃ r, folder.Requests path r)
        ∧ (∃ settings, folder.Resolves settingsPath options settings
          ∧ machine.Serves settings.runner)
        ∧ folder.CanExport options) := by
  have hexport : folder.CanExport options
      ↔ ¬ ∃ csv, options.samplesCsv = some csv ∧ ¬ folder.CanStore csv := by
    simp only [CanExport, not_exists, not_and, not_not]
  have hserved : (∃ settings, folder.Resolves settingsPath options settings
      ∧ machine.Serves settings.runner)
      ↔ (∃ settings, folder.Resolves settingsPath options settings)
        ∧ ¬ ∃ settings, folder.Resolves settingsPath options settings
          ∧ ¬ machine.Serves settings.runner := by
    constructor
    · rintro ⟨settings, hsettings, hserves⟩
      refine ⟨⟨settings, hsettings⟩, ?_⟩
      rintro ⟨settings', hsettings', hnone⟩
      exact hnone (hsettings.unique hsettings' ▸ hserves)
    · rintro ⟨⟨settings, hsettings⟩, hall⟩
      exact ⟨settings, hsettings, not_not.mp fun hnone => hall ⟨settings, hsettings, hnone⟩⟩
  rw [hserved, exists_resolves_iff, exists_keeps_iff, hexport, Fails, and_iff_right rfl, not_and_or,
    not_and_or, not_and_or, not_and_or, not_not, not_not, not_not, not_not, or_assoc, or_assoc]

theorem misused_or_asks (args : List String) :
    Misused args ∨ ∃ command options path, Asks args command options path := by
  cases hcommand : Command.ofArgs? args with
  | none => exact Or.inl (Or.inl hcommand)
  | some command =>
    cases hoptions : Options.ofArgs args with
    | error e => exact Or.inl (Or.inr (Or.inl ⟨e, hoptions⟩))
    | ok options =>
      cases hpath : options.requestPath with
      | none => exact Or.inl (Or.inr (Or.inr ⟨options, hoptions, hpath⟩))
      | some path => exact Or.inr ⟨command, options, path, hcommand, hoptions, hpath⟩

theorem Asks.not_misused {args : List String} {command : Command} {options : Options}
    {path : String} (h : Asks args command options path) : ¬ Misused args := by
  rintro (hnone | ⟨e, herror⟩ | ⟨others, hoptions, hnone⟩)
  · cases h.command_eq.symm.trans hnone
  · cases h.options_eq.symm.trans herror
  · cases h.options_eq.symm.trans hoptions
    cases h.path_eq.symm.trans hnone

/-- A command line asks for one thing. -/
theorem Asks.unique {args : List String} {command command' : Command} {options options' : Options}
    {path path' : String} (h : Asks args command options path)
    (h' : Asks args command' options' path') :
    command = command' ∧ options = options' ∧ path = path' := by
  cases h.command_eq.symm.trans h'.command_eq
  cases h.options_eq.symm.trans h'.options_eq
  cases h.path_eq.symm.trans h'.path_eq
  exact ⟨rfl, rfl, rfl⟩

namespace Session
open Folder (station)

variable {α β : Type} {folder after : Folder} {machine : Machine} {settingsPath : Option String}
  {entropy : UInt64} {moment : Timestamp} {args : List String} {path : String} {options : Options}

/-! ## Steps of a session -/

/-- A step whose result is known. -/
theorem run_bind_of_run {x : StateM Folder α} {k : α → StateM Folder β} {a : α}
    (h : x.run folder = (a, after)) : (x >>= k).run folder = (k a).run after := by
  rw [StateT.run_bind, h]
  rfl

theorem run_entropy :
    (station machine settingsPath entropy moment).entropy.run folder = (entropy, folder) := rfl

theorem machine_station : (station machine settingsPath entropy moment).machine = machine := rfl

theorem run_moment :
    (station machine settingsPath entropy moment).moment.run folder = (moment, folder) := rfl

theorem run_store (folder : Folder) (machine : Machine) (settingsPath : Option String)
    (entropy : UInt64) (moment : Timestamp) (csv s : String) :
    (Except.mapError (csv, ·)
        <$> (station machine settingsPath entropy moment).store csv s).run folder
      = match folder.store csv s with
        | .ok after => (.ok (), after)
        | .error fault => (.error (csv, fault), folder) := by
  rw [StateT.run_map]
  change Prod.map (Except.mapError (csv, ·)) id (match folder.store csv s with
    | .ok after => (Except.ok (), after)
    | .error fault => (Except.error fault, folder)) = _
  cases folder.store csv s <;> rfl

/-! ## Validation -/

theorem run_validate (folder : Folder) (machine : Machine) (settingsPath : Option String)
    (entropy : UInt64) (moment : Timestamp) (path : String) :
    (∃ r, folder.Requests path r
      ∧ (validate (station machine settingsPath entropy moment) path).run folder
        = (.answer r.validityLine, folder))
    ∨ (¬ ∃ r, folder.Requests path r)
      ∧ ∃ line, (validate (station machine settingsPath entropy moment) path).run folder
        = (.failure line, folder) := by
  obtain ⟨result, hrun, hresult⟩ :=
    reads_loadRequest folder machine settingsPath entropy moment path
  rw [validate, run_bind_of_run hrun]
  cases result with
  | ok r => exact Or.inl ⟨r, (hresult r).mp rfl, rfl⟩
  | error e =>
    refine Or.inr ⟨?_, _, rfl⟩
    rintro ⟨r, hr⟩
    cases (hresult r).mpr hr

/-! ## Simulation -/

/-- What a session does with a request and settings: a run that fails ends it, and else the trials
are written where they are wanted. -/
theorem run_simulate_of_reads {r : Request} {settings : Settings}
    (hr : (loadRequest (station machine settingsPath entropy moment) path).run.run folder
      = (.ok r, folder))
    (hsettings :
      (effectiveSettings (station machine settingsPath entropy moment) options).run.run folder
        = (.ok settings, folder)) :
    (simulate (station machine settingsPath entropy moment) path options).run folder
      = match (r.seededBy options).run machine settings.runner settings.prices entropy moment with
        | .error e => (.failure ("simulation failed: " ++ e.message), folder)
        | .ok run => match options.samplesCsv with
          | none => (.answer run.report.toJson.pretty, folder)
          | some csv => match folder.store csv run.ledger.csv with
            | .ok after => (.answer run.report.toJson.pretty, after)
            | .error fault => (.failure ("failed to write samples to " ++ csv ++ ": IO error: "
                ++ fault.message), folder) := by
  rw [simulate, run_bind_of_run hr]
  dsimp only
  rw [run_bind_of_run hsettings]
  dsimp only
  rw [run_bind_of_run run_entropy, run_bind_of_run run_moment, machine_station]
  rw [show { r with seed := options.seed <|> r.seed } = r.seededBy options from rfl]
  cases (r.seededBy options).run machine settings.runner settings.prices entropy moment with
  | error e => rfl
  | ok run =>
    dsimp only
    cases options.samplesCsv with
    | none => rfl
    | some csv =>
      have hstore := run_store folder machine settingsPath entropy moment csv run.ledger.csv
      dsimp only
      cases hcsv : folder.store csv run.ledger.csv with
      | ok after =>
        rw [hcsv] at hstore
        exact run_bind_of_run hstore
      | error fault =>
        rw [hcsv] at hstore
        exact run_bind_of_run hstore

/-- A request that cannot be read ends the session. -/
theorem run_simulate_of_request_error {e : LoadError}
    (hr : (loadRequest (station machine settingsPath entropy moment) path).run.run folder
      = (.error e, folder)) :
    (simulate (station machine settingsPath entropy moment) path options).run folder
      = (.failure ("failed to load request: " ++ e.message), folder) := by
  rw [simulate, run_bind_of_run hr]
  rfl

/-- Settings that cannot be read end the session. -/
theorem run_simulate_of_settings_error {r : Request} {e : LoadError}
    (hr : (loadRequest (station machine settingsPath entropy moment) path).run.run folder
      = (.ok r, folder))
    (hsettings :
      (effectiveSettings (station machine settingsPath entropy moment) options).run.run folder
        = (.error e, folder)) :
    (simulate (station machine settingsPath entropy moment) path options).run folder
      = (.failure ("failed to load configuration: " ++ e.message), folder) := by
  rw [simulate, run_bind_of_run hr]
  exact run_bind_of_run hsettings

theorem run_simulate (folder : Folder) (machine : Machine) (settingsPath : Option String)
    (entropy : UInt64) (moment : Timestamp) (path : String) (options : Options) :
    (∃ run after, folder.Simulates machine settingsPath entropy moment options path run
      ∧ folder.CanExport options ∧ folder.Exports options run.ledger after
      ∧ (simulate (station machine settingsPath entropy moment) path options).run folder
        = (.answer run.report.toJson.pretty, after))
    ∨ ¬ ((∃ r, folder.Requests path r)
        ∧ (∃ settings, folder.Resolves settingsPath options settings
          ∧ machine.Serves settings.runner)
        ∧ folder.CanExport options)
      ∧ ∃ line, (simulate (station machine settingsPath entropy moment) path options).run folder
        = (.failure line, folder) := by
  obtain ⟨result, hr, hresult⟩ := reads_loadRequest folder machine settingsPath entropy moment path
  cases result with
  | error e =>
    refine Or.inr ⟨?_, _, run_simulate_of_request_error hr⟩
    rintro ⟨⟨r, hrequest⟩, -⟩
    cases (hresult r).mpr hrequest
  | ok r =>
  have hrequest : folder.Requests path r := (hresult r).mp rfl
  obtain ⟨result, hs, hresult⟩ := reads_effectiveSettings folder machine settingsPath entropy moment
    options
  cases result with
  | error e =>
    refine Or.inr ⟨?_, _, run_simulate_of_settings_error hr hs⟩
    rintro ⟨-, ⟨settings, hsettings, -⟩, -⟩
    cases (hresult settings).mpr hsettings
  | ok settings =>
  have hsettings : folder.Resolves settingsPath options settings := (hresult settings).mp rfl
  have hvalid : (r.seededBy options).faults = [] := (r.faults_seededBy options).trans hrequest.2
  have hend := run_simulate_of_reads hr hs
  by_cases hserves : machine.Serves settings.runner
  case neg =>
    obtain ⟨e, hrun⟩ := Request.exists_run_eq_error hserves settings.prices entropy moment
    rw [hrun] at hend
    refine Or.inr ⟨?_, _, hend⟩
    rintro ⟨-, ⟨settings', hsettings', hserves'⟩, -⟩
    exact hserves (hsettings.unique hsettings' ▸ hserves')
  have hrun := Request.run_eq_ok hvalid hserves settings.prices entropy moment
  have hsimulates : folder.Simulates machine settingsPath entropy moment options path _ :=
    ⟨r, settings, hrequest, hsettings, hrun⟩
  rw [hrun] at hend
  dsimp only at hend
  -- The last step can fail only where the trials are to be written.
  cases hcsv : options.samplesCsv with
  | none =>
    rw [hcsv] at hend
    refine Or.inl ⟨_, folder, hsimulates, ?_, ?_, hend⟩
    · intro csv h
      cases hcsv.symm.trans h
    · rw [Folder.Exports, hcsv]
  | some csv =>
    rw [hcsv] at hend
    dsimp only at hend
    split at hend
    case h_1 after hstore =>
      refine Or.inl ⟨_, after, hsimulates, ?_, ?_, hend⟩
      · intro csv' h
        cases hcsv.symm.trans h
        exact (folder.canStore_iff csv _).mpr ⟨after, hstore⟩
      · rw [Folder.Exports, hcsv]
        exact Folder.written_of_store hstore
    case h_2 fault hstore =>
      refine Or.inr ⟨?_, _, hend⟩
      rintro ⟨-, -, hcan⟩
      obtain ⟨after, hafter⟩ := (folder.canStore_iff csv _).mp (hcan csv hcsv)
      cases hafter.symm.trans hstore

/-! ## Sessions -/

theorem session_of_misused (h : Misused args) :
    ∃ line, ∀ (folder : Folder) (machine : Machine) (settingsPath : Option String)
      (entropy : UInt64) (moment : Timestamp),
      folder.session machine settingsPath entropy moment args = (.misuse line, folder) := by
  cases hcommand : Command.ofArgs? args with
  | none => exact ⟨usage, fun _ _ _ _ _ => by rw [Folder.session, Session.run, hcommand]; rfl⟩
  | some command =>
    cases hoptions : Options.ofArgs args with
    | error e => exact ⟨e.message ++ "\n" ++ usage, fun _ _ _ _ _ => by
        rw [Folder.session, Session.run, hcommand, hoptions]; rfl⟩
    | ok options =>
      cases hpath : options.requestPath with
      | none => exact ⟨usage, fun _ _ _ _ _ => by
          rw [Folder.session, Session.run, hcommand, hoptions]
          dsimp only
          rw [hpath]
          rfl⟩
      | some path =>
        have hasks : Asks args command options path := ⟨hcommand, hoptions, hpath⟩
        exact absurd h hasks.not_misused

/-- A session that is asked for something answers it, or fails and leaves the folder as it was. -/
theorem session_of_asks {command : Command} (h : Asks args command options path)
    (folder : Folder) (machine : Machine) (settingsPath : Option String) (entropy : UInt64)
    (moment : Timestamp) :
    (folder.Fails machine settingsPath command options path
      ∧ ∃ line,
        folder.session machine settingsPath entropy moment args = (.failure line, folder))
    ∨ ¬ folder.Fails machine settingsPath command options path
      ∧ ∃ line after,
        folder.session machine settingsPath entropy moment args = (.answer line, after)
        ∧ folder.Answers machine settingsPath entropy moment options path (line ++ "\n") after
          command := by
  have hsession : folder.session machine settingsPath entropy moment args
      = match command with
        | .simulate =>
          (simulate (station machine settingsPath entropy moment) path options).run folder
        | .validate =>
          (validate (station machine settingsPath entropy moment) path).run folder := by
    rw [Folder.session, Session.run, h.command_eq]
    dsimp only
    rw [h.options_eq]
    dsimp only
    rw [h.path_eq]
    cases command <;> rfl
  rw [hsession]
  cases command with
  | validate =>
    obtain ⟨r, hr, hrun⟩ | ⟨hnone, line, hrun⟩ :=
      run_validate folder machine settingsPath entropy moment path
    · refine Or.inr ⟨?_, _, _, hrun, r, hr, rfl, rfl⟩
      rintro (hnone | ⟨hcommand, -⟩)
      · exact hnone ⟨r, hr⟩
      · cases hcommand
    · exact Or.inl ⟨Or.inl hnone, line, hrun⟩
  | simulate =>
    have hfails := folder.fails_simulate_iff machine settingsPath options path
    obtain ⟨run, after, hsimulates, hcan, hexports, hrun⟩ | ⟨hnone, line, hrun⟩ :=
      run_simulate folder machine settingsPath entropy moment path options
    · refine Or.inr ⟨?_, _, after, hrun, run, hsimulates, rfl, hexports⟩
      obtain ⟨r, settings, hr, hsettings, hserved⟩ := hsimulates
      rw [hfails, not_not]
      exact ⟨⟨r, hr⟩, ⟨settings, hsettings, Request.serves_of_run_eq_ok hserved⟩, hcan⟩
    · exact Or.inl ⟨hfails.mpr hnone, line, hrun⟩

end Session

/-- The outcome of a session is all or nothing. The status is 2 exactly for words that are no
command line, whatever the folder, the machine and the environment are; it is 1 exactly where
something that the command line asks for fails, the pool of workers among it, and else 0. Without
status 0 nothing is printed but the reason, and the folder is as it was. With status 0 nothing is
printed but the answer: the line on a valid request, or the report of the run that was asked for,
whose trials are then in the file for them while all other places are as they were. -/
theorem session_outcome (folder : Folder) (machine : Machine) (settingsPath : Option String)
    (entropy : UInt64) (moment : Timestamp) (args : List String) :
    ∃ outcome after, folder.session machine settingsPath entropy moment args = (outcome, after)
      ∧ (outcome.status = 2 ↔ Misused args)
      ∧ (Misused args → ∀ (folder : Folder) (machine : Machine) (settingsPath : Option String)
          (entropy : UInt64) (moment : Timestamp),
          (folder.session machine settingsPath entropy moment args).1 = outcome)
      ∧ (outcome.status = 1 ↔ ∃ command options path, Asks args command options path
          ∧ folder.Fails machine settingsPath command options path)
      ∧ (outcome.status = 0 ↔ ∃ command options path, Asks args command options path
          ∧ ¬ folder.Fails machine settingsPath command options path)
      ∧ (outcome.status ≠ 0 → outcome.output = "" ∧ after = folder)
      ∧ (outcome.status = 0 → outcome.errors = ""
          ∧ ∃ command options path, Asks args command options path
            ∧ folder.Answers machine settingsPath entropy moment options path outcome.output after
                command) := by
  obtain hmisused | ⟨command, options, path, hasks⟩ := misused_or_asks args
  · obtain ⟨line, hline⟩ := Session.session_of_misused hmisused
    have hnot {command : Command} {options : Options} {path : String} {p : Prop} :
        ¬ (Asks args command options path ∧ p) := fun h => h.1.not_misused hmisused
    refine ⟨_, _, hline folder machine settingsPath entropy moment, iff_of_true rfl hmisused, ?_,
      ?_, ?_, fun _ => ⟨rfl, rfl⟩, fun h => by cases h⟩
    · intro _ folder machine settingsPath entropy moment
      rw [hline]
    · exact iff_of_false (show (2 : UInt32) ≠ 1 by decide) fun ⟨_, _, _, h⟩ => hnot h
    · exact iff_of_false (show (2 : UInt32) ≠ 0 by decide) fun ⟨_, _, _, h⟩ => hnot h
  · have hnot := hasks.not_misused
    obtain ⟨hfails, line, hsession⟩ | ⟨hfails, line, after, hsession, hanswers⟩ :=
      Session.session_of_asks hasks folder machine settingsPath entropy moment
    · refine ⟨_, _, hsession, iff_of_false (show (1 : UInt32) ≠ 2 by decide) hnot,
        fun h => absurd h hnot, iff_of_true rfl ⟨command, options, path, hasks, hfails⟩,
        iff_of_false (show (1 : UInt32) ≠ 0 by decide) ?_, fun _ => ⟨rfl, rfl⟩, fun h => by cases h⟩
      rintro ⟨command', options', path', hasks', hnone⟩
      obtain ⟨rfl, rfl, rfl⟩ := hasks.unique hasks'
      exact hnone hfails
    · refine ⟨_, _, hsession, iff_of_false (show (0 : UInt32) ≠ 2 by decide) hnot,
        fun h => absurd h hnot, iff_of_false (show (0 : UInt32) ≠ 1 by decide) ?_,
        iff_of_true rfl ⟨command, options, path, hasks, hfails⟩, fun h => absurd rfl h,
        fun _ => ⟨rfl, command, options, path, hasks, hanswers⟩⟩
      rintro ⟨command', options', path', hasks', hfails'⟩
      obtain ⟨rfl, rfl, rfl⟩ := hasks.unique hasks'
      exact hfails hfails'

/-- A folder with a request in it, which a session finds valid. -/
theorem session_outcome_of_request :
    let request := "\x7b\"nation_attacker\":\x7b\"ships\":4\x7d,\"nation_defender\":\x7b\x7d,"
      ++ "\"action\":\x7b\"type\":\"naval\",\"attacking_ships\":4\x7d\x7d"
    let folder : Folder := { home := ["home"], entries := [⟨["home", "request"], .text request⟩] }
    let args := ["warodds", "validate", "request"]
    ∃ options, Asks args .validate options "request"
      ∧ ¬ folder.Fails (.withRoomFor 0) none .validate options "request"
      ∧ ∃ outcome after, folder.session (.withRoomFor 0) none 0 default args = (outcome, after)
        ∧ outcome.status = 0 ∧ outcome.errors = "" := by
  intro request folder args
  have hasks : Asks args .validate { requestPath := some "request" } "request" :=
    ⟨rfl, by cbv, rfl⟩
  have hload : folder.load "request" = .ok request := by cbv
  have hdecode : (decode (.ofPath "request") request : Except DocumentError Request).toOption.map
      (·.faults) = some [] := by decide +kernel
  obtain ⟨r, hholds, hvalid⟩ := Folder.exists_holds hload hdecode
  have hfails : ¬ folder.Fails (.withRoomFor 0) none .validate { requestPath := some "request" }
      "request" := by
    rintro (hnone | ⟨hcommand, -⟩)
    · exact hnone ⟨r, hholds, hvalid⟩
    · cases hcommand
  obtain ⟨outcome, after, hsession, -, -, -, hstatus, -, hzero⟩ :=
    session_outcome folder (.withRoomFor 0) none 0 default args
  have hok : outcome.status = 0 := hstatus.mpr ⟨_, _, _, hasks, hfails⟩
  exact ⟨_, hasks, hfails, outcome, after, hsession, hok, (hzero hok).1⟩

end BattleOdds
