import BattleOdds.CommandLine
import BattleOdds.Files.Folder
import BattleOdds.Ledger.Csv
import BattleOdds.Report.Encoding
import BattleOdds.Run

/-!
# Sessions

A session is one call of the program: it reads the files that the command line names, and answers
with a report or with the reason why there is none. What it needs from outside is gathered in
`Station`, so that a session is the same whether it runs on a disk or on a folder in memory. On a
folder, what it writes goes into the folder.
-/
namespace BattleOdds

/-- What a session has at hand. -/
structure Station (m : Type → Type) where
  /-- Reads the text of a file. -/
  load : String → m (Except FileFault String)
  /-- Writes a text to a file. -/
  store : String → String → m (Except FileFault Unit)
  /-- The name of the settings file, where the command line gives none. -/
  settingsPath : Option String
  /-- The machine for the runs. -/
  machine : Machine
  /-- A seed for runs whose request has none. -/
  entropy : m UInt64
  /-- The present moment. -/
  moment : m Timestamp

/-- What a session comes to. -/
structure Outcome where
  status : UInt32
  output : String := ""
  errors : String := ""
deriving DecidableEq

namespace Outcome

/-- A session that has an answer. -/
def answer (line : String) : Outcome := { status := 0, output := line ++ "\n" }

/-- A session that fails. -/
def failure (line : String) : Outcome := { status := 1, errors := line ++ "\n" }

/-- A session that has been called wrongly. -/
def misuse (line : String) : Outcome := { status := 2, errors := line ++ "\n" }

end Outcome

/-- Why a file does not give what it should. -/
inductive LoadError
  | file (path : String) (fault : FileFault)
  | document (e : DocumentError)
  | request (e : SimulationError)

def LoadError.message : LoadError → String
  | file path fault => "IO error reading " ++ path ++ ": " ++ fault.message
  | document e => e.message
  | request e => e.message

/-- The value in the text of a file, in the format that the name of the file says. -/
def decodeFile [FromNode α] (path s : String) : Except LoadError α :=
  (decode (.ofPath path) s).mapError .document

namespace Session

variable {m : Type → Type} [Monad m]

/-- Reads the value in a file. -/
def load [FromNode α] (station : Station m) (path : String) : ExceptT LoadError m α := do
  match ← station.load path with
  | .ok s => decodeFile path s
  | .error fault => throw (.file path fault)

/-- Reads a request, which must be valid. -/
def loadRequest (station : Station m) (path : String) : ExceptT LoadError m Request := do
  let request : Request ← load station path
  match request.validate with
  | .ok () => return request
  | .error e => throw (.request e)

/-- Where settings are kept if nothing else is said. -/
def defaultSettingsPath : String := "warodds.yaml"

/-- Reads the settings. If there is no file of their name, they are the default ones. -/
def loadSettings (station : Station m) (options : Options) : ExceptT LoadError m Settings := do
  let path := (options.configPath <|> station.settingsPath).getD defaultSettingsPath
  match ← station.load path with
  | .ok s => decodeFile path s
  | .error fault => if fault.isAbsent then return {} else throw (.file path fault)

/-- The settings with what the command line says. -/
def effectiveSettings (station : Station m) (options : Options) :
    ExceptT LoadError m Settings := do
  let settings ← loadSettings station options
  let prices : Prices ← match options.pricesPath with
    | some path => load station path
    | none => pure settings.prices
  return {
    prices
    parallel := settings.parallel || options.parallel
    workers := options.workers.getD settings.workers }

/-- Answers whether a request is valid. -/
def validate (station : Station m) (path : String) : m Outcome := do
  match ← (loadRequest station path).run with
  | .ok request =>
    return .answer ("request valid: action=" ++ request.action.kind.title ++ ", iterations="
      ++ toString request.trials)
  | .error e => return .failure ("validation failed: " ++ e.message)

/-- Runs a request, and writes its trials to the file for them, if there is one. -/
def simulate (station : Station m) (path : String) (options : Options) : m Outcome := do
  match ← (loadRequest station path).run with
  | .error e => return .failure ("failed to load request: " ++ e.message)
  | .ok request =>
    let request := { request with seed := options.seed <|> request.seed }
    match ← (effectiveSettings station options).run with
    | .error e => return .failure ("failed to load configuration: " ++ e.message)
    | .ok settings =>
      match request.run station.machine settings.runner settings.prices (← station.entropy)
        (← station.moment) with
      | .error e => return .failure ("simulation failed: " ++ e.message)
      | .ok run =>
        let stored ← match options.samplesCsv with
          | some path => Except.mapError (path, ·) <$> station.store path run.ledger.csv
          | none => pure (.ok ())
        match stored with
        | .ok () => return .answer run.report.toJson.pretty
        | .error (path, fault) =>
          return .failure ("failed to write samples to " ++ path ++ ": IO error: "
            ++ fault.message)

/-- One call of the program with the words of a command line. -/
def run (station : Station m) (args : List String) : m Outcome := do
  match Command.ofArgs? args with
  | none => return .misuse usage
  | some command =>
    match Options.ofArgs args with
    | .error e => return .misuse (e.message ++ "\n" ++ usage)
    | .ok options =>
      match options.requestPath, command with
      | none, _ => return .misuse usage
      | some path, .simulate => simulate station path options
      | some path, .validate => validate station path

end Session

/-- A station on a folder in memory, with a fixed seed and moment. -/
def Folder.station (machine : Machine) (settingsPath : Option String) (entropy : UInt64)
    (moment : Timestamp) : Station (StateM Folder) where
  load path := fun folder => (folder.load path, folder)
  store path s := fun folder =>
    match folder.store path s with
    | .ok folder => (.ok (), folder)
    | .error fault => (.error fault, folder)
  settingsPath
  machine
  entropy := pure entropy
  moment := pure moment

/-- Runs a session on a folder. Gives what it comes to, and the folder after it. -/
def Folder.session (folder : Folder) (machine : Machine) (settingsPath : Option String)
    (entropy : UInt64) (moment : Timestamp) (args : List String) : Outcome × Folder :=
  (Session.run (station machine settingsPath entropy moment) args).run folder

end BattleOdds
