import BattleOdds.Session
import Std.Time.DateTime.Timestamp

/-!
# The program

Runs a session on the disk, with the clock and the random source of the system.
-/
namespace BattleOdds

/-- What went wrong with a file of the disk. The system gives its codes with either sign. -/
def FileFault.ofError (e : IO.Error) : FileFault :=
  match e with
  | .noFileOrDirectory .. => .missing
  | .inappropriateType _ code _ => if code = 21 || code = -21 then .isFolder else .notFolder
  | .invalidArgument _ code _ =>
    if code = 36 || code = -36 then .longName
    else if code = 22 then .badName
    else .other (toString e)
  | e => .other (toString e)

/-- Runs an action on a file of the disk. -/
def onDisk (action : IO α) : IO (Except FileFault α) := do
  match ← action.toBaseIO with
  | .ok a => return .ok a
  | .error e => return .error (.ofError e)

/-- Reads a text from the disk. -/
def loadFromDisk (path : String) : IO (Except FileFault String) := do
  match ← onDisk (IO.FS.readBinFile path) with
  | .error fault => return .error fault
  | .ok bytes =>
    match String.fromUTF8? bytes with
    | some s => return .ok s
    | none => return .error .notText

/-- A random word. -/
def randomWord : IO UInt64 := do
  let bytes ← IO.getRandomBytes 8
  return bytes.foldl (fun w b => (w <<< 8) ||| b.toUInt64) 0

/-- The present moment. -/
def now : IO Timestamp := do
  let sinceEpoch := (← Std.Time.Timestamp.now).toDurationSinceUnixEpoch
  return ⟨sinceEpoch.second.val, sinceEpoch.nano.val.toNat⟩

/-- The system numbers its threads up to this where nothing else is set. -/
def maxThreads : UInt64 := 32767

/-- The station on the disk. -/
def diskStation : IO (Station IO) := do
  return {
    load := loadFromDisk
    store := fun path s => onDisk (IO.FS.writeFile path s)
    settingsPath := ← IO.getEnv "WARODDS_CONFIG"
    machine := .withRoomFor maxThreads
    entropy := randomWord
    moment := now }

end BattleOdds

open BattleOdds in
def main (args : List String) : IO UInt32 := do
  let outcome ← Session.run (← diskStation) ("warodds" :: args)
  IO.print outcome.output
  IO.eprint outcome.errors
  return outcome.status
