import BattleOdds.Document.Plain

/-!
# Command lines

The word after the name of the program says what to do; the words after it are options and the name
of the file that holds the request, in any order. An option that takes a value takes the word after
it, whatever it looks like, and of repeated options the last counts.
-/
namespace BattleOdds

/-- What a command line asks for. -/
inductive Command
  | simulate | validate
deriving DecidableEq

/-- The command of a command line, whose first word is the name of the program. -/
def Command.ofArgs? : List String → Option Command
  | _ :: "simulate" :: _ => some .simulate
  | _ :: "validate" :: _ => some .validate
  | _ => none

/-- The options that take a value. -/
inductive ValueOption
  | prices | config | samplesCsv | seed | workers
deriving DecidableEq

namespace ValueOption

def name : ValueOption → String
  | prices => "--prices"
  | config => "--config"
  | samplesCsv => "--samples-csv"
  | seed => "--seed"
  | workers => "--workers"

/-- The option with a name. -/
def ofName? (name : String) : Option ValueOption :=
  [prices, config, samplesCsv, seed, workers].find? fun option => option.name == name

end ValueOption

/-- The options of a command line. -/
structure Options where
  requestPath : Option String := none
  pricesPath : Option String := none
  configPath : Option String := none
  seed : Option UInt64 := none
  parallel : Bool := false
  workers : Option UInt64 := none
  samplesCsv : Option String := none
deriving DecidableEq

/-- What is wrong with a command line. -/
inductive OptionError
  | missingValue (option : ValueOption)
  | invalidSeed (value : String)
  | invalidWorkers (value : String)
  | unknownOption (word : String)
  | unexpected (word : String)
deriving DecidableEq

def OptionError.message : OptionError → String
  | .missingValue option => option.name ++ " requires a value"
  | .invalidSeed value => "invalid seed '" ++ value ++ "'"
  | .invalidWorkers value => "invalid workers '" ++ value ++ "'"
  | .unknownOption word => "unknown flag '" ++ word ++ "'"
  | .unexpected word => "unexpected argument '" ++ word ++ "'"

/-- The whole number of 64 bits that a word names: digits, which may follow a plus sign. -/
def wordNumber? (word : String) : Option UInt64 :=
  let digits := match word.toList with
    | '+' :: digits => digits
    | digits => digits
  match Plain.radix? 10 digits with
  | some n => if fitsUnsigned 64 n then some n.toUInt64 else none
  | none => none

namespace Options

/-- Sets the value of an option. -/
def set (o : Options) (option : ValueOption) (value : String) : Except OptionError Options :=
  match option with
  | .prices => .ok { o with pricesPath := some value }
  | .config => .ok { o with configPath := some value }
  | .samplesCsv => .ok { o with samplesCsv := some value }
  | .seed =>
    match wordNumber? value with
    | some seed => .ok { o with seed := some seed }
    | none => .error (.invalidSeed value)
  | .workers =>
    match wordNumber? value with
    | some workers => .ok { o with workers := some workers }
    | none => .error (.invalidWorkers value)

/-- Reads a word that is not an option with a value. -/
def word (o : Options) (w : String) : Except OptionError Options :=
  if w = "--parallel" then .ok { o with parallel := true }
  else if w.startsWith "--" then .error (.unknownOption w)
  else if o.requestPath.isSome then .error (.unexpected w)
  else .ok { o with requestPath := some w }

/-- Reads words on top of the options that have been read. -/
def read (o : Options) : List String → Except OptionError Options
  | [] => .ok o
  | w :: words =>
    match ValueOption.ofName? w with
    | none => do
      let o ← o.word w
      o.read words
    | some option =>
      match words with
      | [] => .error (.missingValue option)
      | value :: words => do
        let o ← o.set option value
        o.read words

/-- The options of a command line: what follows the command. -/
def ofArgs (args : List String) : Except OptionError Options := read {} (args.drop 2)

end Options

/-- How to call the program. -/
def usage : String :=
  "usage: warodds <simulate|validate> <request.\x7bjson,yaml\x7d> [--prices <file>] "
    ++ "[--config <file>] [--seed <n>] [--parallel] [--workers <n>] [--samples-csv <file>]"

end BattleOdds
