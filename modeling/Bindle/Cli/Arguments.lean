import Bindle.Cli.Log
import Bindle.Component.Basic

/-!
# Command line arguments

`Request.ofArguments` reads the arguments from left to right.  An option takes its value from behind
an equals sign or from the next argument, which must not look like an option; behind `--` nothing is
an option.  Only `--log-phase` may be given more than once.  The first thing that is wrong ends the
reading, and so does a request for help or for the version.
-/

namespace Bindle.Cli

structure Arguments where
  config : Option String := none
  json : Bool := false
  logLevel : Option String := none
  logPhases : List String := []
  logFormat : Option LogFormat := none
  logFile : Option String := none
  deriving Inhabited

inductive Request where
  | help
  | version
  | run (a : Arguments)
  deriving Inhabited

inductive ValueOption where
  | logLevel | logPhase | logFormat | logFile
  deriving DecidableEq, Inhabited

namespace ValueOption

def name : ValueOption → String
  | logLevel => "--log-level"
  | logPhase => "--log-phase"
  | logFormat => "--log-format"
  | logFile => "--log-file"

def ofName? (s : String) : Option ValueOption :=
  [logLevel, logPhase, logFormat, logFile].find? (·.name = s)

end ValueOption

def usageLine : String := "Usage: kiln [OPTIONS] [CONFIG]\n"

def helpText : String :=
  "Kiln - a small JavaScript module bundler\n\n" ++ usageLine ++ "\n" ++
  "Arguments:\n" ++
  "  [CONFIG]  Configuration file path (default: ./kiln.json) [default: kiln.json]\n\n" ++
  "Options:\n" ++
  "      --json                     " ++
  "Print build stats as JSON instead of the asset list\n" ++
  "      --log-level <LEVEL>        " ++
  "Global log level: silent, error, warn, info, debug, trace [default: warn]\n" ++
  "      --log-phase <PHASE=LEVEL>  " ++
  "Per-phase log level, e.g. \x60graph=debug\x60 (repeatable)\n" ++
  "      --log-format <LOG_FORMAT>  " ++
  "Log output format [default: compact] [possible values: pretty, compact, json]\n" ++
  "      --log-file <PATH>          Also append logs to this file\n" ++
  "  -h, --help                     Print help\n" ++
  "  -V, --version                  Print version\n"

def versionText : String := "kiln " ++ version ++ "\n"

namespace Arguments

def repeated (name : String) : String := "the argument '" ++ name ++ "' cannot be used multiple times"

def unexpected (arg : String) : String := "unexpected argument '" ++ arg ++ "' found"

def invalid (value name : String) : String := "invalid value '" ++ value ++ "' for '" ++ name ++ "'"

def setValue (a : Arguments) (option : ValueOption) (value : String) : Except String Arguments :=
  match option with
  | .logLevel =>
    if a.logLevel.isSome then .error (repeated option.name)
    else .ok { a with logLevel := some value }
  | .logPhase => .ok { a with logPhases := a.logPhases ++ [value] }
  | .logFormat =>
    if a.logFormat.isSome then .error (repeated option.name)
    else match LogFormat.ofText? value with
      | some format => .ok { a with logFormat := some format }
      | none => .error (invalid value option.name)
  | .logFile =>
    if a.logFile.isSome then .error (repeated option.name)
    else if value = "" then .error (invalid value option.name)
    else .ok { a with logFile := some value }

def setConfig (a : Arguments) (value : String) : Except String Arguments :=
  if a.config.isSome then .error (unexpected value)
  else if value = "" then .error (invalid value "[CONFIG]")
  else .ok { a with config := some value }

/-- a single hyphen is a value -/
def looksLikeOption (arg : String) : Bool := arg.toList.head? = some '-' && arg ≠ "-"

/-- the name of a long option, and the value behind the equals sign -/
def splitLong (arg : String) : String × Option String :=
  let cs := arg.toList
  (String.ofList (cs.takeWhile (· ≠ '=')),
    if cs.contains '=' then some (String.ofList ((cs.dropWhile (· ≠ '=')).drop 1)) else none)

end Arguments

/-- where the reading of arguments stands -/
inductive Reading where
  | anything
  /-- the next argument is the value of an option -/
  | valueOf (option : ValueOption)
  /-- behind `--` -/
  | values
  deriving DecidableEq, Inhabited

namespace Request

open Arguments

/-- what one argument leads to: an answer at once, or further reading -/
inductive Step where
  | stop (r : Request)
  | go (reading : Reading) (a : Arguments)

def readLong (a : Arguments) (arg : String) : Except String Step :=
  match splitLong arg with
  | (name, none) =>
    match ValueOption.ofName? name, name with
    | some option, _ => .ok (.go (.valueOf option) a)
    | none, "--json" =>
      if a.json then .error (repeated name) else .ok (.go .anything { a with json := true })
    | none, "--help" => .ok (.stop .help)
    | none, "--version" => .ok (.stop .version)
    | none, _ => .error (unexpected arg)
  | (name, some value) =>
    match ValueOption.ofName? name with
    | some option => (a.setValue option value).map (.go .anything)
    | none => .error (unexpected arg)

def readShort (arg : String) : Except String Step :=
  match arg.toList with
  | _ :: 'h' :: _ => .ok (.stop .help)
  | _ :: 'V' :: _ => .ok (.stop .version)
  | _ => .error (unexpected arg)

def step (reading : Reading) (a : Arguments) (arg : String) : Except String Step :=
  match reading with
  | .values => (a.setConfig arg).map (.go .values)
  | .valueOf option =>
    if looksLikeOption arg then
      .error ("a value is required for '" ++ option.name ++ "' but none was supplied")
    else (a.setValue option arg).map (.go .anything)
  | .anything =>
    if arg = "--" then .ok (.go .values a)
    else if "--".toList.isPrefixOf arg.toList then readLong a arg
    else if looksLikeOption arg then readShort arg
    else (a.setConfig arg).map (.go .anything)

def readAll (reading : Reading) (a : Arguments) : List String → Except String Request
  | [] =>
    match reading with
    | .valueOf option =>
      .error ("a value is required for '" ++ option.name ++ "' but none was supplied")
    | _ => .ok (.run a)
  | arg :: rest => do
    match ← step reading a arg with
    | .stop r => return r
    | .go reading a => readAll reading a rest

def ofArguments (args : List String) : Except String Request := readAll .anything {} args

end Request

end Bindle.Cli
