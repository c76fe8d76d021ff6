import Bindle.Phase
import Bindle.Text.Blank
import Bindle.Text.Lowercase
import Bindle.Text.Quoted

/-!
# Logging

Every line of the log has a level and the phase of the build that it is about.  A `LogConfig` has the
level up to which lines are shown, and other levels for some phases.
-/

namespace Bindle.Cli

inductive Level where
  | error | warn | info | debug | trace
  deriving DecidableEq, Inhabited

namespace Level

def rank : Level → Nat
  | error => 0
  | warn => 1
  | info => 2
  | debug => 3
  | trace => 4

def name : Level → String
  | error => "ERROR"
  | warn => "WARN"
  | info => "INFO"
  | debug => "DEBUG"
  | trace => "TRACE"

/-- `silent` still lets errors through -/
def ofText (s : String) : Except String Level :=
  match Text.lowercase s with
  | "silent" | "error" => .ok error
  | "warn" => .ok warn
  | "info" => .ok info
  | "debug" => .ok debug
  | "trace" => .ok trace
  | other => .error ("unknown log level '" ++ other ++ "'")

end Level

def phaseOfText (s : String) : Except String Phase :=
  match Phase.all.find? (·.name = s) with
  | some p => .ok p
  | none =>
    .error ("unknown phase '" ++ s ++ "' (expected one of: " ++
      ", ".intercalate (Phase.all.map Phase.name) ++ ")")

structure LogConfig where
  level : Level := .warn
  /-- later levels of a phase stand first -/
  phases : List (Phase × Level) := []
  deriving Inhabited

namespace LogConfig

def levelFor (c : LogConfig) (p : Phase) : Level :=
  match c.phases.find? (·.1 = p) with
  | some (_, level) => level
  | none => c.level

/-- a text without white space at its ends -/
def trim (cs : List Char) : String :=
  String.ofList (((cs.dropWhile Text.isSpace).reverse.dropWhile Text.isSpace).reverse)

/-- adds a level for a phase, as `PHASE=LEVEL` -/
def withPhase (c : LogConfig) (spec : String) : Except String LogConfig := do
  let cs := spec.toList
  if ¬ cs.contains '=' then throw ("expected PHASE=LEVEL, got '" ++ spec ++ "'")
  let phase ← phaseOfText (trim (cs.takeWhile (· ≠ '=')))
  let level ← Level.ofText (trim ((cs.dropWhile (· ≠ '=')).drop 1))
  return { c with phases := (phase, level) :: c.phases }

def ofTexts (level : String) (phases : List String) : Except String LogConfig := do
  phases.foldlM withPhase { level := ← Level.ofText level }

end LogConfig

structure LogLine where
  level : Level
  phase : Phase
  text : String
  deriving DecidableEq, Inhabited

inductive LogFormat where
  | pretty | compact | json
  deriving DecidableEq, Inhabited

def LogFormat.ofText? : String → Option LogFormat
  | "pretty" => some .pretty
  | "compact" => some .compact
  | "json" => some .json
  | _ => none

def LogLine.write (l : LogLine) : LogFormat → String
  | .compact => l.level.name ++ " " ++ l.phase.target ++ ": " ++ l.text ++ "\n"
  | .pretty => "  " ++ l.level.name ++ " " ++ l.phase.target ++ ": " ++ l.text ++ "\n\n"
  | .json =>
    "\x7b\x22level\x22:" ++ Text.quoted l.level.name ++ ",\x22message\x22:" ++
      Text.quoted l.text ++ ",\x22target\x22:" ++ Text.quoted l.phase.target ++ "\x7d\n"

/-- the text of all lines that a configuration lets through -/
def LogConfig.write (c : LogConfig) (format : LogFormat) (lines : List LogLine) : String :=
  String.join ((lines.filter (fun l => l.level.rank ≤ (c.levelFor l.phase).rank)).map
    (·.write format))

end Bindle.Cli
