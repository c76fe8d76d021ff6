import Bindle.Cli.Arguments
import Bindle.Cli.Context
import Bindle.Project

/-!
# The command

`Cli.run` is the whole command: it reads arguments, sets up the log, reads the configuration, builds,
and reports the assets or what went wrong.  All that it prints is in its `Outcome`.
-/

namespace Bindle.Cli

structure Outcome where
  exit : Nat
  output : String := ""
  errors : String := ""
  deriving DecidableEq, Inhabited

/-- the configuration that is read when no other is given -/
def defaultConfig : String := "kiln.json"

def Arguments.configPath (a : Arguments) : Path := ⟨a.config.getD defaultConfig⟩

/-! ## reports -/

def assetLine (asset : String × String) : String :=
  asset.1 ++ "  " ++ toString asset.2.utf8ByteSize ++ " bytes\n"

def report (made : Compilation) (json : Bool) : String :=
  if json then made.stats.summary.merged.pretty ++ "\n"
  else String.join (made.assets.entries.map assetLine)

def missingConfig (p : Path) : String :=
  "'" ++ p.text ++ "' not found\n\nThe current directory is not a kiln project.\nHint: create '" ++
    p.text ++ "' with an 'entry' field"

/-- the module and the place that a build error is about -/
def placeOf : BuildError → Option (ModuleId × Text.Position)
  | .parse id cause => some (id, cause.position)
  | .unsupportedDependency id position _ => some (id, position)
  | _ => none

def triedLines : BuildError → String
  | .resolution _ _ _ tried => String.join (tried.map (fun p => "  tried " ++ p.text ++ "\n"))
  | _ => ""

variable {m : Type → Type} [Monad m]

/-- the lines around a fault; a text that rules have changed has other lines than its file -/
def contextOf (h : Host m) (s : Settings) (e : BuildError) : m String := do
  match placeOf e with
  | none => return ""
  | some (id, position) =>
    let path := (s.root.join id.text).normalize
    if s.rules.any (·.appliesTo path) then return ""
    match ← h.readText path with
    | .ok source => return contextText source position.line position.column
    | .error _ => return ""

def errorText (h : Host m) (s : Settings) (e : BuildError) : m String := do
  return "error[" ++ e.kind ++ "]: " ++ e.text ++ "\n" ++ triedLines e ++ (← contextOf h s e)

/-! ## the steps of the command -/

def failure (message : String) : Outcome := { exit := 1, errors := "Error: " ++ message ++ "\n" }

/-- the file of the log is made if it is not there -/
def openLog (h : Host m) (p : Path) : m (Except FileError Unit) := do
  if ← h.isFile p then return .ok () else h.write p (.text "")

def appendLog (h : Host m) (p : Path) (lines : String) : m Unit := do
  if lines ≠ "" then
    match ← h.read p with
    | .ok content => do
      let _ ← h.write p (.ofBytes (content.bytes ++ lines.toUTF8))
    | .error _ => return ()

def readConfig (h : Host m) (p : Path) : m (Except String Config) := do
  let file ← h.isFile p
  let directory ← h.isDir p
  if ¬ (file || directory) then return .error (missingConfig p)
  match ← h.readText p with
  | .error e => return .error ("cannot read '" ++ p.text ++ "': " ++ e.reason)
  | .ok text =>
    match Config.ofText text with
    | .error e => return .error ("cannot parse '" ++ p.text ++ "': " ++ e.text)
    | .ok config => return .ok config

/-- the directory of the configuration, as an absolute path -/
def rootOf (here configPath : Path) : Path :=
  (here.join (configPath.parent?.getD ⟨"."⟩).text).normalize

def note (text : String) (lines : List LogLine) : List LogLine :=
  lines ++ [⟨.info, .hooks, text⟩]

def runCompiler (h : Host m) (c : Compiler (List LogLine)) (json : Bool) :
    m (Outcome × List LogLine) := do
  match ← c.run h [] with
  | (.ok made, _, lines) => return ({ exit := 0, output := report made json }, lines)
  | (.error e, _, lines) =>
    return ({ exit := 1, errors := ← errorText h c.options.settings e },
      lines ++ [⟨.warn, .hooks, "build failed: " ++ e.text⟩])

/-- reads the configuration and builds -/
def bundle (h : Host m) (here : Path) (a : Arguments) : m (Outcome × List LogLine) := do
  match ← readConfig h a.configPath with
  | .error message => return (failure message, [])
  | .ok config =>
    match Compiler.ofConfig config (rootOf here a.configPath) note with
    | .error e =>
      return (failure ("invalid configuration '" ++ a.configPath.text ++ "': " ++ e.text), [])
    | .ok compiler => runCompiler h compiler a.json

/-- builds with a log, which goes to the errors and to the log file -/
def runLogged (h : Host m) (here : Path) (a : Arguments) (log : LogConfig) : m Outcome := do
  let opened ← match a.logFile with
    | some file => openLog h ⟨file⟩
    | none => pure (.ok ())
  match opened with
  | .error e => return failure ("cannot open log file: " ++ e.reason)
  | .ok () =>
    let (outcome, lines) ← bundle h here a
    let text := log.write (a.logFormat.getD .compact) lines
    match a.logFile with
    | some file => appendLog h ⟨file⟩ text
    | none => pure ()
    return { outcome with errors := text ++ outcome.errors }

/-- `here` is the current directory -/
def run (h : Host m) (here : Path) (args : List String) : m Outcome := do
  match Request.ofArguments args with
  | .error message => return { exit := 2, errors := "error: " ++ message ++ "\n\n" ++ usageLine }
  | .ok .help => return { exit := 0, output := helpText }
  | .ok .version => return { exit := 0, output := versionText }
  | .ok (.run a) =>
    match LogConfig.ofTexts (a.logLevel.getD "warn") a.logPhases with
    | .error message => return { exit := 2, errors := "Error: " ++ message ++ "\n" }
    | .ok log => runLogged h here a log

end Bindle.Cli
