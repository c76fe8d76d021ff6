import Bindle.Json.Value
import Bindle.Text.Replace

/-!
# Configurations

What a project says about its build: entries, output, rules, extensions and plugins.

* `Entry.pairs`           the entries as chunk names with paths;
* `Output.filenameFor`    the file of a chunk: every `[name]` in the pattern becomes its name;
* `Config.withEntry`      one entry and defaults everywhere else.
-/

namespace Bindle

/-- a loader or plugin by its registered name, with options for it -/
structure ComponentSpec where
  name : String
  options : Json := .null
  deriving Inhabited

namespace Config

inductive Entry where
  | single (path : String)
  | named (pairs : List (String × String))
  deriving DecidableEq, Inhabited

/-- the chunk of a single entry -/
def defaultChunk : String := "main"

def Entry.pairs : Entry → List (String × String)
  | .single path => [(defaultChunk, path)]
  | .named pairs => pairs

def Entry.isSingle : Entry → Bool
  | .single _ => true
  | .named _ => false

def nameToken : String := "[name]"

structure Output where
  path : String := "dist"
  filename : String := nameToken ++ ".js"
  deriving DecidableEq, Inhabited

def Output.isDefault (o : Output) : Bool := o = {}

/-- the file that a pattern gives to a chunk -/
def filenameFor (pattern chunk : String) : String :=
  String.ofList (Text.replaceAll nameToken.toList chunk.toList pattern.toList)

def Output.filenameFor (o : Output) (chunk : String) : String := Config.filenameFor o.filename chunk

/-- modules whose path matches the pattern pass through loaders -/
structure RuleSpec where
  pattern : String := ""
  loaders : List ComponentSpec := []
  deriving Inhabited

end Config

structure Config where
  entry : Config.Entry
  output : Config.Output := {}
  rules : List Config.RuleSpec := []
  extensions : List String := [".js"]
  plugins : List ComponentSpec := []
  deriving Inhabited

def Config.withEntry (path : String) : Config := { entry := .single path }

end Bindle
