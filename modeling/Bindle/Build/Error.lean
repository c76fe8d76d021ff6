import Bindle.Files.Content
import Bindle.Hook.Basic
import Bindle.Path.Id
import Bindle.Script.Call

/-!
# Builds that fail

Each error names what it is about: a specifier, a module, a path, a tap or two chunks.
-/

namespace Bindle

inductive BuildError where
  /-- none of the paths that were tried is a file -/
  | resolution (specifier : String) (base : Path) (importer : Option ModuleId) (tried : List Path)
  | loader (rule name : String) (id : ModuleId) (cause : String)
  | parse (id : ModuleId) (cause : Script.SyntaxError)
  /-- a call whose argument is not a single string -/
  | unsupportedDependency (id : ModuleId) (position : Text.Position) (argument : String)
  | io (path : Path) (cause : FileError)
  | hook (at_ : Hook) (tap cause : String)
  | assetConflict (filename first second : String)
  /-- the graph is full -/
  | tooManyModules (limit : Nat)
  deriving DecidableEq, Inhabited

namespace BuildError

def requiredBy : Option ModuleId → String
  | some id => " (required by " ++ id.text ++ ")"
  | none => ""

def text : BuildError → String
  | resolution specifier base importer _ =>
    "cannot resolve '" ++ specifier ++ "' from '" ++ base.text ++ "'" ++ requiredBy importer
  | loader rule name id cause =>
    "loader '" ++ name ++ "' (rule " ++ rule ++ ") failed on module " ++ id.text ++ ": " ++ cause
  | parse id cause => "cannot parse module " ++ id.text ++ ": " ++ cause.text
  | unsupportedDependency id position argument =>
    "unsupported dependency in module " ++ id.text ++ " at " ++ position.label ++ ": require(" ++
      argument ++ ") must take a single string literal"
  | io path cause => "I/O error on '" ++ path.text ++ "': " ++ cause.text
  | hook at_ tap cause => "'" ++ at_.name ++ "' hook callback '" ++ tap ++ "' failed: " ++ cause
  | assetConflict filename first second =>
    "chunks '" ++ first ++ "' and '" ++ second ++ "' both render to asset '" ++ filename ++ "'"
  | tooManyModules limit => "more than " ++ toString limit ++ " modules"

/-- the family of an error, in one word -/
def kind : BuildError → String
  | resolution .. => "resolution"
  | loader .. => "loader"
  | parse .. => "parse"
  | unsupportedDependency .. => "unsupported-dependency"
  | io .. => "io"
  | hook .. => "hook"
  | assetConflict .. => "asset-conflict"
  | tooManyModules .. => "too-many-modules"

end BuildError

end Bindle
