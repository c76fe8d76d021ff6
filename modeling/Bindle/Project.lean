import Bindle.Compiler.Basic
import Bindle.Config.Reader

/-!
# Projects

A project is a configuration file with the files around it.  The directory of the configuration is
the root of the build.

* `Compiler.ofConfig`   a compiler with the components that come along;
* `bundleProject`       reads a configuration and runs the build that it asks for.
-/

namespace Bindle

variable {σ : Type}

def Compiler.ofConfig (c : Config) (root : Path) (note : String → σ → σ) :
    Except ConfigError (Compiler σ) := do
  return Compiler.ofOptions (← Options.ofConfig c root Loader.builtins (Plugin.builtins note))

inductive ProjectError where
  | read (path : Path) (cause : FileError)
  | parse (path : Path) (cause : Json.Error)
  | config (cause : ConfigError)
  | build (cause : BuildError)
  deriving Inhabited

def ProjectError.text : ProjectError → String
  | read path cause => "cannot read '" ++ path.text ++ "': " ++ cause.text
  | parse path cause => "cannot parse '" ++ path.text ++ "': " ++ cause.text
  | config cause => cause.text
  | build cause => cause.text

/-- the directory that a configuration is in -/
def projectRoot (configPath : Path) : Path := (configPath.parent?.getD ⟨"."⟩).normalize

def openProject (configPath : Path) (text : Except FileError String) (note : String → σ → σ) :
    Except ProjectError (Compiler σ) := do
  let text ← text.mapError (.read configPath)
  let config ← (Config.ofText text).mapError (.parse configPath)
  (Compiler.ofConfig config (projectRoot configPath) note).mapError .config

variable {m : Type → Type} [Monad m]

def bundleProject (h : Host m) (configPath : Path) (note : String → σ → σ) (s : σ) :
    m (Except ProjectError Compilation × σ) := do
  match openProject configPath (← h.readText configPath) note with
  | .error e => return (.error e, s)
  | .ok compiler => do
    let (result, _, s) ← compiler.run h s
    return (result.mapError .build, s)

end Bindle
