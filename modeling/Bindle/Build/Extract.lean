import Bindle.Build.Resolve
import Bindle.Graph.Basic

/-!
# Extracting dependencies

The calls of a module are gone through in their order.  Each must have a literal argument; it is
resolved, recorded as a dependency, and replaced by the id of the module that it stands for.  The
first call for which this fails ends the extraction, and what came before it stays recorded.
-/

namespace Bindle

/-- where the calls of a module are resolved from -/
structure Site where
  root : Path
  extensions : List String
  id : ModuleId
  directory : Path
  deriving DecidableEq, Inhabited

structure Extraction where
  /-- all calls; those before a failure have their new values -/
  calls : List Script.Call
  dependencies : List Dependency
  failure : Option BuildError
  deriving Inhabited

namespace Extraction

/-- one more call, which was resolved, before the others -/
def after (c : Script.Call) (d : Dependency) (x : Extraction) : Extraction :=
  { x with calls := (c.replace d.id.text).1 :: x.calls, dependencies := d :: x.dependencies }

/-- the files behind the dependencies -/
def files (x : Extraction) : List Path := x.dependencies.map Dependency.path

end Extraction

def extract (site : Site) : List Script.Call → Dialogue Extraction
  | [] => .done ⟨[], [], none⟩
  | c :: cs =>
    match c.argument with
    | .dynamic written =>
      .done ⟨c :: cs, [], some (.unsupportedDependency site.id c.position written)⟩
    | .literal specifier => do
      match ← resolve site.extensions site.directory specifier (some site.id) with
      | .error e => return ⟨c :: cs, [], some e⟩
      | .ok path => do
        let rest ← extract site cs
        return rest.after c ⟨specifier, ModuleId.ofPath site.root path, path⟩

end Bindle
