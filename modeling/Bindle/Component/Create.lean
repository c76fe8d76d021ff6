import Bindle.Config.Basic
import Bindle.Config.Error

/-!
# Making components

A component that a configuration names is looked up, its options are checked, and it is made; each
of the three may fail.
-/

namespace Bindle.Registry

variable {α : Type}

def create (r : Registry α) (kind : ComponentKind) (spec : ComponentSpec) :
    Except ConfigError α :=
  match r.get? spec.name with
  | none => .error (.componentNotFound kind spec.name)
  | some f =>
    match (do f.validate spec.options; f.create spec.options) with
    | .ok a => .ok a
    | .error message => .error (.invalidOptions f.metadata.kind f.metadata.name message)

/-- makes all components in turn, up to the first failure -/
def createAll (r : Registry α) (kind : ComponentKind) (specs : List ComponentSpec) :
    Except ConfigError (List α) := specs.mapM (r.create kind)

def shown (r : Registry α) : String :=
  "Registry \x7b names: " ++ Text.shownList (r.names.map Text.shown) ++ " \x7d"

end Bindle.Registry
