import Bindle.Json.Value
import Bindle.Table

/-!
# Components

Loaders and plugins are named in configurations and made by factories.  A factory checks the options
that stand beside the name, and then makes the component from them.

* `Factory α`      what is known of a component, and how it is made;
* `Registry α`     factories by name;
* `noOptions`      the check of a component that has no options.
-/

namespace Bindle

inductive ComponentKind where
  | loader
  | plugin
  deriving DecidableEq, Inhabited

def ComponentKind.name : ComponentKind → String
  | loader => "loader"
  | plugin => "plugin"

structure Metadata where
  name : String
  version : String
  kind : ComponentKind
  description : Option String
  deriving DecidableEq, Inhabited

/-- the version of the components that come along -/
def version : String := "0.1.0"

structure Factory (α : Type) where
  metadata : Metadata
  /-- the complaint about options, if there is one -/
  validate : Json → Except String Unit
  create : Json → Except String α

abbrev Registry (α : Type) := Table (Factory α)

/-- null or an object without fields -/
def noOptions : Json → Except String Unit
  | .null => .ok ()
  | .object [] => .ok ()
  | _ => .error "takes no options"

/-- a component that needs no options is always made -/
def Factory.plain {α : Type} (metadata : Metadata) (a : α) : Factory α :=
  ⟨metadata, noOptions, fun _ => .ok a⟩

namespace Registry

variable {α : Type}

/-- a factory takes the place of one with the same name -/
def register (r : Registry α) (f : Factory α) : Registry α := r.insert f.metadata.name f

def ofList (fs : List (Factory α)) : Registry α := fs.foldl register {}

def names (r : Registry α) : List String := r.keys

end Registry

end Bindle
