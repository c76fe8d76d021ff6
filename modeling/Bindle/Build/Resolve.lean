import Bindle.Build.Dialogue
import Bindle.Build.Error

/-!
# Resolving specifiers

A specifier is looked up from a directory: first the path that it names, then the same path with
each extension added to it.  The first of these that is a file is what the specifier stands for.

* `candidates`   the paths to try, in order;
* `resolve`      the first that is a file, or an error with all that were tried.
-/

namespace Bindle

def candidates (extensions : List String) (base : Path) (specifier : String) : List Path :=
  let plain := (base.join specifier).normalize
  plain :: extensions.map (fun e => ⟨plain.text ++ e⟩)

def firstFile : List Path → Dialogue (Option Path)
  | [] => .done none
  | p :: ps => .ask (.isFile p) (fun found => if found then .done (some p) else firstFile ps)

/-- `importer` is the module that asks; an entry has none -/
def resolve (extensions : List String) (base : Path) (specifier : String)
    (importer : Option ModuleId) : Dialogue (Except BuildError Path) := do
  let tried := candidates extensions base specifier
  match ← firstFile tried with
  | some p => return .ok p
  | none => return .error (.resolution specifier base importer tried)

end Bindle
