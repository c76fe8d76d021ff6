import Bindle.Config.Basic
import Bindle.Json.Reader

/-!
# Reading configurations

`Config.ofText` reads a configuration from JSON.  Unknown and repeated fields are refused; every
structure may also be written as an array of its fields.  An entry is a path or an object from chunk
names to paths; a component is a name or an object with a name and options.  These two are read as
values first, so that every fault of theirs has one message and one place.
-/

namespace Bindle.Config

open Json Json.Read

/-- the pairs of an object of strings with distinct keys -/
def pairsOf? : List (String × Json) → Option (List (String × String))
  | [] => some []
  | (name, .string path) :: fields =>
    if fields.any (·.1 = name) then none else (pairsOf? fields).map ((name, path) :: ·)
  | _ :: _ => none

def Entry.ofJson? : Json → Option Entry
  | .string path => some (.single path)
  | .object fields => (pairsOf? fields).map .named
  | _ => none

def readEntry (depth : Nat) : Read Entry := do
  match Entry.ofJson? (← value depth) with
  | some entry => return entry
  | none => raise (.noVariant "EntryConfig")

/-- the only field with a key; none if there is no such field or more than one -/
def onlyField? (key : String) (fields : List (String × Json)) : Option Json :=
  match fields.filter (·.1 = key) with
  | [(_, v)] => some v
  | _ => none

def component? (fields : List (String × Json)) : Option ComponentSpec :=
  match onlyField? "name" fields with
  | some (.string name) =>
    match fields.filter (·.1 = "options") with
    | [] => some ⟨name, .null⟩
    | [(_, options)] => some ⟨name, options.merged⟩
    | _ => none
  | _ => none

def componentOfJson? : Json → Option ComponentSpec
  | .string name => some ⟨name, .null⟩
  | .object fields => component? fields
  | _ => none

def readComponent (depth : Nat) : Read ComponentSpec := do
  match componentOfJson? (← value depth) with
  | some spec => return spec
  | none => raise (.noVariant "RawComponentSpec")

def outputShape : Shape Output where
  name := "OutputConfig"
  fields := ["path", "filename"]
  required := []
  empty := {}
  read := fun _ field o => do
    let s ← text
    return if field = "path" then { o with path := s } else { o with filename := s }

def ruleShape : Shape RuleSpec where
  name := "RuleConfig"
  fields := ["test", "use"]
  required := ["test"]
  empty := {}
  read := fun depth field r => do
    if field = "test" then return { r with pattern := ← text }
    else return { r with loaders := ← list depth readComponent }

def rulesShape : Shape (List RuleSpec) where
  name := "ModuleConfig"
  fields := ["rules"]
  required := []
  empty := []
  read := fun depth _ _ => list depth (record ruleShape)

def extensionsShape : Shape (List String) where
  name := "ResolveConfig"
  fields := ["extensions"]
  required := []
  empty := [".js"]
  read := fun depth _ _ => list depth (fun _ => text)

def shape : Shape Config where
  name := "BundlerConfig"
  fields := ["entry", "output", "module", "resolve", "plugins"]
  required := ["entry"]
  empty := { entry := .single "" }
  read := fun depth field c => do
    match field with
    | "entry" => return { c with entry := ← readEntry depth }
    | "output" => return { c with output := ← record outputShape depth }
    | "module" => return { c with rules := ← record rulesShape depth }
    | "resolve" => return { c with extensions := ← record extensionsShape depth }
    | _ => return { c with plugins := ← list depth readComponent }

def ofText (source : String) : Except Json.Error Config := decode source (record shape)

end Bindle.Config
