import Bindle.Build.Extract
import Bindle.Rule

/-!
# Growing a graph

A graph grows from the path of a module, for a chunk.  A module that is not there yet is analysed and
added, and then its dependencies are gone through, each with all that it needs before the next.  A
module that is there already joins the chunk with everything it depends on.

* `analyse`      what a file is as a module: its text, and its dependencies;
* `grow`         goes through a list of paths;
* `build`        from one path;
* `buildEntry`   from the path that an entry stands for.

Whatever was added before a failure stays.
-/

namespace Bindle

/-- what decides how a file becomes a module -/
structure Settings where
  root : Path
  extensions : List String
  rules : List Rule

structure Growth where
  graph : ModuleGraph := .empty
  /-- all files that the graph was made from, each place once, in order -/
  files : List Path := []
  deriving Inhabited

namespace Growth

def addFiles (g : Growth) (paths : List Path) : Growth :=
  { g with files := paths.foldl (fun files p => Path.insertSorted p files) g.files }

def addModule (g : Growth) (m : Module) : Growth := { g with graph := g.graph.insert m }

def join (g : Growth) (name : String) (id : ModuleId) : Growth :=
  { g with graph := g.graph.join name [id] }

end Growth

/-! ## one file -/

structure Analysis where
  /-- the files that were found, the module's own first -/
  files : List Path
  /-- the dependencies and the text with their ids -/
  outcome : Except BuildError (List Dependency × String)

namespace Settings

def idOf (s : Settings) (p : Path) : ModuleId := ModuleId.ofPath s.root p

/-- dependencies are resolved from the directory of the file -/
def site (s : Settings) (p : Path) : Site :=
  ⟨s.root, s.extensions, s.idOf p, p.parent?.getD s.root⟩

/-- a text that has passed the rules, as a module -/
def analyseText (s : Settings) (p : Path) (source : String) : Dialogue Analysis := do
  match ← Dialogue.answerTo (.parse source) with
  | .error e => return ⟨[p], .error (.parse (s.idOf p) e)⟩
  | .ok tree => do
    let x ← extract (s.site p) tree.calls
    match x.failure with
    | some e => return ⟨p :: x.files, .error e⟩
    | none => return ⟨p :: x.files, .ok (x.dependencies, tree.render x.calls)⟩

def analyse (s : Settings) (p : Path) : Dialogue Analysis := do
  match ← Dialogue.answerTo (.text p) with
  | .error e => return ⟨[], .error (.io p e)⟩
  | .ok raw =>
    match Rule.load s.rules (s.idOf p) p raw with
    | .error e => return ⟨[p], .error e⟩
    | .ok source => s.analyseText p source

def moduleOf (s : Settings) (name : String) (p : Path) (found : List Dependency × String) :
    Module := ⟨s.idOf p, p, [name], found.1, found.2⟩

end Settings

/-! ## many files -/

/-- what growing ends in -/
abbrev Grown := Option BuildError × Growth

/-- goes on with paths and a graph -/
abbrev Onward := List Path → Growth → Dialogue Grown

/-- adds the module at `p` and goes on with what it depends on -/
def expand (s : Settings) (name : String) (onward : Onward) (p : Path) (rest : List Path)
    (g : Growth) : Dialogue Grown := do
  let a ← s.analyse p
  let g := g.addFiles a.files
  match a.outcome with
  | .error e => return (some e, g)
  | .ok found =>
    onward (found.1.map Dependency.path ++ rest) (g.addModule (s.moduleOf name p found))

/-- goes on as long as the modules are known, and hands over the first that is not -/
def walk (s : Settings) (name : String) (unknown : Path → List Path → Growth → Dialogue Grown) :
    Onward
  | [], g => .done (none, g)
  | p :: rest, g =>
    if g.graph.contains (s.idOf p) then walk s name unknown rest (g.join name (s.idOf p))
    else unknown p rest g

/-- adds at most `room` modules; one more is an error -/
def grow (s : Settings) (name : String) (limit : Nat) (room : Nat) : Onward :=
  match room with
  | 0 => walk s name (fun _ _ g => .done (some (.tooManyModules limit), g))
  | room + 1 => walk s name (expand s name (grow s name limit room))

/-- how many modules a graph is given room for -/
def ModuleGraph.capacity : Nat := 4294967296

/-- the graph does not get more than `limit` modules -/
def build (s : Settings) (limit : Nat) (name : String) (p : Path) (g : Growth) :
    Dialogue (Except BuildError ModuleId × Growth) := do
  match ← grow s name limit (limit - g.graph.size) [p] g with
  | (some e, g) => return (.error e, g)
  | (none, g) => return (.ok (s.idOf p), g)

def buildEntry (s : Settings) (limit : Nat) (name specifier : String) (g : Growth) :
    Dialogue (Except BuildError ModuleId × Growth) := do
  match ← resolve s.extensions s.root specifier none with
  | .error e => return (.error e, g)
  | .ok p => build s limit name p g

/-- all entries in turn, up to the first failure; each with the id of its module -/
def buildEntries (s : Settings) (limit : Nat) : List (String × String) → Growth →
    Dialogue (Except BuildError (List (String × ModuleId)) × Growth)
  | [], g => .done (.ok [], g)
  | (name, specifier) :: rest, g => do
    match ← buildEntry s limit name specifier g with
    | (.error e, g) => return (.error e, g)
    | (.ok id, g) =>
      match ← buildEntries s limit rest g with
      | (.error e, g) => return (.error e, g)
      | (.ok entries, g) => return (.ok ((name, id) :: entries), g)

end Bindle
