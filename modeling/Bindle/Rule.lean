import Bindle.Build.Error
import Bindle.Pattern.Basic

/-!
# Rules and transforms

A transform makes a new text from the text of a module, or fails.  A rule sends modules whose path
has the rule's pattern in it through transforms.  The transforms of all rules that apply to a module
run from the last declared to the first.

* `Rule.selected rules p`        the transforms for the module at `p`, in the order of their run;
* `Rule.load rules id p source`  the text that they make of `source`;
* `Rule.ran`                     those that do run: all, or all up to the first that fails.
-/

namespace Bindle

structure Transform where
  name : String
  apply : String → Except String String

structure Rule where
  pattern : Pattern
  transforms : List Transform

namespace Rule

def appliesTo (r : Rule) (p : Path) : Bool := r.pattern.isFoundIn p.unixText

/-- the transforms for a path, as declared -/
def declared (rules : List Rule) (p : Path) : List (Rule × Transform) :=
  (rules.filter (·.appliesTo p)).flatMap (fun r => r.transforms.map (fun t => (r, t)))

def selected (rules : List Rule) (p : Path) : List (Rule × Transform) := (declared rules p).reverse

def loadThrough (id : ModuleId) : List (Rule × Transform) → String → Except BuildError String
  | [], source => .ok source
  | (r, t) :: rest, source =>
    match t.apply source with
    | .ok source' => loadThrough id rest source'
    | .error cause => .error (.loader r.pattern.text t.name id cause)

def load (rules : List Rule) (id : ModuleId) (p : Path) (source : String) :
    Except BuildError String := loadThrough id (selected rules p) source

def ran : List (Rule × Transform) → String → List (Rule × Transform)
  | [], _ => []
  | (r, t) :: rest, source =>
    match t.apply source with
    | .ok source' => (r, t) :: ran rest source'
    | .error _ => [(r, t)]

/-- a rule with its pattern and the names of its transforms -/
def shown (r : Rule) : String :=
  "Rule \x7b test: " ++ Text.shown r.pattern.text ++ ", use: " ++
    Text.shownList (r.transforms.map (Text.shown ·.name)) ++ " \x7d"

end Rule

end Bindle
