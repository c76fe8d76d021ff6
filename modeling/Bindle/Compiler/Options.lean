import Bindle.Component.Create
import Bindle.Component.Loader
import Bindle.Component.Plugin
import Bindle.Graph.Grow

/-!
# Options of a compiler

What a build is about, with rules and plugins ready for use.  Options are made from a configuration,
or step by step; then each step adds to those before it.
-/

namespace Bindle

/-- a rule from a pattern as written -/
def Rule.ofText (pattern : String) (transforms : List Transform) : Except ConfigError Rule :=
  match Pattern.ofText pattern with
  | .ok p => .ok ⟨p, transforms⟩
  | .error e => .error (.invalidPattern pattern e)

structure Options (σ : Type) where
  root : Path
  entries : List (String × String) := []
  outputPath : Path
  filename : String
  rules : List Rule := []
  extensions : List String := [".js"]
  plugins : List (Plugin σ) := []

namespace Options

variable {σ : Type}

/-! ## step by step -/

def new (root : Path) : Options σ :=
  let output : Config.Output := {}
  { root := root, outputPath := root.join output.path, filename := output.filename }

def entry (o : Options σ) (name specifier : String) : Options σ :=
  { o with entries := o.entries ++ [(name, specifier)] }

def singleEntry (o : Options σ) (specifier : String) : Options σ :=
  o.entry Config.defaultChunk specifier

def output (o : Options σ) (path filename : String) : Options σ :=
  { o with outputPath := o.root.join path, filename := filename }

def rule (o : Options σ) (pattern : String) (transforms : List Transform) :
    Except ConfigError (Options σ) := do
  return { o with rules := o.rules ++ [← Rule.ofText pattern transforms] }

def plugin (o : Options σ) (p : Plugin σ) : Options σ := { o with plugins := o.plugins ++ [p] }

/-! ## from a configuration -/

def ruleOf (loaders : Registry Transform) (r : Config.RuleSpec) : Except ConfigError Rule := do
  Rule.ofText r.pattern (← loaders.createAll .loader r.loaders)

def ofConfig (c : Config) (root : Path) (loaders : Registry Transform)
    (plugins : Registry (Plugin σ)) : Except ConfigError (Options σ) := do
  if c.entry.pairs.isEmpty then throw .noEntries
  if c.output.filename.isEmpty then throw .emptyFilename
  let rules ← c.rules.mapM (ruleOf loaders)
  let plugins ← plugins.createAll .plugin c.plugins
  return {
    root := root
    entries := c.entry.pairs
    outputPath := root.join c.output.path
    filename := c.output.filename
    rules := rules
    extensions := c.extensions
    plugins := plugins }

/-! ## use -/

def filenameFor (o : Options σ) (chunk : String) : String := Config.filenameFor o.filename chunk

def settings (o : Options σ) : Settings := ⟨o.root, o.extensions, o.rules⟩

def shownPair (p : String × String) : String :=
  "(" ++ Text.shown p.1 ++ ", " ++ Text.shown p.2 ++ ")"

def shownFields (o : Options σ) : List (String × String) :=
  [("root", Text.shown o.root.text), ("entries", Text.shownList (o.entries.map shownPair)),
    ("output_path", Text.shown o.outputPath.text), ("filename", Text.shown o.filename),
    ("rules", Text.shownList (o.rules.map Rule.shown)),
    ("extensions", Text.shownList (o.extensions.map Text.shown)),
    ("plugins", Text.shownList (o.plugins.map (Text.shown ·.name)))]

def shown (o : Options σ) : String :=
  "CompilerOptions \x7b " ++
    ", ".intercalate (o.shownFields.map (fun f => f.1 ++ ": " ++ f.2)) ++ " \x7d"

end Options

end Bindle
