import Bindle.Compiler.Stages

/-!
# Compilers

A compiler has options, hooks, and the state in which the last operation left it.

* `Compiler.compile`   makes a compilation;
* `Compiler.runOn`     calls the `run` taps, makes a compilation, writes its assets and calls the
                       `done` taps; the first failure ends it.

The callbacks share a state.  On the host of `Compiler.runOn` this can be all that the host has, its
files too; for `Compiler.run` it is a state of their own, which is handed through.
-/

namespace Bindle

open Stages

structure Compiler (σ : Type) where
  options : Options σ
  hooks : Hooks σ := {}
  plugins : List (Plugin σ) := []
  state : BuildState := .idle

namespace Compiler

variable {σ : Type}

/-- the plugins of the options are applied, and belong to the compiler from then on -/
def ofOptions (o : Options σ) : Compiler σ where
  options := { o with plugins := [] }
  hooks := o.plugins.foldl (fun h p => p.applyTo h) {}
  plugins := o.plugins

def tap (c : Compiler σ) (hook : Hook) (t : Tap σ) : Compiler σ :=
  { c with hooks := c.hooks.tap hook t }

def pluginNames (c : Compiler σ) : List String := c.plugins.map Plugin.name

def shown (c : Compiler σ) : String :=
  "Compiler \x7b options: " ++ c.options.shown ++ ", hooks: " ++ c.hooks.shown ++ ", plugins: " ++
    Text.shownList (c.pluginNames.map Text.shown) ++ ", state: " ++ c.state.shown ++ " \x7d"

/-! ## operations -/

section

variable {m : Type → Type} [Monad m] {α : Type}

/-- goes through stages, from the state that the compiler is in -/
def go (c : Compiler σ) (stages : Stages m α) : m (Except BuildError α × Compiler σ) := do
  let (result, state) ← stages.orFailed.run.run c.state
  return (result, { c with state := state })

/-- the stages up to the assets -/
def compileStages (h : Host m) (c : Compiler σ) : Stages m Compilation := do
  transition .running
  h.through (buildCompilation c.options ModuleGraph.capacity)

def compile (h : Host m) (c : Compiler σ) : m (Except BuildError Compilation × Compiler σ) :=
  c.go (c.compileStages h)

variable [MonadStateOf σ m]

def callHook (c : Compiler σ) (hook : Hook) : Stages m Unit :=
  .of (modifyGetThe σ (c.hooks.call hook))

def runStages (h : Host m) (c : Compiler σ) : Stages m Compilation := do
  transition .running
  c.callHook .run
  let made ← h.through (buildCompilation c.options ModuleGraph.capacity)
  let _ ← Stages.of (Emission.emit h c.options.outputPath made.assets)
  transition .written
  c.callHook .done
  transition .done
  return made

def runOn (h : Host m) (c : Compiler σ) : m (Except BuildError Compilation × Compiler σ) :=
  c.go (c.runStages h)

end

/-- a run whose callbacks have a state beside that of the host -/
def run {m : Type → Type} [Monad m] (h : Host m) (c : Compiler σ) (s : σ) :
    m (Except BuildError Compilation × Compiler σ × σ) := do
  let ((result, c), s) ← (c.runOn (h.lift σ)).run s
  return (result, c, s)

end Compiler

end Bindle
