import Bindle.Compiler.Assemble
import Bindle.Emission

/-!
# Stages of a build

A build goes through stages, and its state tells which of them was the last.  A stage that fails ends
the build; the state that it has come to by then stays.

* `Stages m α`          stages that work in the monad `m` and make an `α`;
* `Stages.transition`   goes over to another state;
* `buildCompilation`    builds the graph from all entries, assembles a chunk for each and renders the
                        chunks to assets; it asks for files and for the calls in them;
* `compilation`         what comes of it, apart from the state.
-/

namespace Bindle

inductive BuildState where
  | idle
  | running
  | graphBuilt
  | chunksAssembled
  | rendered
  | written
  | done
  | failed
  deriving DecidableEq, Inhabited

namespace BuildState

def name : BuildState → String
  | idle => "idle"
  | running => "running"
  | graphBuilt => "graph-built"
  | chunksAssembled => "chunks-assembled"
  | rendered => "assets-rendered"
  | written => "written"
  | done => "done"
  | failed => "failed"

def shown : BuildState → String
  | idle => "Idle"
  | running => "Running"
  | graphBuilt => "GraphBuilt"
  | chunksAssembled => "ChunksAssembled"
  | rendered => "AssetsRendered"
  | written => "Written"
  | done => "Done"
  | failed => "Failed"

end BuildState

abbrev Stages (m : Type → Type) := ExceptT BuildError (StateT BuildState m)

namespace Stages

def transition {m : Type → Type} [MonadStateOf BuildState m] (next : BuildState) : m Unit := set next

variable {m : Type → Type} [Monad m] {α : Type}

/-- a stage that leaves the state as it is -/
def of (action : m (Except BuildError α)) : Stages m α := ExceptT.mk (StateT.lift action)

/-- a failure has a state of its own -/
def orFailed (stages : Stages m α) : Stages m α := ExceptT.mk do
  match ← stages.run with
  | .ok a => return .ok a
  | .error e =>
    transition .failed
    return .error e

end Stages

/-- stages that ask, with the answers of a host -/
def Host.through {m : Type → Type} [Monad m] {α : Type} (h : Host m) (stages : Stages Dialogue α) :
    Stages m α := ExceptT.mk fun state => h.ask (stages.run.run state)

open Stages

variable {σ : Type}

def buildCompilation (o : Options σ) (limit : Nat) : Stages Dialogue Compilation := do
  let (built, g) ← buildEntries o.settings limit o.entries {}
  let entries ← built
  transition .graphBuilt
  let chunks := Chunk.assemble g.graph entries
  transition .chunksAssembled
  let assets ← renderChunks o g.graph chunks {} {}
  transition .rendered
  return ⟨g.graph, chunks, assets, g.files⟩

def compilation (o : Options σ) (limit : Nat) : Dialogue (Except BuildError Compilation) := do
  return (← (buildCompilation o limit).run.run .running).1

end Bindle
