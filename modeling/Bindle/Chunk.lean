import Bindle.Graph.Basic

/-!
# Chunks

A chunk is what one entry needs: its own module and every module that carries the name of the
chunk, in the order of the graph.
-/

namespace Bindle

structure Chunk where
  name : String
  entry : ModuleId
  ids : List ModuleId
  deriving DecidableEq, Inhabited

namespace Chunk

def ofEntry (g : ModuleGraph) (name : String) (entry : ModuleId) : Chunk :=
  ⟨name, entry, (g.modules.filter (·.inChunk name)).map Module.id⟩

def assemble (g : ModuleGraph) (entries : List (String × ModuleId)) : List Chunk :=
  entries.map (fun e => ofEntry g e.1 e.2)

end Chunk

end Bindle
