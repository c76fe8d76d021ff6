import Bindle.Compilation
import Bindle.Compiler.Options

/-!
# Assets of chunks

Every chunk is rendered to an asset, under a file name that has the name of the chunk in it.  Two chunks
with one file name are an error.
-/

namespace Bindle

variable {σ : Type}

/-- renders chunks in turn; `owners` has the chunk that each file name was given to -/
def renderChunks (o : Options σ) (g : ModuleGraph) : List Chunk → Table String → Table String →
    Except BuildError (Table String)
  | [], _, assets => .ok assets
  | c :: cs, owners, assets =>
    let filename := o.filenameFor c.name
    match owners.get? filename with
    | some first => .error (.assetConflict filename first c.name)
    | none =>
      renderChunks o g cs (owners.insert filename c.name)
        (assets.insert filename (Bundle.text c g))

end Bindle
