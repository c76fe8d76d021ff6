import Bindle.Chunk
import Bindle.Text.Quoted

/-!
# Bundles

A bundle is one script for all modules of a chunk.  It has a function for every module, in an object
whose keys are the ids; a `require` that runs such a function once and remembers what it exports;
and the text of the entry, which runs at the end.
-/

namespace Bindle.Bundle

/-- a text that ends its last line -/
def body (source : String) : String :=
  if source.toList.getLast? = some '\n' then source else source ++ "\n"

def key (id : ModuleId) : String := Text.quoted id.text

def wrapper (m : Module) : String :=
  "    " ++ key m.id ++ ": (module, exports, require) => \x7b\n" ++ body m.source ++ "    \x7d,\n"

def opening : String := "(() => \x7b\n  var modules = \x7b\n"

/-- the end of the object of modules, and the function that runs them -/
def requireFunction : String :=
  "  \x7d;\n" ++
  "  var cache = \x7b\x7d;\n" ++
  "  function require(moduleId) \x7b\n" ++
  "    if (cache[moduleId] !== undefined) return cache[moduleId].exports;\n" ++
  "    var module = (cache[moduleId] = \x7b exports: \x7b\x7d \x7d);\n" ++
  "    modules[moduleId](module, module.exports, require);\n" ++
  "    return module.exports;\n" ++
  "  \x7d\n" ++
  "  var exports = \x7b\x7d;\n"

def closing : String := "\x7d)()\n"

/-- the modules of a chunk; an id that the graph does not have is left out -/
def modulesOf (c : Chunk) (g : ModuleGraph) : List Module := c.ids.filterMap g.find?

/-- the text that runs at the end -/
def start (c : Chunk) (g : ModuleGraph) : String :=
  match g.find? c.entry with
  | some m => body m.source
  | none => ""

def text (c : Chunk) (g : ModuleGraph) : String :=
  opening ++ String.join ((modulesOf c g).map wrapper) ++ requireFunction ++ start c g ++ closing

end Bindle.Bundle
