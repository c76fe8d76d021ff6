import Bindle.Bundle
import Bindle.Json.Print
import Bindle.Table

/-!
# Compilations

A compilation is all that a build makes before it writes: the graph, the chunks, the assets by their
file names and the files that it was made from.  Of these, `Stats` is what a report shows.
-/

namespace Bindle

structure Stats where
  chunks : List Chunk
  modules : List Module
  assets : Table String
  deriving Inhabited

structure Compilation where
  graph : ModuleGraph
  chunks : List Chunk
  assets : Table String
  files : List Path
  deriving Inhabited

namespace Compilation

def module? (c : Compilation) (id : ModuleId) : Option Module := c.graph.find? id

def chunk? (c : Compilation) (name : String) : Option Chunk := c.chunks.find? (·.name = name)

def stats (c : Compilation) : Stats := ⟨c.chunks, c.graph.modules, c.assets⟩

end Compilation

/-! ## reports -/

def idList (ids : List ModuleId) : Json := .array (ids.map (fun id => .string id.text))

def Chunk.report (c : Chunk) : Json :=
  .object [("name", .string c.name), ("entryModuleId", .string c.entry.text),
    ("moduleIds", idList c.ids)]

def Dependency.report (d : Dependency) : Json :=
  .object [("specifier", .string d.specifier), ("resolvedId", .string d.id.text)]

def Module.report (m : Module) : Json :=
  .object [("id", .string m.id.text), ("absolutePath", .string m.path.text),
    ("chunkNames", .array (m.chunkNames.map .string)),
    ("dependencies", .array (m.dependencies.map Dependency.report))]

namespace Stats

def reportWith (s : Stats) (asset : String → Json) : Json :=
  .object [("chunks", .array (s.chunks.map Chunk.report)),
    ("modules", .array (s.modules.map Module.report)),
    ("assets", .object (s.assets.entries.map (fun a => (a.1, asset a.2))))]

/-- with the texts of the assets -/
def report (s : Stats) : Json := s.reportWith .string

/-- with the sizes of the assets in bytes -/
def summary (s : Stats) : Json :=
  s.reportWith (fun code => .number (.natural code.utf8ByteSize))

end Stats

end Bindle
