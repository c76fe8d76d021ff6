/-!
# The phases of a build

Each phase has a name and a target under which its log lines appear.
-/

namespace Bindle

inductive Phase where
  | resolve | loader | parse | graph | chunk | emit | hooks
  deriving DecidableEq, Inhabited

namespace Phase

/-- all phases, in the order of the pipeline -/
def all : List Phase := [resolve, loader, parse, graph, chunk, emit, hooks]

def name : Phase → String
  | resolve => "resolve"
  | loader => "loader"
  | parse => "parse"
  | graph => "graph"
  | chunk => "chunk"
  | emit => "emit"
  | hooks => "hooks"

def target (p : Phase) : String := "kiln::" ++ p.name

end Phase

end Bindle
