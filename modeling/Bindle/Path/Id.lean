import Bindle.Path.Normal

/-!
# Module ids

The id of a module is the path of its file relative to the root of the project, with `./` in
front.  All spellings of a path have one id, so ids are what a build tells modules apart by.
-/

namespace Bindle

@[ext] structure ModuleId where
  text : String
  deriving DecidableEq, Inhabited, Hashable

def ModuleId.ofPath (root p : Path) : ModuleId :=
  ⟨"./" ++ Path.relative root.normalize p.normalize⟩

end Bindle
