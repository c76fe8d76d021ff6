import Bindle.Path.Basic

/-!
# Normal forms of paths and paths relative to a directory

* `Path.normalize p`      `p` without `.` and with every `..` folded into the name before it;
                          nothing lies above the root;
* `Path.relative base p`  the way from `base` to `p`: up as often as `base` has components of its
                          own, then down.
-/

namespace Bindle.Path

/-- one step of normalization; the components so far come last first -/
def Component.fold (done : List Component) : Component → List Component
  | .current => done
  | .root => .root :: done
  | .name s => .name s :: done
  | .parent =>
    match done with
    | .name _ :: rest => rest
    | _ => if .root ∈ done then done else .parent :: done

def normalComponents (cs : List Component) : List Component :=
  (cs.foldl Component.fold []).reverse

/-- purely by name: no file is looked at -/
def normalize (p : Path) : Path := ofComponents (normalComponents p.components)

/-- two lists without their common beginning -/
def withoutCommon : List Component → List Component → List Component × List Component
  | a :: as, b :: bs => if a = b then withoutCommon as bs else (a :: as, b :: bs)
  | as, bs => (as, bs)

/-- the parts of the way from `base` to `p` -/
def stepsBetween (base p : Path) : List String :=
  let (up, down) := withoutCommon base.components p.components
  up.map (fun _ => "..") ++ down.map Component.text

def relative (base p : Path) : String := "/".intercalate (stepsBetween base p)

end Bindle.Path
