import Bindle.Build.Error
import Bindle.Files.Host

/-!
# Writing assets

Assets are written below a directory, in the order of their names.  The directory is made first, and
before an asset the directory that it stands in, where that is another one.  The first thing that
cannot be done ends the writing.

* `Deed`      one thing to do;
* `plan`      all that has to be done for a table of assets;
* `perform`   does it.
-/

namespace Bindle

inductive Deed where
  | createDirs (p : Path)
  | write (p : Path) (code : String)
  deriving DecidableEq, Inhabited

def Deed.path : Deed → Path
  | createDirs p => p
  | write p _ => p

namespace Emission

def assetPath (output : Path) (filename : String) : Path := output.join filename

/-- the directory of an asset, if it is not the output directory itself -/
def directoryFor (output p : Path) : List Deed :=
  match p.parent? with
  | some d => if d.same output then [] else [.createDirs d]
  | none => []

def planAsset (output : Path) (asset : String × String) : List Deed :=
  let p := assetPath output asset.1
  directoryFor output p ++ [.write p asset.2]

def plan (output : Path) (assets : Table String) : List Deed :=
  .createDirs output :: assets.entries.flatMap (planAsset output)

variable {m : Type → Type} [Monad m]

def performOne (h : Host m) : Deed → m (Except FileError Unit)
  | .createDirs p => h.createDirs p
  | .write p code => h.write p (.text code)

/-- does things in turn, up to the first that fails -/
def perform (h : Host m) : List Deed → m (Except BuildError Unit)
  | [] => return .ok ()
  | deed :: rest => do
    match ← performOne h deed with
    | .ok () => perform h rest
    | .error e => return .error (.io deed.path e)

/-- the paths that are written -/
def paths (output : Path) (assets : Table String) : List Path := assets.keys.map (assetPath output)

def emit (h : Host m) (output : Path) (assets : Table String) :
    m (Except BuildError (List Path)) := do
  match ← perform h (plan output assets) with
  | .ok () => return .ok (paths output assets)
  | .error e => return .error e

end Emission

end Bindle
