import Bindle.Path.Id
import Bindle.Text.Bytes

/-!
# Paths of bytes

The names of files are bytes, and need not be texts.  Only the bytes of `/` and `.` mean anything in a
path, so a path of bytes is taken apart as the text that has one character for each of its bytes.

* `BytePath.spelled p`        that text, as a path; `BytePath.ofSpelled` is the way back;
* `BytePath.ofPath p`         a path that is a text, in UTF-8;
* `ModuleId.ofBytes root p`   ids are texts: the names that the root does not share are read as such,
                              whatever their bytes are.
-/

namespace Bindle

open Text

structure BytePath where
  bytes : List UInt8
  deriving DecidableEq, Inhabited

namespace BytePath

/-- one character for each byte -/
def spell (bs : List UInt8) : String := String.ofList (bs.map fun b => Char.ofNat b.toNat)

def unspell (s : String) : List UInt8 := s.toList.map fun c => UInt8.ofNat c.toNat

def spelled (p : BytePath) : Path := ⟨spell p.bytes⟩

def ofSpelled (p : Path) : BytePath := ⟨unspell p.text⟩

def ofPath (p : Path) : BytePath := ⟨bytesOf p.text⟩

def isAbsolute (p : BytePath) : Bool := p.spelled.isAbsolute

def components (p : BytePath) : List Path.Component := p.spelled.components

def join (p : BytePath) (q : String) : BytePath := ofSpelled (p.spelled.join (spell (bytesOf q)))

def normalize (p : BytePath) : BytePath := ofSpelled p.spelled.normalize

end BytePath

/-- the text that a component of a path of bytes is shown as -/
def Path.Component.shown (c : Path.Component) : String := readable (BytePath.unspell c.text)

/-- the parts of the way from `base` to `p` -/
def BytePath.stepsBetween (base p : BytePath) : List String :=
  let (up, down) := Path.withoutCommon base.components p.components
  up.map (fun _ => "..") ++ down.map Path.Component.shown

def BytePath.relative (base p : BytePath) : String := "/".intercalate (stepsBetween base p)

def ModuleId.ofBytes (root p : BytePath) : ModuleId :=
  ⟨"./" ++ BytePath.relative root.normalize p.normalize⟩

end Bindle
