import Bindle.Files.Content
import Bindle.Table

/-!
# Files in memory

A `Memory` stores files under texts.  The key of a path has `/` for every `\` and no `/` at its
end.  Directories need not be made: whatever lies above a file is one.  Others are recorded when
they are made.

* `Memory.read`, `Memory.write`   a file by its path;
* `Memory.createDirs`             records a directory, unless a file is in the way;
* `Memory.isFile`, `Memory.isDir` what a path names.
-/

namespace Bindle

structure Memory where
  files : Table Content := {}
  /-- directories that were made, by their keys -/
  directories : List String := []
  deriving Inhabited

namespace Memory

/-- a text without the slashes at its end; of slashes alone one remains -/
def withoutEnd (cs : List Char) : List Char :=
  match (cs.reverse.dropWhile (· = '/')).reverse with
  | [] => cs.take 1
  | kept => kept

def key (p : Path) : String := String.ofList (withoutEnd p.unixText.toList)

/-! ## directories -/

/-- some key lies below the directory `d`; as keys are in order, the first that is not below
`d` and a slash tells -/
def hasBelow (files : Table Content) (d : String) : Bool :=
  match files.firstFrom (d ++ "/") with
  | none => false
  | some k => (d ++ "/").toList.isPrefixOf k.toList

/-- some key lies below the directory `d`: all keys are looked at -/
def hasBelowPlain (files : Table Content) (d : String) : Bool :=
  files.keys.any (fun k => (d ++ "/").toList.isPrefixOf k.toList)

def hasDir (m : Memory) (d : String) : Bool :=
  d == "/" || m.directories.contains d || hasBelow m.files d

/-- the same, without use of the order of keys -/
def hasDirPlain (m : Memory) (d : String) : Bool :=
  d == "/" || m.directories.contains d || hasBelowPlain m.files d

/-! ## questions -/

def isFile (m : Memory) (p : Path) : Bool := m.files.contains (key p)

def isDir (m : Memory) (p : Path) : Bool := m.hasDir (key p)

def has (m : Memory) (p : Path) : Bool := m.isFile p || m.isDir p

def read (m : Memory) (p : Path) : Except FileError Content :=
  match m.files.get? (key p) with
  | some content => .ok content
  | none => .error (.notFound (key p))

def readText (m : Memory) (p : Path) : Except FileError String := do
  (← m.read p).textAt p

def paths (m : Memory) : List String := m.files.keys

/-! ## changes -/

/-- stores a file without looking at anything -/
def store (m : Memory) (p : Path) (content : Content) : Memory :=
  { m with files := m.files.insert (key p) content }

def write (m : Memory) (p : Path) (content : Content) : Except FileError Memory :=
  if m.hasDir (key p) then .error (.notADirectory (key p)) else .ok (m.store p content)

/-- the keys of a path and of all directories above it, the highest first, when every part of
the path hangs below the root -/
def lineage (k : String) : List String :=
  let parts := (Path.pieces k.toList).filter (· ≠ [])
  (Path.beginnings parts).tail.map (fun ps => String.ofList (ps.flatMap ('/' :: ·)))

def createDirs (m : Memory) (p : Path) : Except FileError Memory :=
  match (lineage (key p)).find? m.files.contains with
  | some k => .error (.notADirectory k)
  | none =>
    .ok { m with directories := if m.directories.contains (key p) then m.directories
                                else key p :: m.directories }

/-- files with their texts; of two with one key the later counts -/
def ofList (files : List (Path × Content)) : Memory :=
  files.foldl (fun m f => m.store f.1 f.2) {}

end Memory

end Bindle
