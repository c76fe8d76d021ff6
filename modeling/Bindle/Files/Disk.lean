import Bindle.Files.Content

/-!
# Files on a disk

A `Disk` is a tree of directories with files in them, and the directory where relative paths
start.  A path is followed one piece at a time, and each piece but the last must lead to a
directory; `..` is the directory above the one reached so far.

* `Disk.follow`       where a path leads;
* `Disk.read`         the content of a file;
* `Disk.write`        a new content for a file whose directory exists;
* `Disk.createDirs`   a directory with all those above it.
-/

namespace Bindle

inductive Disk.Node where
  | file (content : Content)
  | directory (entries : List (String × Disk.Node))
  deriving Inhabited

structure Disk where
  root : Disk.Node := .directory []
  /-- the directory where relative paths start -/
  here : List String := []
  deriving Inhabited

namespace Disk

/-! ## trees -/

def lookup (name : String) : List (String × Node) → Option Node
  | [] => none
  | (k, n) :: rest => if k = name then some n else lookup name rest

def Node.find? : Node → List String → Option Node
  | n, [] => some n
  | .file _, _ :: _ => none
  | .directory entries, name :: rest => (lookup name entries).bind (Node.find? · rest)

def setEntry (name : String) (n : Node) : List (String × Node) → List (String × Node)
  | [] => [(name, n)]
  | (k, m) :: rest => if k = name then (k, n) :: rest else (k, m) :: setEntry name n rest

/-- puts `new` at a place below directories that exist -/
def Node.put (new : Node) : Node → List String → Node
  | _, [] => new
  | .file content, _ :: _ => .file content
  | .directory entries, name :: rest =>
    match lookup name entries with
    | some n => .directory (setEntry name (Node.put new n rest) entries)
    | none => .directory (setEntry name new entries)

mutual

def Node.files (place : String) : Node → List (String × Content)
  | .file content => [(place, content)]
  | .directory entries => Node.filesOf place entries

def Node.filesOf (place : String) : List (String × Node) → List (String × Content)
  | [] => []
  | (name, n) :: rest => Node.files (place ++ "/" ++ name) n ++ Node.filesOf place rest

end

/-- all files with their absolute paths -/
def files (d : Disk) : List (String × Content) := d.root.files ""

/-! ## paths -/

inductive Trouble where
  | missing
  | notADirectory
  | isADirectory
  | nameTooLong
  | alreadyThere
  /-- no system takes a path with this character -/
  | zeroCharacter
  deriving DecidableEq, Inhabited

def Trouble.error (p : Path) : Trouble → FileError
  | missing => .notFound p.text
  | notADirectory => .io p.text "Not a directory (os error 20)"
  | isADirectory => .io p.text "Is a directory (os error 21)"
  | nameTooLong => .io p.text "File name too long (os error 36)"
  | alreadyThere => .io p.text "File exists (os error 17)"
  | zeroCharacter => .io p.text "file name contained an unexpected NUL byte"

/-- bytes in the longest name -/
def longestName : Nat := 255

def steps (p : Path) : List String :=
  ((Path.pieces p.text.toList).filter (· ≠ [])).map String.ofList

def endsInSlash (p : Path) : Bool := p.text.toList.getLast? = some '/'

/-- where to start on a path -/
def start (d : Disk) (p : Path) : List String := if p.isAbsolute then [] else d.here

def follow (root : Node) : List String → List String → Except Trouble (List String)
  | place, [] => .ok place
  | place, step :: rest =>
    match root.find? place with
    | none => .error .missing
    | some (.file _) => .error .notADirectory
    | some (.directory entries) =>
      if step = "." then follow root place rest
      else if step = ".." then follow root place.dropLast rest
      else if step.utf8ByteSize > longestName then .error .nameTooLong
      else match lookup step entries with
        | none => .error .missing
        | some _ => follow root (place ++ [step]) rest

/-- a path that ends in `/` leads to a directory -/
def locate (d : Disk) (p : Path) : Except Trouble Node :=
  if p.text = "" then .error .missing
  else if p.text.toList.contains '\x00' then .error .zeroCharacter
  else do
    let place ← follow d.root (d.start p) (steps p ++ if endsInSlash p then ["."] else [])
    match d.root.find? place with
    | some n => .ok n
    | none => .error .missing

/-! ## questions -/

def isFile (d : Disk) (p : Path) : Bool :=
  match d.locate p with
  | .ok (.file _) => true
  | _ => false

def isDir (d : Disk) (p : Path) : Bool :=
  match d.locate p with
  | .ok (.directory _) => true
  | _ => false

def has (d : Disk) (p : Path) : Bool := d.isFile p || d.isDir p

def read (d : Disk) (p : Path) : Except FileError Content :=
  match d.locate p with
  | .ok (.file content) => .ok content
  | .ok (.directory _) => .error (Trouble.isADirectory.error p)
  | .error t => .error (t.error p)

/-! ## changes -/

/-- the place of a file to be written; its directory must exist -/
def placeToWrite (d : Disk) (p : Path) : Except Trouble (List String) :=
  if p.text = "" then .error .missing
  else if p.text.toList.contains '\x00' then .error .zeroCharacter
  else
    match (steps p).getLast? with
    | none => .error .isADirectory
    | some name => do
      let above ← follow d.root (d.start p) ((steps p).dropLast ++ ["."])
      if endsInSlash p ∨ name = "." ∨ name = ".." then throw .isADirectory
      if name.utf8ByteSize > longestName then throw .nameTooLong
      match d.root.find? (above ++ [name]) with
      | some (.directory _) => throw .isADirectory
      | _ => return above ++ [name]

def write (d : Disk) (p : Path) (content : Content) : Except FileError Disk :=
  match d.placeToWrite p with
  | .ok place => .ok { d with root := Node.put (.file content) d.root place }
  | .error t => .error (t.error p)

/-- goes down a path and makes the directories that are missing; what was made before an
obstacle stays -/
def makeDirs (root : Node) : List String → List String → Node × Option Trouble
  | _, [] => (root, none)
  | place, step :: rest =>
    if step = "." then makeDirs root place rest
    else if step = ".." then makeDirs root place.dropLast rest
    else if step.utf8ByteSize > longestName then (root, some .nameTooLong)
    else match root.find? (place ++ [step]) with
      | some (.directory _) => makeDirs root (place ++ [step]) rest
      | some (.file _) =>
        (root, some (if rest.isEmpty then .alreadyThere else .notADirectory))
      | none =>
        makeDirs (Node.put (.directory []) root (place ++ [step])) (place ++ [step]) rest

/-- a path that ends in `.` needs a directory that is there already -/
def createDirs (d : Disk) (p : Path) : Disk × Option FileError :=
  if d.isFile p then (d, some (.notADirectory p.text))
  else if p.text = "" then (d, none)
  else if p.text.toList.contains '\x00' then (d, some (Trouble.zeroCharacter.error p))
  else if (steps p).getLast? = some "." ∧ ¬ d.isDir p then
    let (root, trouble) := makeDirs d.root (d.start p) ((steps p).dropLast.dropLast)
    ({ d with root := root }, some ((trouble.getD .missing).error p))
  else
    let (root, trouble) := makeDirs d.root (d.start p) (steps p)
    ({ d with root := root }, trouble.map (·.error p))

end Disk

end Bindle
