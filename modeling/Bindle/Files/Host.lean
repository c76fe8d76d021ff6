import Bindle.Build.Dialogue
import Bindle.Files.Disk
import Bindle.Files.Memory

/-!
# Hosts

A host keeps the files of a build and knows how to find calls in a source.  It works in a monad:
for files in memory and for a modelled disk this is a state, for the disk of a machine it is that of
the machine's actions.

* `Host.answer`     answers a question of a build;
* `Host.lift`       has a further state beside its own;
* `Memory.host`     keeps files in memory;
* `Disk.host`       keeps files on a modelled disk.
-/

namespace Bindle

structure Host (m : Type → Type) where
  isFile : Path → m Bool
  isDir : Path → m Bool
  read : Path → m (Except FileError Content)
  write : Path → Content → m (Except FileError Unit)
  createDirs : Path → m (Except FileError Unit)
  parse : String → m (Except Script.SyntaxError SyntaxTree)

namespace Host

variable {m : Type → Type} [Monad m]

def readText (h : Host m) (p : Path) : m (Except FileError String) := do
  return (← h.read p).bind (Content.textAt p)

def answer (h : Host m) : (q : Question) → m q.Answer
  | .isFile p => h.isFile p
  | .text p => h.readText p
  | .parse source => h.parse source

def ask {α : Type} (h : Host m) (d : Dialogue α) : m α := d.run h.answer

/-- the host beside a further state -/
def lift (h : Host m) (σ : Type) : Host (StateT σ m) where
  isFile p := StateT.lift (h.isFile p)
  isDir p := StateT.lift (h.isDir p)
  read p := StateT.lift (h.read p)
  write p content := StateT.lift (h.write p content)
  createDirs p := StateT.lift (h.createDirs p)
  parse source := StateT.lift (h.parse source)

end Host

/-- a change that may fail and then changes nothing -/
def attempt {σ ε : Type} (change : σ → Except ε σ) : StateM σ (Except ε Unit) := fun s =>
  match change s with
  | .ok s' => (.ok (), s')
  | .error e => (.error e, s)

def Memory.host (parser : Parser) : Host (StateM Memory) where
  isFile p := fun m => (m.isFile p, m)
  isDir p := fun m => (m.isDir p, m)
  read p := fun m => (m.read p, m)
  write p content := attempt (·.write p content)
  createDirs p := attempt (·.createDirs p)
  parse source := fun m => (parser source, m)

def Disk.host (parser : Parser) : Host (StateM Disk) where
  isFile p := fun d => (d.isFile p, d)
  isDir p := fun d => (d.isDir p, d)
  read p := fun d => (d.read p, d)
  write p content := attempt (·.write p content)
  createDirs p := fun d =>
    match d.createDirs p with
    | (d', none) => (.ok (), d')
    | (d', some e) => (.error e, d')
  parse source := fun d => (parser source, d)

/-- the answers that files in memory give, when nothing changes them -/
def Memory.answer (m : Memory) (parser : Parser) : (q : Question) → q.Answer
  | .isFile p => m.isFile p
  | .text p => m.readText p
  | .parse source => parser source

end Bindle
