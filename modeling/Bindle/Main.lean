import Bindle.Cli.Run

/-!
# The program

The command on the disk of a machine.  Here questions and changes become actions; what is done with
the answers is not decided here.
-/

namespace Bindle.Machine

def osError (details : String) (code : UInt32) : String :=
  details ++ " (os error " ++ toString code.toNat ++ ")"

def reason : IO.Error → String
  | .inappropriateType _ code details => osError details code
  | .alreadyExists _ code details => osError details code
  | .invalidArgument _ code details => osError details code
  | .resourceExhausted _ code details => osError details code
  | .otherError code details => osError details code
  | e => toString e

def fileError (p : Path) : IO.Error → FileError
  | .noFileOrDirectory .. => .notFound p.text
  | .permissionDenied .. => .permissionDenied p.text
  | e => .io p.text (reason e)

def guarded {α : Type} (p : Path) (action : IO α) : IO (Except FileError α) := do
  match ← action.toBaseIO with
  | .ok a => return .ok a
  | .error e => return .error (fileError p e)

/-- what can be read is a file -/
def isFile (p : Path) : IO Bool := do
  return (← guarded p (IO.FS.readBinFile p.text)).isOk

def isDir (p : Path) : IO Bool := do
  if p.text = "" then return false
  ((← IO.currentDir) / p.text).isDir

def createDirs (p : Path) : IO (Except FileError Unit) := do
  if ← isFile p then return .error (.notADirectory p.text)
  else guarded p (IO.FS.createDirAll p.text)

def host : Host IO where
  isFile := isFile
  isDir := isDir
  read p := do
    return (← guarded p (IO.FS.readBinFile p.text)).map Content.ofBytes
  write p content := guarded p (IO.FS.writeBinFile p.text content.bytes)
  createDirs := createDirs
  parse source := return Script.parser source

end Bindle.Machine

def main (args : List String) : IO UInt32 := do
  let here ← IO.currentDir
  let outcome ← Bindle.Cli.run Bindle.Machine.host ⟨here.toString⟩ args
  (← IO.getStdout).putStr outcome.output
  (← IO.getStderr).putStr outcome.errors
  return outcome.exit.toUInt32
