import Bindle.Path.Basic

/-!
# Contents of files

A file holds a text, or bytes that are not the UTF-8 form of any text.  `FileError` says why a
file could not be read, written or made room for.
-/

namespace Bindle

inductive Content where
  | text (s : String)
  /-- bytes that are not the UTF-8 form of a text -/
  | binary (bytes : List UInt8)
  deriving DecidableEq, Inhabited

def Content.ofBytes (bytes : ByteArray) : Content :=
  match String.fromUTF8? bytes with
  | some s => .text s
  | none => .binary bytes.toList

def Content.bytes : Content → ByteArray
  | .text s => s.toUTF8
  | .binary bytes => ⟨bytes.toArray⟩

inductive FileError where
  | notFound (path : String)
  | permissionDenied (path : String)
  /-- a file stands where a directory is needed, or the other way round -/
  | notADirectory (path : String)
  | invalidUtf8 (path : String)
  /-- the system refused -/
  | io (path : String) (reason : String)
  deriving DecidableEq, Inhabited

def FileError.text : FileError → String
  | notFound path => "Path not found: " ++ path
  | permissionDenied path => "Permission denied: " ++ path
  | notADirectory path => "Not a directory: " ++ path
  | invalidUtf8 path => "File is not valid UTF-8: " ++ path
  | io path reason => "IO error: " ++ path ++ ": " ++ reason

/-- what went wrong, without the path -/
def FileError.reason : FileError → String
  | notFound _ => "No such file or directory (os error 2)"
  | permissionDenied _ => "Permission denied (os error 13)"
  | notADirectory _ => "Not a directory (os error 20)"
  | invalidUtf8 _ => "stream did not contain valid UTF-8"
  | io _ reason => reason

/-- the text in a file at `p` -/
def Content.textAt (p : Path) : Content → Except FileError String
  | .text s => .ok s
  | .binary _ => .error (.invalidUtf8 p.text)

end Bindle
