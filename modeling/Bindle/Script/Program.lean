import Bindle.Script.Grammar.Module

/-!
# Reading a whole source

A source is read as a script, and as a module once it turns out to import or export.  A byte order
mark at its start is not part of what is read.  A fault that stops the reading is the answer; if
there is none, the first of the faults noted on the way is.
-/

namespace Bindle.Script

open Parse Grammar

/-- every level of nesting takes at least one character, and no character takes four levels -/
def depthOf (source : List Char) : Nat := 4 * source.length + 16

def byteOrderMark : Char := '\ufeff'

def withoutMark (source : List Char) : List Char :=
  match source with
  | c :: cs => if c = byteOrderMark then cs else c :: cs
  | [] => []

/-- where the first token is looked for: behind a line that begins with `#!` -/
def firstCursor (source : List Char) : Cursor :=
  let start : Cursor := ⟨source, 0⟩
  if ['#', '!'].isPrefixOf source then (start.takeWhile (fun c => !Text.isLineEnd c)).2 else start

def runProgram (source : List Char) : EStateM.Result Fault State Node :=
  let first := Token.read {} true (firstCursor source)
  let initial : State := { cursor := first.after, token := first.token }
  EStateM.run
    (do
      reportAll first.remarks
      program (ofDepth (depthOf source)))
    initial

/-- the tree of a source, or the fault that it is refused for; offsets do not count a mark -/
def readTree (source : List Char) : Except Fault Node :=
  match runProgram (withoutMark source) with
  | .error fault _ => .error fault
  | .ok tree s =>
    match s.faults.reverse with
    | fault :: _ => .error fault
    | [] => .ok tree

end Bindle.Script
