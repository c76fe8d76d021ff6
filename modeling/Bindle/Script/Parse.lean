import Bindle.Script.Lexer
import Bindle.Script.Tree
import Bindle.Script.Shown

/-!
# The state of reading a script

`Parse α` reads a script one token ahead.  It either gives a value or stops with the fault that
ends the reading; faults that do not end it are collected in the state on the way.

* `report`, `reportStrict`, `reportModule`   collect a fault, at once, if the code is strict, or
                                             once the script turns out to be a module;
* `fail`, `failHere`                         stop;
* `advance`, `eat`, `expect` and the like    take tokens;
* `within`                                   changes the context for a part of the script.

A fault that stops the reading is what the whole script is refused for, however many others came
before.
-/

namespace Bindle.Script

structure Scope extends Reserving where
  inFunction : Bool := false
  /-- inside a function with a `this` of its own -/
  ownThis : Bool := false
  inParameters : Bool := false
  inClass : Bool := false
  inField : Bool := false
  superAllowed : Bool := false
  includeIn : Bool := false
  breakAllowed : Bool := false
  continueAllowed : Bool := false
  inForHead : Bool := false
  inForAwaitHead : Bool := false
  deriving Inhabited

structure State where
  /-- the text after the current token -/
  cursor : Cursor
  token : Token
  lastStart : Nat := 0
  lastStop : Nat := 0
  /-- newest first -/
  faults : List Fault := []
  /-- what counts in a module only, newest first -/
  moduleFaults : List Fault := []
  scope : Scope := {}
  labels : List String := []
  isModule : Bool := false
  /-- where an arrow function may begin -/
  arrowStart : Option Nat := none
  /-- trailing commas of array and object literals, by the start of the literal -/
  trailingCommas : List (Nat × Nat) := []
  deriving Inhabited

abbrev Parse := EStateM Fault State

namespace Parse

variable {α : Type}

def scope : Parse Scope := fun s => .ok s.scope s

def token : Parse Token := fun s => .ok s.token s

def lastStop : Parse Nat := fun s => .ok s.lastStop s

def lastStart : Parse Nat := fun s => .ok s.lastStart s

/-- the characters that are left, which bounds every repetition -/
def remaining : Parse Nat := fun s => .ok (s.cursor.rest.length + 2) s

def report (c : Complaint) (offset : Nat) : Parse Unit := fun s =>
  .ok () { s with faults := ⟨c, offset⟩ :: s.faults }

def reportModule (c : Complaint) (offset : Nat) : Parse Unit := fun s =>
  if s.scope.inModule then .ok () { s with faults := ⟨c, offset⟩ :: s.faults }
  else .ok () { s with moduleFaults := ⟨c, offset⟩ :: s.moduleFaults }

def reportStrict (c : Complaint) (offset : Nat) : Parse Unit := do
  if (← scope).strict then report c offset else reportModule c offset

def fail (c : Complaint) (offset : Nat) : Parse α := fun s =>
  match s.token.kind with
  | .invalid fault => .error ⟨c, offset⟩ { s with faults := fault :: s.faults }
  | _ => .error ⟨c, offset⟩ s

/-- stops at the current token -/
def failHere (c : Complaint) : Parse α := do fail c (← token).start

def reportAll : List Remark → Parse Unit
  | [] => pure ()
  | r :: rs => do
    match r.condition with
    | .always => report r.fault.complaint r.fault.offset
    | .strict => reportStrict r.fault.complaint r.fault.offset
    | .inModule => reportModule r.fault.complaint r.fault.offset
    reportAll rs

def reportStrictAll : List Fault → Parse Unit
  | [] => pure ()
  | f :: fs => do
    reportStrict f.complaint f.offset
    reportStrictAll fs

/-- makes the token that a reading found the current one -/
def place (r : Reading) : Parse Unit := do
  modify (fun s => { s with token := r.token, cursor := r.after })
  reportAll r.remarks

/-- takes the current token -/
def advance : Parse Token := do
  let t ← token
  reportStrictAll t.strictRemarks
  modify (fun s => { s with lastStart := t.start, lastStop := t.stop })
  let s ← get
  place (Token.read s.scope.toReserving false s.cursor)
  return t

/-- the token after the current one -/
def peek : Parse Token := do
  let s ← get
  return (Token.read s.scope.toReserving false s.cursor).token

/-- stops with the fault of a token that could not be read -/
def refuseInvalid : Parse Unit := do
  match (← token).kind with
  | .invalid fault => do
    let _ ← advance
    throw fault
  | _ => pure ()

def atSymbol (x : Symbol) : Parse Bool := do return (← token).kind == .symbol x

def atWord (w : String) : Parse Bool := do return (← token).kind == .word w

def atAnyWord : Parse Bool := do
  match (← token).kind with
  | .word _ => return true
  | _ => return false

def atString : Parse Bool := do
  match (← token).kind with
  | .string _ => return true
  | _ => return false

/-- a word that can be a variable here -/
def atName : Parse Bool := do
  match (← token).kind with
  | .word name => return !(← scope).reserves name
  | _ => return false

def afterNewline : Parse Bool := do return (← token).newline

def eat (x : Symbol) : Parse Bool := do
  if ← atSymbol x then
    let _ ← advance
    return true
  else return false

def eatWord (w : String) : Parse Bool := do
  if ← atWord w then
    let _ ← advance
    return true
  else return false

def expect (x : Symbol) : Parse Unit := do
  if !(← eat x) then failHere (.expected x.text (← token).shown)

def expectWord (w : String) : Parse Unit := do
  if !(← eatWord w) then failHere (.expected w (← token).shown)

def unexpected (wanted : String) : Parse α := do failHere (.unexpected (← token).shown wanted)

/-- a statement may end here, with or without a semicolon -/
def atEnd : Parse Bool := do
  let t ← token
  return t.kind == .symbol .semicolon || t.kind == .symbol .rbrace || t.kind == .eof || t.newline

def eatEnd : Parse Bool := do
  if ← eat .semicolon then return true else atEnd

def expectEnd : Parse Unit := do
  if !(← eatEnd) then failHere .expectedSemicolon

/-- a node from `start` to the end of the last token taken -/
def node (kind : Kind) (start : Nat) (parts : List Node) : Parse Node := do
  return .mk kind start (← lastStop) parts

/-- a part of the script with a context of its own; a later part has the old one again -/
def within (change : Scope → Scope) (p : Parse α) : Parse α := fun s =>
  match p { s with scope := change s.scope } with
  | .ok a t => .ok a { t with scope := s.scope }
  | .error e t => .error e { t with scope := s.scope }

def includingIn (yes : Bool) (p : Parse α) : Parse α :=
  within (fun c => { c with includeIn := yes }) p

/-- the body of a function: labels and the search for module syntax begin anew -/
def apart (p : Parse α) : Parse α := fun s =>
  match p { s with labels := [] } with
  | .ok a t => .ok a { t with labels := s.labels, isModule := s.isModule }
  | .error e t => .error e { t with labels := s.labels, isModule := s.isModule }

/-- goes over to module code: what was noticed for modules counts now -/
def becomeModule : Parse Unit :=
  modify (fun s => { s with
    scope := { s.scope with inModule := true, strict := true },
    faults := s.moduleFaults ++ s.faults,
    moduleFaults := [] })

def becomeStrict : Parse Unit :=
  modify (fun s => { s with scope := { s.scope with strict := true } })

def sawModule : Parse Unit := modify (fun s => { s with isModule := true })

/-- the outcome of a part, without stopping at its fault -/
def attempt (p : Parse α) : Parse (Except Fault α) := fun s =>
  match p s with
  | .ok a t => .ok (.ok a) t
  | .error e t => .ok (.error e) t

/-- repeats a step, at most `n` times, until it says that it was the last one -/
def repeatN : Nat → Parse (Option α) → Parse (List α)
  | 0, _ => failHere .nestedTooDeep
  | n + 1, step => do
    match ← step with
    | none => return []
    | some a => return a :: (← repeatN n step)

def repeated (step : Parse (Option α)) : Parse (List α) := do
  repeatN (← remaining) step

/-- reads on from a value until the step gives no further one -/
def iterateN : Nat → (α → Parse (Option α)) → α → Parse α
  | 0, _, _ => failHere .nestedTooDeep
  | n + 1, step, a => do
    match ← step a with
    | none => return a
    | some b => iterateN n step b

def iterate (step : α → Parse (Option α)) (a : α) : Parse α := do
  iterateN (← remaining) step a

end Parse

end Bindle.Script
