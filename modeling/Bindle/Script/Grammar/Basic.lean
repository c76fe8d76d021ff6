import Bindle.Script.Parse

/-!
# The grammar as a record, and identifiers

The rules of the grammar refer to each other in circles.  A `Grammar` holds the rules that others
refer back to; every rule below is an ordinary function of a `Grammar`, and
`Bindle.Script.Grammar.ofDepth` ties the knot as often as a script can be nested.

Identifiers come in three kinds: references, bindings, and names of properties, which may be
reserved words.
-/

namespace Bindle.Script

structure Grammar where
  assignment : Parse Node
  unary : Parse Node
  member : Parse Node
  /-- an operand without operators around it: calls, members, primaries -/
  leftHand : Parse Node
  /-- goes on after a left operand with operators that bind tighter than the number -/
  binary : Node → Nat → Parse Node
  /-- a name or a pattern that is declared; `true` refuses the name `let` -/
  binding : Bool → Parse Node
  /-- `true` where declarations are allowed -/
  statement : Bool → Parse Node
  deriving Inhabited

namespace Grammar

open Parse

/-- words that strict code reserves and sloppy code does not -/
def reportReserved (name : String) (offset : Nat) : Parse Unit :=
  if name == "enum" then report (.strictReserved name) offset
  else if name == "yield" || name == "let" || name == "static" ||
      Reserving.strictWords.contains name then
    reportStrict (.strictReserved name) offset
  else pure ()

/-- an identifier; `yieldToo` and `awaitToo` admit these two words -/
def identifier (yieldToo awaitToo : Bool) : Parse Node := do
  let start := (← token).start
  match (← token).kind with
  | .word name => do
    let _ ← advance
    reportReserved name start
    let c ← scope
    if name == "await" then
      if c.inStaticBlock then fail .expectedIdentifier start
      else if c.inModule || c.inAsync then fail .awaitAsIdentifier start
      else if !awaitToo then fail .expectedIdentifier start
    else if name == "yield" then
      if !yieldToo then fail .expectedIdentifier start
    else if keywords.contains name then fail .expectedIdentifier start
    else if name == "arguments" && c.inField then report .argumentsInField start
    node (.identifier name) start []
  | _ => failHere .expectedIdentifier

def reference : Parse Node := do
  let c ← scope
  identifier (!c.inGenerator) (!c.inAsync)

/-- a name of a property: any word -/
def propertyWord : Parse String := do
  match (← token).kind with
  | .word name => do
    let _ ← advance
    return name
  | _ => failHere .expectedIdentifier

def bindingIdentifier (refuseLet : Bool) : Parse Node := do
  if refuseLet && (← atWord "let") then
    unexpected "let is reserved in const, let, class declaration"
  else
    let id ← identifier true true
    let c ← scope
    match id.kind with
    | .identifier name => do
      if Node.isRestrictedName name then reportStrict .strictBinding id.start
      if (c.inAsync || c.inStaticBlock) && name == "await" then
        report .expectedIdentifier id.start
      if c.inGenerator && name == "yield" then report .expectedIdentifier id.start
    | _ => pure ()
    return id

/-- `#name` -/
def privateName : Parse Node := do
  let start := (← token).start
  let _ ← advance
  if (← token).start ≠ (← lastStop) then fail .spaceInPrivateName start
  let name ← propertyWord
  node (.privateName name) start []

/-- what may follow a dot -/
def memberName : Parse Node := do
  if ← atSymbol .hash then privateName
  else
    let start := (← token).start
    let name ← propertyWord
    node (.key name) start []

end Grammar

end Bindle.Script
