import Bindle.Script.Literal
import Bindle.Script.Program
import Bindle.Text.Position

/-!
# Dependency calls

A dependency call is a call of the plain name `require`.  Its argument is a literal when it is a
single string; everything else is dynamic and kept as written.

* `Node.calls`        the calls of a tree, each before those inside it;
* `Script.parse`      a source with its calls;
* `Call.replace`      gives a literal argument a new value;
* `Script.render`     the source with all new values in place.

Ranges are looked up in the source as it was given.  The tree of a source with a byte order mark
does not count the mark, so its ranges are three bytes early there, and a range that does not fall
between characters is none.
-/

namespace Bindle

namespace Script

open Bindle.Text

inductive Argument where
  | literal (value : String)
  | dynamic (written : String)
  deriving DecidableEq, Inhabited

def Argument.isLiteral : Argument → Bool
  | literal _ => true
  | dynamic _ => false

structure Range where
  start : Nat
  stop : Nat
  deriving DecidableEq, Inhabited

structure Call where
  position : Position
  argument : Argument
  /-- the literal in the source, quotes included -/
  range : Option Range
  replacement : Option String := none
  /-- literals have a range, and nothing else has one -/
  placed : range.isSome = argument.isLiteral
  deriving DecidableEq

instance : Inhabited Call :=
  ⟨{ position := default, argument := .dynamic "", range := none, placed := rfl }⟩

namespace Call

def literal? (c : Call) : Option String :=
  match c.argument with
  | .literal value => some value
  | .dynamic _ => none

/-- only a literal argument takes a new value; the answer tells whether this one did -/
def replace (c : Call) (value : String) : Call × Bool :=
  match c.range with
  | some _ => ({ c with replacement := some value }, true)
  | none => (c, false)

/-- the piece of the source that is replaced, and what replaces it -/
def splice? (c : Call) : Option (Range × String) :=
  match c.range, c.replacement with
  | some r, some value => some (r, value)
  | _, _ => none

end Call

/-- a range of the source, if it is one -/
def range? (source : List Char) (start stop : Nat) : Option (Range × List Char) :=
  (slice? source start stop).map (fun text => (⟨start, stop⟩, text))

def positionOf (source : List Char) (start stop : Nat) : Position :=
  match range? source start stop with
  | some (r, _) => Position.ofOffset source r.start
  | none => Position.none

/-- the argument text from the first argument to the last -/
def writtenArguments (source : List Char) (args : List Node) : String :=
  match args.head?, args.getLast? with
  | some first, some last =>
    match range? source first.start last.stop with
    | some (_, text) => String.ofList text
    | none => ""
  | _, _ => ""

def literalArgument? (source : List Char) (args : List Node) : Option (Range × String) :=
  match args with
  | [.mk (.string _) start stop _] =>
    (range? source start stop).map (fun (r, text) => (r, Literal.decode text))
  | _ => none

def callOf (source : List Char) (start stop : Nat) (args : List Node) : Call :=
  let position := positionOf source start stop
  match literalArgument? source args with
  | some (r, value) =>
    { position := position, argument := .literal value, range := some r, placed := rfl }
  | none =>
    { position := position, argument := .dynamic (writtenArguments source args), range := none,
      placed := rfl }

def isRequire (n : Node) : Bool := n.kind = .identifier "require"

mutual

def Node.calls (source : List Char) : Node → List Call
  | .mk .call start stop (callee :: args) =>
    let inner := Node.calls source callee ++ Node.callsOf source args
    if isRequire callee then callOf source start stop args :: inner else inner
  | .mk _ _ _ parts => Node.callsOf source parts

def Node.callsOf (source : List Char) : List Node → List Call
  | [] => []
  | n :: ns => Node.calls source n ++ Node.callsOf source ns

end

/-! ## scripts -/

structure SyntaxError where
  message : String
  position : Position
  deriving DecidableEq, Inhabited

def SyntaxError.text (e : SyntaxError) : String := e.message ++ " at " ++ e.position.label

end Script

/-- a source that could be read, with its dependency calls -/
structure Script where
  source : String
  calls : List Script.Call
  deriving Inhabited

namespace Script

open Bindle.Text

def parse (source : String) : Except SyntaxError Script :=
  let chars := source.toList
  match readTree chars with
  | .ok tree => .ok ⟨source, tree.calls chars⟩
  | .error fault => .error ⟨fault.complaint.text, Position.ofOffset chars fault.offset⟩

/-- inserts a replacement behind all that begin no later -/
def insertSplice (s : Range × String) : List (Range × String) → List (Range × String)
  | [] => [s]
  | t :: ts => if s.1.start < t.1.start then s :: t :: ts else t :: insertSplice s ts

def sortSplices (splices : List (Range × String)) : List (Range × String) :=
  splices.foldl (fun sorted s => insertSplice s sorted) []

/-- the source from byte `cursor` on with the ordered replacements in place -/
def spliceFrom (source : List Char) (cursor : Nat) : List (Range × String) → List Char
  | [] => (dropBytes? cursor source).getD []
  | (r, value) :: rest =>
    (slice? source cursor r.start).getD [] ++ Literal.quoteChars value.toList ++
      spliceFrom source r.stop rest

def render (s : Script) : String :=
  String.ofList (spliceFrom s.source.toList 0 (sortSplices (s.calls.filterMap Call.splice?)))

end Script

end Bindle
