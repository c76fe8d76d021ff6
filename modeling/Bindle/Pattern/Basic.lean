import Bindle.Pattern.Meaning

/-!
# Patterns

* `Pattern.ofText`      reads a pattern, or says what is wrong with it;
* `Pattern.isFoundIn`   some part of a text is matched by the pattern.
-/

namespace Bindle

structure Pattern where
  text : String
  regex : Pattern.Regex
  deriving Inhabited

namespace Pattern

inductive Error where
  | faulty (pattern : String) (fault : Fault)
  /-- repetitions make the expression too large -/
  | tooLarge
  deriving DecidableEq, Inhabited

/-- how large an expression may be, in bytes -/
def sizeLimit : Nat := 10485760

/-- the size of one state -/
def stateSize : Nat := 32

def Error.text : Error → String
  | faulty pattern fault => fault.text pattern.toList
  | tooLarge => "Compiled regex exceeds size limit of " ++ toString sizeLimit ++ " bytes."

def ofText (text : String) : Except Error Pattern :=
  match (do (← Ast.ofText text.toList).meaning {}) with
  | .error fault => .error (.faulty text fault)
  | .ok (regex, _) =>
    if regex.size * stateSize > sizeLimit then .error .tooLarge else .ok ⟨text, regex⟩

def isFoundIn (p : Pattern) (text : String) : Bool :=
  p.regex.isFoundIn { chars := text.toList.toArray, word := wordSet, asciiWord := asciiWord }

end Pattern

end Bindle
