import Bindle.Script.NumberValue
import Bindle.Script.StringValue

/-!
# Tokens as messages name them

Words and punctuators stand for themselves; literals are named with their value and as written.
-/

namespace Bindle.Script

/-- the text between the quotes of a string; of one that is not closed, what follows its last escape
sequence.  `seen` and `plain` are the text so far and its part without escapes, last first. -/
def stringBody (quote : Char) (seen plain : List Char) : List Char → List Char
  | [] => plain.reverse
  | c :: cs =>
    if c = quote then seen.reverse
    else if c = '\\' then
      match cs with
      | [] => []
      | e :: rest =>
        let left := (StringValue.escapeUnits e rest).2
        let read := (e :: rest).take (rest.length + 1 - left.length)
        stringBody quote (read.reverse ++ c :: seen) [] left
    else stringBody quote (c :: seen) (c :: plain) cs
termination_by cs => cs.length
decreasing_by
  · have := StringValue.escapeUnits_length e rest
    simp only [List.length_cons]
    omega
  · simp

/-- the value of a string as written, between double quotes -/
def shownString (raw : List Char) : String :=
  match raw with
  | [] => ""
  | quote :: cs =>
    let body := stringBody quote [] [] cs
    "\x22" ++ String.ofList (StringValue.unitsText (StringValue.units body)) ++ "\x22"

def Token.Kind.shown : Token.Kind → String
  | .word name => name
  | .symbol s => s.text
  | .string raw => "string literal (" ++ shownString raw.toList ++ ", " ++ raw ++ ")"
  | .number raw => "numeric literal (" ++ NumberValue.numberText raw.toList ++ ", " ++ raw ++ ")"
  | .bigint raw => "bigint literal (" ++ NumberValue.bigintText raw.toList ++ ", " ++ raw ++ ")"
  | .regex _ => "regexp literal"
  | .template _ _ => "template literal"
  | .eof => "<eof>"
  | .invalid _ => "<lexing error>"

def Token.shown (t : Token) : String := t.kind.shown

end Bindle.Script
