import Bindle.Json.Value
import Bindle.Text.Quoted

/-!
# JSON texts

`Json.pretty` writes a value over several lines, each level two spaces further in.  Empty arrays and
objects stay on one line.
-/

namespace Bindle.Json

def Number.text : Number → String
  | .natural n => toString n
  | .negative n => "-" ++ toString n
  | .float minus x => (if minus then "-" else "") ++ x.scientific

/-- a new line at some level -/
def newLine (level : Nat) : String := "\n" ++ String.ofList (List.replicate (2 * level) ' ')

/-- items on lines of their own, between brackets -/
def block (opening closing : String) (level : Nat) (items : List String) : String :=
  if items.isEmpty then opening ++ closing
  else opening ++ newLine (level + 1) ++ ("," ++ newLine (level + 1)).intercalate items ++
    newLine level ++ closing

mutual

def prettyAt (level : Nat) : Json → String
  | .null => "null"
  | .bool b => if b then "true" else "false"
  | .number n => n.text
  | .string s => Text.quoted s
  | .array items => block "[" "]" level (prettyItems (level + 1) items)
  | .object fields => block "\x7b" "\x7d" level (prettyFields (level + 1) fields)

def prettyItems (level : Nat) : List Json → List String
  | [] => []
  | v :: vs => prettyAt level v :: prettyItems level vs

def prettyFields (level : Nat) : List (String × Json) → List String
  | [] => []
  | (k, v) :: fields => (Text.quoted k ++ ": " ++ prettyAt level v) :: prettyFields level fields

end

def pretty (v : Json) : String := prettyAt 0 v

end Bindle.Json
