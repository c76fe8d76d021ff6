import Bindle.Number.Shortest
import Bindle.Text.Shown

/-!
# JSON values

`Json` is a value as written: an object keeps its fields in the order of the text, repeated keys
included.  `Json.merged` is the value that counts, in which of several fields with one key the last
stands, and fields are in the order of their keys.
-/

namespace Bindle

/-- whole numbers have 64 bits; what does not fit is a floating point number -/
inductive Json.Number where
  | natural (n : Nat)
  /-- the number `-n` -/
  | negative (n : Nat)
  | float (minus : Bool) (x : Binary64)
  deriving DecidableEq, Inhabited

inductive Json where
  | null
  | bool (b : Bool)
  | number (n : Json.Number)
  | string (s : String)
  | array (items : List Json)
  | object (fields : List (String × Json))
  deriving Inhabited

namespace Json

/-- puts a field in its place by key, or in the place of the field with its key -/
def insertField (key : String) (value : Json) : List (String × Json) → List (String × Json)
  | [] => [(key, value)]
  | (k, v) :: fields =>
    if key = k then (k, value) :: fields
    else if key < k then (key, value) :: (k, v) :: fields
    else (k, v) :: insertField key value fields

mutual

def merged : Json → Json
  | .array items => .array (mergedItems items)
  | .object fields => .object (mergedFields fields [])
  | v => v

def mergedItems : List Json → List Json
  | [] => []
  | v :: vs => merged v :: mergedItems vs

/-- adds fields to those merged before them -/
def mergedFields : List (String × Json) → List (String × Json) → List (String × Json)
  | [], done => done
  | (k, v) :: fields, done => mergedFields fields (insertField k (merged v) done)

end

/-- a number as messages about types name it -/
def Number.shown : Number → String
  | .natural n => "integer \x60" ++ toString n ++ "\x60"
  | .negative n => "integer \x60-" ++ toString n ++ "\x60"
  | .float minus x =>
    "floating point \x60" ++ (if minus then "-" else "") ++ x.scientific ++ "\x60"

/-- a value as messages about types name it -/
def shownKind : Json → String
  | .null => "null"
  | .bool b => "boolean \x60" ++ (if b then "true" else "false") ++ "\x60"
  | .number n => n.shown
  | .string s => "string " ++ Text.shown s
  | .array _ => "sequence"
  | .object _ => "map"

end Json

end Bindle
