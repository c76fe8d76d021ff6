import Bindle.Json.Scan

/-!
# Reading JSON texts

* `Read.value`     any value;
* `Read.text`      a string, and nothing else;
* `Read.list`      an array of things of one kind;
* `Read.record`    a structure, written as an object or as an array of its fields in order;
* `Json.decode`    a whole text by one of them;
* `Json.skim`      a whole text of any value, which is only checked.

The first argument of a reader is how many more brackets may be opened: more than 127 around one
another are refused.  Skimming knows no such limit.
-/

namespace Bindle.Json

namespace Read

variable {α : Type}

/-! ## arrays and objects -/

/-- another item follows; the reader then stands before it -/
def hasItem (first : Bool) : Read Bool := do
  match ← skipSpace with
  | none => failNext .endInList
  | some ']' => return false
  | some c =>
    if first then return true
    else if c = ',' then
      next
      match ← skipSpace with
      | some ']' => failNext .trailingComma
      | some _ => return true
      | none => failNext .endInValue
    else failNext .expectedListEnd

/-- another field follows; the reader then stands before the quote of its key -/
def hasField (first : Bool) : Read Bool := do
  match ← skipSpace with
  | none => failNext .endInObject
  | some '\x7d' => return false
  | some c =>
    if first then
      if c = '\x22' then return true else failNext .keyNotString
    else if c = ',' then
      next
      match ← skipSpace with
      | some '\x22' => return true
      | some '\x7d' => failNext .trailingComma
      | some _ => failNext .keyNotString
      | none => failNext .endInValue
    else failNext .expectedObjectEnd

def closeList : Read Unit := do
  match ← skipSpace with
  | some ']' => next
  | some ',' => do
    next
    if (← skipSpace) = some ']' then failNext .trailingComma else failNext .trailingText
  | some _ => failNext .trailingText
  | none => failNext .endInList

def closeObject : Read Unit := do
  match ← skipSpace with
  | some '\x7d' => next
  | some ',' => failNext .trailingComma
  | some _ => failNext .trailingText
  | none => failNext .endInObject

def colon : Read Unit := do
  match ← skipSpace with
  | some ':' => next
  | some _ => failNext .expectedColon
  | none => failNext .endInObject

/-- the items of an array whose bracket has been opened -/
def items (item : Read α) : Read (List α) := do
  let found ← iterate (fun (acc : List α × Bool) => do
    if acc.2 then return none
    if ← hasItem acc.1.isEmpty then return some ((← item) :: acc.1, false)
    else return some (acc.1, true)) ([], false)
  return found.1.reverse

/-- the fields of an object whose brace has been opened -/
def fields (value : Read α) : Read (List (String × α)) := do
  let found ← iterate (fun (acc : List (String × α) × Bool) => do
    if acc.2 then return none
    if ← hasField acc.1.isEmpty then
      let key ← readString
      colon
      return some ((key, ← value) :: acc.1, false)
    else return some (acc.1, true)) ([], false)
  return found.1.reverse

/-! ## values -/

/-- a value that is no array and no object, by its first character -/
def scalar (c : Char) : Read Json := do
  if c = 'n' then
    next
    restOfWord "ull".toList
    return .null
  else if c = 't' then
    next
    restOfWord "rue".toList
    return .bool true
  else if c = 'f' then
    next
    restOfWord "alse".toList
    return .bool false
  else if c = '\x22' then return .string (← readString)
  else if c = '-' || Text.isDecimalDigit c then return .number (← readNumber)
  else failNext .expectedValue

/-- any value; with nothing left to open only one without brackets -/
def value : Nat → Read Json
  | 0 => do
    match ← skipSpace with
    | none => failNext .endInValue
    | some c => if c = '[' || c = '\x7b' then failNext .tooDeep else scalar c
  | depth + 1 => do
    match ← skipSpace with
    | none => failNext .endInValue
    | some c =>
      if c = '[' then
        next
        return .array (← closedBy (items (value depth)) closeList)
      else if c = '\x7b' then
        next
        return .object (← closedBy (fields (value depth)) closeObject)
      else scalar c

/-- the value that begins with `c` is not what was wanted -/
def refuse (wanted : String) (c : Char) : Read α := settle do
  if c = '[' then raise (.wrongType "sequence" wanted)
  else if c = '\x7b' then raise (.wrongType "map" wanted)
  else raise (.wrongType (← scalar c).shownKind wanted)

def text : Read String := do
  match ← skipSpace with
  | none => failNext .endInValue
  | some c => if c = '\x22' then readString else refuse "a string" c

def list (depth : Nat) (item : Nat → Read α) : Read (List α) := do
  match ← skipSpace with
  | none => failNext .endInValue
  | some c =>
    if c = '[' then
      match depth with
      | 0 => failNext .tooDeep
      | d + 1 =>
        settle do
          next
          closedBy (items (item d)) closeList
    else refuse "a sequence" c

/-! ## structures -/

end Read

/-- how a structure is read: its fields by name, each into a value that starts as `empty` -/
structure Shape (σ : Type) where
  name : String
  fields : List String
  required : List String
  empty : σ
  /-- reads the value of a field -/
  read : Nat → String → σ → Read σ

namespace Shape

open Read

variable {σ : Type} (shape : Shape σ)

def count : String :=
  "struct " ++ shape.name ++ " with " ++ toString shape.fields.length ++
    (if shape.fields.length = 1 then " element" else " elements")

/-- the fields of an object, in any order; returns the names met -/
def byName (depth : Nat) : Read σ := do
  let found ← iterate (fun (acc : List String × σ × Bool) => do
    let (seen, record, done) := acc
    if done then return none
    if ← hasField seen.isEmpty then
      let key ← readString
      if !shape.fields.contains key then raise (.unknownField key shape.fields)
      if seen.contains key then raise (.repeatedField key)
      colon
      return some (key :: seen, ← shape.read depth key record, false)
    else return some (seen, record, true)) ([], shape.empty, false)
  match shape.required.find? (fun name => !found.1.contains name) with
  | some name => raise (.missingField name)
  | none => return found.2.1

/-- the fields of an array, from the `i`-th on -/
def inOrder (depth : Nat) : Nat → List String → σ → Read σ
  | _, [], record => pure record
  | i, name :: names, record => do
    if ← hasItem (i == 0) then inOrder depth (i + 1) names (← shape.read depth name record)
    else if shape.required.contains name then raise (.wrongLength i shape.count)
    else inOrder depth (i + 1) names record

end Shape

namespace Read

def record {σ : Type} (shape : Shape σ) (depth : Nat) : Read σ := do
  match ← skipSpace with
  | none => failNext .endInValue
  | some c =>
    if c = '[' || c = '\x7b' then
      match depth with
      | 0 => failNext .tooDeep
      | d + 1 =>
        settle do
          next
          if c = '[' then closedBy (shape.inOrder d 0 shape.fields shape.empty) closeList
          else closedBy (shape.byName d) closeObject
    else refuse ("struct " ++ shape.name) c

/-- nothing but white space is left -/
def finish : Read Unit := do
  if (← skipSpace).isSome then failNext .trailingText

/-! ## skimming -/

/-- a bracket that has been opened -/
inductive Bracket where
  | list
  | object
  deriving DecidableEq

def Bracket.closing : Bracket → Char
  | .list => ']'
  | .object => '\x7d'

def skimScalar (c : Char) : Read Unit := do
  if c = '\x22' then skimString
  else if c = '-' || Text.isDecimalDigit c then skimNumber
  else
    let _ ← scalar c

def skimKey : Read Unit := do
  match ← skipSpace with
  | some '\x22' => do
    skimString
    colon
  | some _ => failNext .keyNotString
  | none => failNext .endInObject

/-- where skimming stands: before a value, or behind one or behind an opening bracket -/
inductive Stage where
  | before
  | behind (comma : Bool)

/-- one step of skimming inside the brackets `open_`, innermost first -/
def skimStep (at_ : Stage × List Bracket) : Read (Option (Stage × List Bracket)) := do
  match at_ with
  | (.before, opened) => do
    match ← skipSpace with
    | none => failNext .endInValue
    | some '[' => do
      next
      return some (.behind false, .list :: opened)
    | some '\x7b' => do
      next
      return some (.behind false, .object :: opened)
    | some c => do
      skimScalar c
      return some (.behind true, opened)
  | (.behind _, []) => return none
  | (.behind comma, bracket :: outer) => do
    match ← skipSpace with
    | none => failNext (if bracket = .list then .endInList else .endInObject)
    | some c =>
      if c = bracket.closing then
        next
        return some (.behind true, outer)
      else
        if comma then
          if c = ',' then next
          else failNext (if bracket = .list then .expectedListEnd else .expectedObjectEnd)
        if bracket = .object then skimKey
        return some (.before, bracket :: outer)

def skimValue : Read Unit := do
  let _ ← iterate skimStep (.before, [])

end Read

/-! ## whole texts -/

open Read

def run {α : Type} (source : List Char) (p : Read α) : Except Error α :=
  match (do
      let a ← p
      finish
      return a : Read α) ⟨source, 0⟩ with
  | .ok a _ => .ok a
  | .error e _ => .error ⟨e.problem, e.index.map (placeAt source)⟩

def nesting : Nat := 127

/-- reads a whole text -/
def decode {α : Type} (source : String) (p : Nat → Read α) : Except Error α :=
  run source.toList (p nesting)

/-- checks that a whole text is a value -/
def skim (source : List Char) : Except Error Unit := run source skimValue

end Bindle.Json
