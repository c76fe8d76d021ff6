/-!
# What can be wrong with a JSON text

A `Problem` is a fault of the text or of what it is used for, and `Problem.text` words it.  An
`Error` may also say where: the line, and the number of bytes of that line read so far.
-/

namespace Bindle.Json

inductive Problem where
  -- of the text
  | endInList
  | endInObject
  | endInString
  | endInValue
  | expectedColon
  | expectedListEnd
  | expectedObjectEnd
  | expectedWord
  | expectedValue
  | invalidEscape
  | invalidNumber
  | numberOutOfRange
  | controlCharacter
  | keyNotString
  | loneSurrogate
  | splitSurrogate
  | trailingComma
  | trailingText
  | tooDeep
  -- of the value
  | wrongType (found wanted : String)
  | wrongLength (found : Nat) (wanted : String)
  | missingField (name : String)
  | unknownField (name : String) (known : List String)
  | repeatedField (name : String)
  | noVariant (type : String)
  deriving DecidableEq, Inhabited

namespace Problem

def ticked (s : String) : String := "\x60" ++ s ++ "\x60"

/-- the fields there are, as an unknown one is told of -/
def alternatives : List String → String
  | [] => "there are no fields"
  | [a] => "expected " ++ ticked a
  | [a, b] => "expected " ++ ticked a ++ " or " ++ ticked b
  | all => "expected one of " ++ ", ".intercalate (all.map ticked)

def text : Problem → String
  | endInList => "EOF while parsing a list"
  | endInObject => "EOF while parsing an object"
  | endInString => "EOF while parsing a string"
  | endInValue => "EOF while parsing a value"
  | expectedColon => "expected \x60:\x60"
  | expectedListEnd => "expected \x60,\x60 or \x60]\x60"
  | expectedObjectEnd => "expected \x60,\x60 or \x60\x7d\x60"
  | expectedWord => "expected ident"
  | expectedValue => "expected value"
  | invalidEscape => "invalid escape"
  | invalidNumber => "invalid number"
  | numberOutOfRange => "number out of range"
  | controlCharacter => "control character (\\u0000-\\u001F) found while parsing a string"
  | keyNotString => "key must be a string"
  | loneSurrogate => "lone leading surrogate in hex escape"
  | splitSurrogate => "unexpected end of hex escape"
  | trailingComma => "trailing comma"
  | trailingText => "trailing characters"
  | tooDeep => "recursion limit exceeded"
  | wrongType found wanted => "invalid type: " ++ found ++ ", expected " ++ wanted
  | wrongLength found wanted => "invalid length " ++ toString found ++ ", expected " ++ wanted
  | missingField name => "missing field " ++ ticked name
  | unknownField name known => "unknown field " ++ ticked name ++ ", " ++ alternatives known
  | repeatedField name => "duplicate field " ++ ticked name
  | noVariant type => "data did not match any variant of untagged enum " ++ type

end Problem

structure Place where
  line : Nat
  column : Nat
  deriving DecidableEq, Inhabited

structure Error where
  problem : Problem
  place : Option Place
  deriving DecidableEq, Inhabited

def Error.text (e : Error) : String :=
  match e.place with
  | none => e.problem.text
  | some p => e.problem.text ++ " at line " ++ toString p.line ++ " column " ++ toString p.column

/-- the place of a byte; lines end with a line feed only -/
def placeAt (source : List Char) (index : Nat) : Place :=
  go 1 0 0 source
where
  go (line start offset : Nat) : List Char → Place
    | [] => ⟨line, index - start⟩
    | c :: cs =>
      let next := offset + c.utf8Size
      if next > index then ⟨line, index - start⟩
      else if c = '\n' then go (line + 1) next next cs
      else go line start next cs

end Bindle.Json
