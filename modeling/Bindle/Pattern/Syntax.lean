/-!
# Patterns as written

* `Ast`       a pattern as a tree, with the places of its parts;
* `Problem`   what can be wrong with a pattern, and `Problem.text` its wording;
* `Fault.text`   a problem below the lines of the pattern that it is about.

Lines and columns count from 1, columns in characters.
-/

namespace Bindle.Pattern

structure Pos where
  line : Nat := 1
  column : Nat := 1
  deriving DecidableEq, Inhabited

structure Span where
  start : Pos
  stop : Pos
  deriving DecidableEq, Inhabited

def Pos.span (p : Pos) : Span := ⟨p, p⟩

inductive Problem where
  | classEscape
  | classRange
  | classRangeBoundary
  | classUnclosed
  | decimalInvalid
  | hexEmpty
  | hexInvalid
  | hexDigit
  | escapeUnfinished
  | escapeUnknown
  | flagDangling
  | flagRepeated
  | flagNegatedTwice
  | flagUnfinished
  | flagUnknown
  | nameRepeated
  | nameEmpty
  | nameInvalid
  | nameUnfinished
  | groupUnclosed
  | groupUnopened
  | nested
  | countOrder
  | countEmpty
  | countUnclosed
  | repetitionMissing
  | boundaryUnclosed
  | boundaryUnknown
  | boundaryUnfinished
  | propertyInvalid
  | backreference
  | lookAround
  | unicodeNotAllowed
  | invalidText
  | propertyUnknown
  | propertyValueUnknown
  deriving DecidableEq, Inhabited

/-- groups, repetitions and classes may be nested so deep -/
def nestLimit : Nat := 250

def Problem.text : Problem → String
  | .classEscape => "invalid escape sequence found in character class"
  | .classRange => "invalid character class range, the start must be <= the end"
  | .classRangeBoundary => "invalid range boundary, must be a literal"
  | .classUnclosed => "unclosed character class"
  | .decimalInvalid => "decimal literal invalid"
  | .hexEmpty => "hexadecimal literal empty"
  | .hexInvalid => "hexadecimal literal is not a Unicode scalar value"
  | .hexDigit => "invalid hexadecimal digit"
  | .escapeUnfinished => "incomplete escape sequence, reached end of pattern prematurely"
  | .escapeUnknown => "unrecognized escape sequence"
  | .flagDangling => "dangling flag negation operator"
  | .flagRepeated => "duplicate flag"
  | .flagNegatedTwice => "flag negation operator repeated"
  | .flagUnfinished => "expected flag but got end of regex"
  | .flagUnknown => "unrecognized flag"
  | .nameRepeated => "duplicate capture group name"
  | .nameEmpty => "empty capture group name"
  | .nameInvalid => "invalid capture group character"
  | .nameUnfinished => "unclosed capture group name"
  | .groupUnclosed => "unclosed group"
  | .groupUnopened => "unopened group"
  | .nested => "exceed the maximum number of nested parentheses/brackets (" ++
    toString nestLimit ++ ")"
  | .countOrder => "invalid repetition count range, the start must be <= the end"
  | .countEmpty => "repetition quantifier expects a valid decimal"
  | .countUnclosed => "unclosed counted repetition"
  | .repetitionMissing => "repetition operator missing expression"
  | .boundaryUnclosed =>
    "special word boundary assertion is either unclosed or contains an invalid character"
  | .boundaryUnknown => "unrecognized special word boundary assertion, valid choices are: " ++
    "start, end, start-half or end-half"
  | .boundaryUnfinished =>
    "found either the beginning of a special word boundary or a bounded repetition on a \\b " ++
    "with an opening brace, but no closing brace"
  | .propertyInvalid => "invalid Unicode character class"
  | .backreference => "backreferences are not supported"
  | .lookAround => "look-around, including look-ahead and look-behind, is not supported"
  | .unicodeNotAllowed => "Unicode not allowed here"
  | .invalidText => "pattern can match invalid UTF-8"
  | .propertyUnknown => "Unicode property not found"
  | .propertyValueUnknown => "Unicode property value not found"

/-- a problem, what it is about, and what it collides with -/
structure Fault where
  problem : Problem
  span : Span
  other : Option Span := none
  deriving DecidableEq, Inhabited

/-! ## trees -/

inductive Flag where
  | ignoreCase | multiLine | dotAll | swapGreed | unicode | crlf | ignoreSpace
  deriving DecidableEq, Inhabited

/-- flags that are switched on and off -/
structure FlagChange where
  flag : Flag
  on : Bool
  deriving DecidableEq, Inhabited

inductive Assertion where
  | lineStart | lineEnd | textStart | textEnd
  | wordBoundary | noWordBoundary | wordStart | wordEnd | wordStartHalf | wordEndHalf
  deriving DecidableEq, Inhabited

inductive Perl where
  | digit | space | word
  deriving DecidableEq, Inhabited

/-- a property as named; `equal` is false where the value is excluded -/
inductive Query where
  | name (n : List Char)
  | value (n v : List Char) (equal : Bool)
  deriving DecidableEq, Inhabited

/-- a literal written with two hexadecimal digits can stand for a byte -/
structure Literal where
  span : Span
  char : Char
  twoDigits : Bool := false
  deriving DecidableEq, Inhabited

inductive SetOp where
  | inter | diff | symDiff
  deriving DecidableEq, Inhabited

inductive ClassItem where
  | literal (l : Literal)
  | range (a b : Literal)
  | ascii (name : String) (negated : Bool) (span : Span)
  | perl (kind : Perl) (negated : Bool) (span : Span)
  | property (q : Query) (negated : Bool) (span : Span)
  | bracketed (span : Span) (negated : Bool) (inner : ClassItem)
  | union (items : List ClassItem)
  | op (o : SetOp) (left right : ClassItem)
  deriving Inhabited

inductive Ast where
  | empty
  | flags (changes : List FlagChange)
  | literal (l : Literal)
  | dot (span : Span)
  | assertion (a : Assertion)
  | perl (kind : Perl) (negated : Bool) (span : Span)
  | property (q : Query) (negated : Bool) (span : Span)
  | bracketed (span : Span) (negated : Bool) (inner : ClassItem)
  | repetition (span : Span) (least : Nat) (most : Option Nat) (inner : Ast)
  | group (span : Span) (changes : List FlagChange) (inner : Ast)
  | concat (span : Span) (parts : List Ast)
  | alternation (span : Span) (branches : List Ast)
  deriving Inhabited

/-! ## the depth of a tree -/

def ClassItem.tooDeep? (depth : Nat) : ClassItem → Option Span
  | .bracketed span _ inner =>
    if depth ≥ nestLimit then some span else inner.tooDeep? (depth + 1)
  | .union items => itemsTooDeep? depth items
  | .op _ a b => (a.tooDeep? depth).or (b.tooDeep? depth)
  | _ => none
where
  itemsTooDeep? (depth : Nat) : List ClassItem → Option Span
    | [] => none
    | i :: is => (i.tooDeep? depth).or (itemsTooDeep? depth is)

/-- the first part that is nested too deep -/
def Ast.tooDeep? (depth : Nat) : Ast → Option Span
  | .bracketed span _ inner =>
    if depth ≥ nestLimit then some span else inner.tooDeep? (depth + 1)
  | .repetition span _ _ inner =>
    if depth ≥ nestLimit then some span else inner.tooDeep? (depth + 1)
  | .group span _ inner =>
    if depth ≥ nestLimit then some span else inner.tooDeep? (depth + 1)
  | .concat span parts =>
    if depth ≥ nestLimit then some span else partsTooDeep? (depth + 1) parts
  | .alternation span branches =>
    if depth ≥ nestLimit then some span else partsTooDeep? (depth + 1) branches
  | _ => none
where
  partsTooDeep? (depth : Nat) : List Ast → Option Span
    | [] => none
    | a :: as => (a.tooDeep? depth).or (partsTooDeep? depth as)

/-! ## faults as text -/

/-- the lines of a pattern; a carriage return before the line feed does not count -/
def linesOf (cs : List Char) : List (List Char) :=
  go [] cs
where
  finish (seen : List Char) : List Char :=
    match seen with
    | '\r' :: rest => rest.reverse
    | _ => seen.reverse
  go (seen : List Char) : List Char → List (List Char)
    | [] => if seen.isEmpty then [] else [seen.reverse]
    | c :: cs => if c = '\n' then finish seen :: go [] cs else go (c :: seen) cs

def blanks (n : Nat) : String := String.ofList (List.replicate n ' ')

/-- marks below a line, for spans in ascending order; `column` characters have been written -/
def marks (column : Nat) : List Span → String
  | [] => ""
  | s :: rest =>
    let width := max 1 (s.stop.column - s.start.column)
    blanks (s.start.column - 1 - column) ++ String.ofList (List.replicate width '^') ++
      marks (max column (s.start.column - 1) + width) rest

def Span.isOneLine (s : Span) : Bool := s.start.line = s.stop.line

/-- the order of spans by their starts -/
def Span.before (s t : Span) : Bool :=
  s.start.line < t.start.line || (s.start.line = t.start.line && s.start.column ≤ t.start.column)

def Fault.spans (f : Fault) : List Span :=
  match f.other with
  | none => [f.span]
  | some o => if f.span.before o then [f.span, o] else [o, f.span]

/-- the number of a line, padded to a width, or blanks if the lines are not numbered -/
def lineHead (width n : Nat) : String :=
  if width = 0 then blanks 4
  else
    let number := toString n
    blanks (width - number.length) ++ number ++ ": "

def notated (width : Nat) (spans : List Span) : Nat → List (List Char) → String
  | _, [] => ""
  | n, line :: rest =>
    let here := spans.filter (fun s => s.start.line = n && s.isOneLine)
    let under := if here.isEmpty then ""
      else blanks (if width = 0 then 4 else width + 2) ++ marks 0 here ++ "\n"
    lineHead width n ++ String.ofList line ++ "\n" ++ under ++ notated width spans (n + 1) rest

/-- a span over several lines, in words -/
def Span.note (s : Span) : String :=
  "on line " ++ toString s.start.line ++ " (column " ++ toString s.start.column ++
    ") through line " ++ toString s.stop.line ++ " (column " ++ toString (s.stop.column - 1) ++ ")"

def divider : String := String.ofList (List.replicate 79 '~') ++ "\n"

def Fault.text (f : Fault) (pattern : List Char) : String :=
  let lines := linesOf pattern
  let count := lines.length + (if pattern.getLast? = some '\n' then 1 else 0)
  let width := if count ≤ 1 then 0 else (toString count).length
  let body := notated width f.spans 1 lines
  let several := f.spans.filter (fun s => !s.isOneLine)
  if pattern.contains '\n' then
    "regex parse error:\n" ++ divider ++ body ++ divider ++
      (if several.isEmpty then "" else "\n".intercalate (several.map Span.note) ++ "\n") ++
      "error: " ++ f.problem.text
  else "regex parse error:\n" ++ body ++ "error: " ++ f.problem.text

end Bindle.Pattern
