import Bindle.Pattern.Property
import Bindle.Pattern.Syntax
import Bindle.Text.Blank

/-!
# Reading patterns

`Ast.ofText` reads a pattern.  Groups that have been opened are kept in a stack, so that a pattern is
read in one pass from left to right; classes in brackets are read the same way with a stack of their
own.

* `Parse`           a reader with the rest of the pattern, its place and the names of groups;
* `escape`          what a backslash begins;
* `classFrom`       a class in brackets;
* `groupStart`      what an opening parenthesis begins;
* `step`            one part of a pattern.
-/

namespace Bindle.Pattern

open Bindle.Text

structure State where
  rest : List Char
  pos : Pos := {}
  ignoreSpace : Bool := false
  names : List (List Char × Span) := []
  deriving Inhabited

abbrev Parse := EStateM Fault State

namespace Parse

variable {α : Type}

def pos : Parse Pos := fun s => .ok s.pos s

def char? : Parse (Option Char) := fun s => .ok s.rest.head? s

def atEnd : Parse Bool := fun s => .ok s.rest.isEmpty s

/-- the place behind a character -/
def after (p : Pos) (c : Char) : Pos :=
  if c = '\n' then ⟨p.line + 1, 1⟩ else ⟨p.line, p.column + 1⟩

def fail (p : Problem) (span : Span) (other : Option Span := none) : Parse α := fun s =>
  .error ⟨p, span, other⟩ s

/-- a problem at the current place, which no character is to blame for -/
def failHere (p : Problem) : Parse α := fun s => .error ⟨p, s.pos.span, none⟩ s

/-- a problem from a place on -/
def failFrom (p : Problem) (start : Pos) : Parse α := fun s => .error ⟨p, ⟨start, s.pos⟩, none⟩ s

/-- the span of the current character -/
def charSpan : Parse Span := fun s =>
  .ok ⟨s.pos, match s.rest with
    | c :: _ => after s.pos c
    | [] => s.pos⟩ s

/-- moves behind the current character; whether another one follows -/
def bump : Parse Bool := fun s =>
  match s.rest with
  | [] => .ok false s
  | c :: cs => .ok (!cs.isEmpty) { s with rest := cs, pos := after s.pos c }

/-- white space and comments at the front -/
def ignored (comment : Bool) (p : Pos) : List Char → List Char × Pos
  | [] => ([], p)
  | c :: cs =>
    if comment then ignored (c ≠ '\n') (after p c) cs
    else if isSpace c then ignored false (after p c) cs
    else if c = '#' then ignored true (after p c) cs
    else (c :: cs, p)

def bumpSpace : Parse Unit := fun s =>
  if s.ignoreSpace then
    let (rest, p) := ignored false s.pos s.rest
    .ok () { s with rest := rest, pos := p }
  else .ok () s

def bumpAndSpace : Parse Bool := do
  if ← bump then
    bumpSpace
    return !(← atEnd)
  else return false

/-- skips a text if it comes next -/
def bumpIf (text : String) : Parse Bool := fun s =>
  let cs := text.toList
  if cs.isPrefixOf s.rest then
    .ok true { s with rest := s.rest.drop cs.length, pos := cs.foldl after s.pos }
  else .ok false s

def peek? : Parse (Option Char) := fun s => .ok s.rest.tail.head? s

/-- the next character that counts behind the current one -/
def peekSpace? : Parse (Option Char) := fun s =>
  if s.ignoreSpace then
    .ok (go false s.rest.tail) s
  else .ok s.rest.tail.head? s
where
  go (comment : Bool) : List Char → Option Char
    | [] => none
    | c :: cs =>
      if isSpace c then go (comment && c ≠ '\n') cs
      else if !comment && c = '#' then go true cs
      else some c

/-- more steps than there are characters -/
def bound : Parse Nat := fun s => .ok (2 * s.rest.length + 4) s

/-- repeats a step on a value until it gives no further one -/
def iterateN {σ : Type} : Nat → (σ → Parse (Option σ)) → σ → Parse σ
  | 0, _, a => pure a
  | n + 1, step, a => do
    match ← step a with
    | none => return a
    | some b => iterateN n step b

def iterate {σ : Type} (step : σ → Parse (Option σ)) (a : σ) : Parse σ := do
  iterateN (← bound) step a

end Parse

open Parse

/-! ## escapes -/

/-- what one character or escape can be, inside and outside of brackets -/
inductive Primitive where
  | literal (l : Literal)
  | assertion (a : Assertion) (span : Span)
  | perl (kind : Perl) (negated : Bool) (span : Span)
  | property (q : Query) (negated : Bool) (span : Span)

def Primitive.span : Primitive → Span
  | literal l => l.span
  | assertion _ s => s
  | perl _ _ s => s
  | property _ _ s => s

def scalarOf? (digits : List Char) : Option Char :=
  let n := hexNumber digits
  if n.isValidChar then some (Char.ofNat n) else none

/-- a fixed number of hexadecimal digits -/
def hexDigits (start : Pos) (count : Nat) : Parse Literal := do
  let first ← pos
  let rec go : Nat → List Char → Parse (List Char)
    | 0, seen => pure seen.reverse
    | n + 1, seen => do
      if !seen.isEmpty then
        if !(← bumpAndSpace) then failHere .escapeUnfinished
      match ← char? with
      | some c => if isHexDigit c then go n (c :: seen) else fail .hexDigit (← charSpan)
      | none => failHere .escapeUnfinished
  let digits ← go count []
  let _ ← bumpAndSpace
  let stop ← pos
  match scalarOf? digits with
  | some c => return ⟨⟨start, stop⟩, c, count = 2⟩
  | none => fail .hexInvalid ⟨first, stop⟩

/-- hexadecimal digits in braces -/
def hexBrace (start : Pos) : Parse Literal := do
  let brace ← pos
  let first := (← charSpan).stop
  let found ← iterate (fun (acc : List Char × Bool) => do
    if acc.2 then return none
    if !(← bumpAndSpace) then return some (acc.1, true)
    match ← char? with
    | some '\x7d' => return some (acc.1, true)
    | some c =>
      if isHexDigit c then return some (c :: acc.1, false)
      else fail .hexDigit (← charSpan)
    | none => return some (acc.1, true)) ([], false)
  if ← atEnd then failFrom .escapeUnfinished brace
  let stop ← pos
  let _ ← bumpAndSpace
  let digits := found.1.reverse
  if digits.isEmpty then failFrom .hexEmpty brace
  else match scalarOf? digits with
    | some c => return ⟨⟨start, ← pos⟩, c, false⟩
    | none => fail .hexInvalid ⟨first, stop⟩

def hexLiteral (start : Pos) (kind : Char) : Parse Literal := do
  if !(← bumpAndSpace) then failHere .escapeUnfinished
  if (← char?) = some '\x7b' then hexBrace start
  else hexDigits start (if kind = 'x' then 2 else if kind = 'u' then 4 else 8)

/-- the text before and behind the first occurrence of a mark -/
def splitAt? (mark : List Char) : List Char → Option (List Char × List Char)
  | [] => none
  | c :: cs =>
    if mark.isPrefixOf (c :: cs) then some ([], (c :: cs).drop mark.length)
    else (splitAt? mark cs).map (fun (a, b) => (c :: a, b))

def queryOf (name : List Char) : Query :=
  match splitAt? ['!', '='] name, splitAt? [':'] name, splitAt? ['='] name with
  | some (n, v), _, _ => .value n v false
  | none, some (n, v), _ => .value n v true
  | none, none, some (n, v) => .value n v true
  | none, none, none => .name name

def unicodeClass (start : Pos) (negated : Bool) : Parse Primitive := do
  if !(← bumpAndSpace) then failHere .escapeUnfinished
  match ← char? with
  | some '\x7b' => do
    let found ← iterate (fun (acc : List Char × Bool) => do
      if acc.2 then return none
      if !(← bumpAndSpace) then return some (acc.1, true)
      match ← char? with
      | some '\x7d' => return some (acc.1, true)
      | some c => return some (c :: acc.1, false)
      | none => return some (acc.1, true)) ([], false)
    if ← atEnd then failHere .escapeUnfinished
    let _ ← bump
    return .property (queryOf found.1.reverse) negated ⟨start, ← pos⟩
  | some c => do
    if c = '\\' then fail .propertyInvalid (← charSpan)
    let _ ← bumpAndSpace
    return .property (.name [c]) negated ⟨start, ← pos⟩
  | none => failHere .escapeUnfinished

def isBoundaryLetter (c : Char) : Bool := c.isAlpha || c == '-'

/-- a name in braces behind `\b`; none if the braces are a repetition -/
def boundaryName (start : Pos) : Parse (Option Assertion) := do
  let saved ← get
  let brace ← pos
  if !(← bumpAndSpace) then failFrom .boundaryUnfinished start
  let first ← pos
  if !((← char?).any isBoundaryLetter) then
    set saved
    return none
  let found ← iterate (fun (acc : List Char) => do
    match ← char? with
    | some c =>
      if isBoundaryLetter c then
        let _ ← bumpAndSpace
        return some (c :: acc)
      else return none
    | none => return none) []
  if (← char?) ≠ some '\x7d' then failFrom .boundaryUnclosed brace
  let stop ← pos
  let _ ← bump
  match String.ofList found.reverse with
  | "start" => return some .wordStart
  | "end" => return some .wordEnd
  | "start-half" => return some .wordStartHalf
  | "end-half" => return some .wordEndHalf
  | _ => fail .boundaryUnknown ⟨first, stop⟩

def isMeta (c : Char) : Bool := "\\.+*?()|[]\x7b\x7d^$#&-~".toList.contains c

/-- a character that may stand behind a backslash for itself -/
def isEscapable (c : Char) : Bool :=
  isMeta c || (c.toNat < 0x80 && !c.isAlphanum && c ≠ '<' && c ≠ '>')

/-- letters that stand for control characters -/
def controlEscape? (c : Char) : Option Char :=
  match c with
  | 'a' => some '\x07'
  | 'f' => some '\x0c'
  | 't' => some '\t'
  | 'n' => some '\n'
  | 'r' => some '\r'
  | 'v' => some '\x0b'
  | _ => none

def assertionEscape? (c : Char) : Option Assertion :=
  match c with
  | 'A' => some .textStart
  | 'z' => some .textEnd
  | 'B' => some .noWordBoundary
  | '<' => some .wordStart
  | '>' => some .wordEnd
  | _ => none

def perlEscape? (c : Char) : Option (Perl × Bool) :=
  match c with
  | 'd' => some (.digit, false)
  | 's' => some (.space, false)
  | 'w' => some (.word, false)
  | 'D' => some (.digit, true)
  | 'S' => some (.space, true)
  | 'W' => some (.word, true)
  | _ => none

/-- from the backslash on -/
def escape : Parse Primitive := do
  let start ← pos
  let _ ← bump
  match ← char? with
  | none => failFrom .escapeUnfinished start
  | some c => do
    if isDecimalDigit c then fail .backreference ⟨start, (← charSpan).stop⟩
    if c = 'x' || c = 'u' || c = 'U' then return .literal (← hexLiteral start c)
    if c = 'p' || c = 'P' then return ← unicodeClass start (c = 'P')
    let _ ← bump
    let span : Span := ⟨start, ← pos⟩
    match perlEscape? c with
    | some (kind, negated) => return .perl kind negated span
    | none =>
      if isEscapable c then return .literal ⟨span, c, false⟩
      else match controlEscape? c, assertionEscape? c with
        | some d, _ => return .literal ⟨span, d, false⟩
        | none, some a => return .assertion a span
        | none, none =>
          if c = 'b' then
            if (← char?) = some '\x7b' then
              match ← boundaryName start with
              | some a => return .assertion a ⟨start, ← pos⟩
              | none => return .assertion .wordBoundary span
            else return .assertion .wordBoundary span
          else fail .escapeUnknown span

/-! ## classes in brackets -/

/-- the items of a class so far, newest first, with the operators before them -/
structure Union where
  items : List ClassItem := []
  pending : Option (SetOp × ClassItem) := none
  deriving Inhabited

def unionOf : List ClassItem → ClassItem
  | [item] => item
  | items => .union items.reverse

/-- all that has been read of a class -/
def Union.finish (u : Union) : ClassItem :=
  match u.pending with
  | none => unionOf u.items
  | some (o, left) => .op o left (unionOf u.items)

def Union.push (u : Union) (item : ClassItem) : Union := { u with items := item :: u.items }

/-- a class that has been opened, with what was read of the class around it -/
structure OpenClass where
  outer : Union
  span : Span
  negated : Bool
  deriving Inhabited

def unclosed (stack : List OpenClass) : Parse Unit :=
  match stack with
  | top :: _ => fail .classUnclosed top.span
  | [] => failHere .classUnclosed

/-- from an opening bracket on, up to the first item that is none of the leading ones -/
def openClass (outer : Union) : Parse (OpenClass × Union) := do
  let start ← pos
  if !(← bumpAndSpace) then failFrom .classUnclosed start
  let negated := (← char?) = some '^'
  if negated then
    if !(← bumpAndSpace) then failFrom .classUnclosed start
  let dashes ← iterate (fun (u : Union) => do
    if (← char?) = some '-' then
      let span ← charSpan
      if !(← bumpAndSpace) then fail .classUnclosed start.span
      return some (u.push (.literal ⟨span, '-', false⟩))
    else return none) {}
  let first ← if dashes.items.isEmpty && (← char?) = some ']' then do
      let span ← charSpan
      if !(← bumpAndSpace) then failFrom .classUnclosed start
      pure (dashes.push (.literal ⟨span, ']', false⟩))
    else pure dashes
  return (⟨outer, ⟨start, ← pos⟩, negated⟩, first)

def asciiNames : List String :=
  ["alnum", "alpha", "ascii", "blank", "cntrl", "digit", "graph", "lower", "print", "punct",
   "space", "upper", "word", "xdigit"]

/-- a named class such as `[:alpha:]`, if there is one; else nothing is read -/
def asciiClass? : Parse (Option ClassItem) := fun s =>
  let (negated, body) := match s.rest with
    | '[' :: ':' :: '^' :: rest => (true, rest)
    | '[' :: ':' :: rest => (false, rest)
    | _ => (false, [])
  let name := String.ofList (body.takeWhile (· ≠ ':'))
  let behind := body.dropWhile (· ≠ ':')
  if [':', ']'].isPrefixOf behind && asciiNames.contains name then
    let taken := s.rest.take (s.rest.length - behind.length + 2)
    let stop := taken.foldl after s.pos
    .ok (some (.ascii name negated ⟨s.pos, stop⟩)) { s with rest := behind.drop 2, pos := stop }
  else .ok none s

def classPrimitive : Parse Primitive := do
  match ← char? with
  | some '\\' => escape
  | some c => do
    let span ← charSpan
    let _ ← bump
    return .literal ⟨span, c, false⟩
  | none => failHere .classUnclosed

def Primitive.toItem : Primitive → Parse ClassItem
  | literal l => pure (.literal l)
  | perl kind negated span => pure (.perl kind negated span)
  | property q negated span => pure (.property q negated span)
  | assertion _ span => fail .classEscape span

def Primitive.toLiteral : Primitive → Parse Literal
  | literal l => pure l
  | p => fail .classRangeBoundary p.span

/-- an item of a class, or a range of literals -/
def classRange (stack : List OpenClass) : Parse ClassItem := do
  let first ← classPrimitive
  bumpSpace
  if ← atEnd then unclosed stack
  let follows ← peekSpace?
  if (← char?) ≠ some '-' || follows = some ']' || follows = some '-' then first.toItem
  else
    if !(← bumpAndSpace) then unclosed stack
    let second ← classPrimitive
    let a ← first.toLiteral
    let b ← second.toLiteral
    if a.char > b.char then fail .classRange ⟨first.span.start, second.span.stop⟩
    return .range a b

/-- an operator between two classes -/
def classOperator? : Parse (Option SetOp) := do
  if ← bumpIf "&&" then return some .inter
  else if ← bumpIf "--" then return some .diff
  else if ← bumpIf "~~" then return some .symDiff
  else return none

/-- one step inside a class; the first component is the finished class, if there is one -/
def classStep (at_ : Option Ast × List OpenClass × Union) :
    Parse (Option (Option Ast × List OpenClass × Union)) := do
  match at_ with
  | (some _, _, _) => return none
  | (none, stack, u) => do
    bumpSpace
    match ← char? with
    | none => do
      unclosed stack
      return none
    | some '[' => do
      match ← asciiClass? with
      | some item => return some (none, stack, u.push item)
      | none => do
        let (opened, inner) ← openClass u
        return some (none, opened :: stack, inner)
    | some ']' => do
      let _ ← bump
      match stack with
      | [] => return none
      | top :: outer => do
        let span : Span := ⟨top.span.start, ← pos⟩
        match outer with
        | [] => return some (some (.bracketed span top.negated u.finish), [], {})
        | _ =>
          return some (none, outer, top.outer.push (.bracketed span top.negated u.finish))
    | some _ => do
      match ← classOperator? with
      | some o => return some (none, stack, { items := [], pending := some (o, u.finish) })
      | none => return some (none, stack, u.push (← classRange stack))

/-- a class from its opening bracket on -/
def classFrom : Parse Ast := do
  let (opened, inner) ← openClass {}
  let found ← iterate classStep (none, [opened], inner)
  match found.1 with
  | some ast => return ast
  | none => fail .classUnclosed opened.span

/-! ## groups and flags -/

def flagOf? (c : Char) : Option Flag :=
  match c with
  | 'i' => some .ignoreCase
  | 'm' => some .multiLine
  | 's' => some .dotAll
  | 'U' => some .swapGreed
  | 'u' => some .unicode
  | 'R' => some .crlf
  | 'x' => some .ignoreSpace
  | _ => none

structure FlagsRead where
  changes : List FlagChange := []
  places : List (Flag × Span) := []
  /-- where the minus sign stands -/
  minus : Option Span := none
  /-- the minus sign was the last thing read -/
  dangling : Bool := false

/-- flags up to a colon or a closing parenthesis -/
def readFlags : Parse FlagsRead := do
  let found ← iterate (fun (r : FlagsRead) => do
    match ← char? with
    | none => failHere .flagUnfinished
    | some c => do
      if c = ':' || c = ')' then return none
      let span ← charSpan
      let next ← if c = '-' then
          match r.minus with
          | some o => fail .flagNegatedTwice span (some o)
          | none => pure { r with minus := some span, dangling := true }
        else match flagOf? c with
          | none => fail .flagUnknown span
          | some f =>
            match r.places.find? (·.1 = f) with
            | some (_, o) => fail .flagRepeated span (some o)
            | none => pure { r with changes := r.changes ++ [⟨f, r.minus.isNone⟩],
                                    places := (f, span) :: r.places, dangling := false }
      if !(← bump) then failHere .flagUnfinished
      return some next) {}
  match found.dangling, found.minus with
  | true, some span => fail .flagDangling span
  | _, _ => return found

def isNameCharacter (c : Char) (first : Bool) : Bool :=
  let letters := (property? "alphabetic".toList).getD .empty
  let numbers := (category? "n").getD .empty
  c = '_' || letters.contains c.toNat ||
    (!first && (c = '.' || c = '[' || c = ']' || numbers.contains c.toNat))

/-- the name of a group, behind its opening mark -/
def groupName : Parse Unit := do
  if ← atEnd then failHere .nameUnfinished
  let start ← pos
  let found ← iterate (fun (seen : List Char) => do
    match ← char? with
    | none => return none
    | some '>' => return none
    | some c => do
      if !isNameCharacter c seen.isEmpty then fail .nameInvalid (← charSpan)
      let _ ← bump
      return some (c :: seen)) []
  let stop ← pos
  if ← atEnd then failHere .nameUnfinished
  let _ ← bump
  if found.isEmpty then fail .nameEmpty start.span
  let s ← get
  match s.names.find? (·.1 = found) with
  | some (_, o) => fail .nameRepeated ⟨start, stop⟩ (some o)
  | none => set { s with names := (found, ⟨start, stop⟩) :: s.names }

inductive GroupStart where
  /-- flags for the rest of the group around them -/
  | flags (changes : List FlagChange)
  /-- a group with flags of its own -/
  | group (span : Span) (changes : List FlagChange)

def isLookAround : Parse Bool := do
  if ← bumpIf "?=" then return true
  else if ← bumpIf "?!" then return true
  else if ← bumpIf "?<=" then return true
  else bumpIf "?<!"

/-- from an opening parenthesis on -/
def groupStart : Parse GroupStart := do
  let span ← charSpan
  let _ ← bump
  bumpSpace
  if ← isLookAround then failFrom .lookAround span.start
  let inner ← pos
  let named ← if ← bumpIf "?P<" then pure true else bumpIf "?<"
  if named then
    groupName
    return .group span []
  else if ← bumpIf "?" then
    if ← atEnd then fail .groupUnclosed span
    let flags ← readFlags
    let last ← char?
    let _ ← bump
    if last = some ')' then
      if flags.changes.isEmpty && flags.minus.isNone then fail .repetitionMissing inner.span
      return .flags flags.changes
    else return .group span flags.changes
  else return .group span []

/-! ## whole patterns -/

/-- what has been read of a group: finished branches and the parts of the last one, newest first -/
structure Level where
  branches : List Ast := []
  firstStart : Pos
  start : Pos
  parts : List Ast := []
  deriving Inhabited

def Level.at (p : Pos) : Level := { firstStart := p, start := p }

def Level.push (l : Level) (a : Ast) : Level := { l with parts := a :: l.parts }

def Level.branch (l : Level) (stop : Pos) : Ast :=
  match l.parts with
  | [] => .empty
  | [a] => a
  | parts => .concat ⟨l.start, stop⟩ parts.reverse

def Level.finish (l : Level) (stop : Pos) : Ast :=
  match l.branches with
  | [] => l.branch stop
  | branches => .alternation ⟨l.firstStart, stop⟩ (branches.reverse ++ [l.branch stop])

/-- a group that has been opened, with what was read of the group around it -/
structure OpenGroup where
  outer : Level
  span : Span
  changes : List FlagChange
  ignoreSpace : Bool
  deriving Inhabited

def ignoreSpaceOf? (changes : List FlagChange) : Option Bool :=
  (changes.find? (·.flag = .ignoreSpace)).map FlagChange.on

/-- the part that a repetition is about -/
def repeated (l : Level) : Parse (Ast × Level) := do
  match l.parts with
  | [] => failHere .repetitionMissing
  | .empty :: _ => failHere .repetitionMissing
  | .flags _ :: _ => failHere .repetitionMissing
  | a :: rest => return (a, { l with parts := rest })

def astStart : Ast → Pos → Pos
  | .literal l, _ => l.span.start
  | .dot s, _ => s.start
  | .perl _ _ s, _ => s.start
  | .property _ _ s, _ => s.start
  | .bracketed s _ _, _ => s.start
  | .repetition s _ _ _, _ => s.start
  | .group s _ _, _ => s.start
  | _, p => p

def repetition (l : Level) (least : Nat) (most : Option Nat) : Parse Level := do
  let start ← pos
  let (a, rest) ← repeated l
  if ← bump then
    if (← char?) = some '?' then
      let _ ← bump
  return rest.push (.repetition ⟨astStart a start, ← pos⟩ least most a)

def largestCount : Nat := 4294967295

/-- a decimal number with white space around it; none if there are no digits -/
def decimal : Parse (Except Fault Nat) := do
  let skip (_ : Unit) : Parse (Option Unit) := do
    if (← char?).any isSpace then
      let _ ← bump
      return some ()
    else return none
  iterate skip ()
  let start ← pos
  let digits ← iterate (fun (seen : List Char) => do
    match ← char? with
    | some c =>
      if isDecimalDigit c then
        let _ ← bumpAndSpace
        return some (c :: seen)
      else return none
    | none => return none) []
  let span : Span := ⟨start, ← pos⟩
  iterate skip ()
  let n := digitsNumber 10 digits.reverse
  if digits.isEmpty then return .error ⟨.countEmpty, span, none⟩
  else if n > largestCount then return .error ⟨.decimalInvalid, span, none⟩
  else return .ok n

def orThrow (r : Except Fault Nat) : Parse Nat :=
  match r with
  | .ok n => pure n
  | .error f => throw f

/-- a repetition in braces -/
def countedRepetition (l : Level) : Parse Level := do
  let start ← pos
  let (a, rest) ← repeated l
  if !(← bumpAndSpace) then failFrom .countUnclosed start
  let first ← decimal
  if ← atEnd then failFrom .countUnclosed start
  let (least, most) ← if (← char?) = some ',' then do
      if !(← bumpAndSpace) then failFrom .countUnclosed start
      if (← char?) ≠ some '\x7d' then
        let least ← orThrow first
        let most ← orThrow (← decimal)
        pure (least, some most)
      else
        let least ← orThrow first
        pure (least, none)
    else do
      let n ← orThrow first
      pure (n, some n)
  if (← char?) ≠ some '\x7d' then failFrom .countUnclosed start
  if ← bumpAndSpace then
    if (← char?) = some '?' then
      let _ ← bump
  if most.any (· < least) then failFrom .countOrder start
  return rest.push (.repetition ⟨astStart a start, ← pos⟩ least most a)

def Primitive.toAst : Primitive → Ast
  | literal l => .literal l
  | assertion a _ => .assertion a
  | perl kind negated span => .perl kind negated span
  | property q negated span => .property q negated span

/-- a part that is no group, class or repetition -/
def primitive (c : Char) : Parse Ast := do
  if c = '\\' then return (← escape).toAst
  else
    let span ← charSpan
    let _ ← bump
    if c = '.' then return .dot span
    else if c = '^' then return .assertion .lineStart
    else if c = '$' then return .assertion .lineEnd
    else return .literal ⟨span, c, false⟩

/-- one part of a pattern, inside the groups of a stack -/
def step (at_ : List OpenGroup × Level) : Parse (Option (List OpenGroup × Level)) := do
  let (stack, level) := at_
  bumpSpace
  match ← char? with
  | none => return none
  | some '(' => do
    match ← groupStart with
    | .flags changes => do
      match ignoreSpaceOf? changes with
      | some on => modify (fun s => { s with ignoreSpace := on })
      | none => pure ()
      return some (stack, level.push (.flags changes))
    | .group span changes => do
      let s ← get
      set { s with ignoreSpace := (ignoreSpaceOf? changes).getD s.ignoreSpace }
      return some (⟨level, span, changes, s.ignoreSpace⟩ :: stack, .at (← pos))
  | some ')' => do
    match stack with
    | [] => fail .groupUnopened (← charSpan)
    | top :: rest => do
      modify (fun s => { s with ignoreSpace := top.ignoreSpace })
      let inner := level.finish (← pos)
      let _ ← bump
      let group := Ast.group ⟨top.span.start, ← pos⟩ top.changes inner
      return some (rest, top.outer.push group)
  | some '|' => do
    let branch := level.branch (← pos)
    let _ ← bump
    let p ← pos
    return some (stack, { branches := branch :: level.branches,
                          firstStart := level.firstStart, start := p, parts := [] })
  | some '[' => return some (stack, level.push (← classFrom))
  | some '?' => return some (stack, ← repetition level 0 (some 1))
  | some '*' => return some (stack, ← repetition level 0 none)
  | some '+' => return some (stack, ← repetition level 1 none)
  | some '\x7b' => return some (stack, ← countedRepetition level)
  | some c => return some (stack, level.push (← primitive c))

def pattern : Parse Ast := do
  let (stack, level) ← iterate step ([], .at (← pos))
  match stack with
  | top :: _ => fail .groupUnclosed top.span
  | [] => do
    let ast := level.finish (← pos)
    match ast.tooDeep? 0 with
    | some span => fail .nested span
    | none => return ast

def Ast.ofText (text : List Char) : Except Fault Ast :=
  match pattern { rest := text } with
  | .ok ast _ => .ok ast
  | .error f _ => .error f

end Bindle.Pattern
