import Bindle.Pattern.Parser
import Bindle.Pattern.Regex

/-!
# What patterns mean

`Ast.meaning` turns a pattern into a regular expression.  Flags that stand alone hold up to the end
of the group they are in.

Without the Unicode flag classes are of bytes.  A class that holds more than ASCII could match a part
of a character then, and is refused.
-/

namespace Bindle.Pattern

structure Mode where
  ignoreCase : Bool := false
  multiLine : Bool := false
  dotAll : Bool := false
  unicode : Bool := true
  crlf : Bool := false
  deriving DecidableEq, Inhabited

namespace Mode

def change (m : Mode) (c : FlagChange) : Mode :=
  match c.flag with
  | .ignoreCase => { m with ignoreCase := c.on }
  | .multiLine => { m with multiLine := c.on }
  | .dotAll => { m with dotAll := c.on }
  | .unicode => { m with unicode := c.on }
  | .crlf => { m with crlf := c.on }
  | .swapGreed | .ignoreSpace => m

/-- the last element of classes -/
def last (m : Mode) : Nat := if m.unicode then CharSet.lastScalar else 0xFF

def fold (m : Mode) (s : CharSet) : CharSet :=
  if !m.ignoreCase then s else if m.unicode then foldSet s else foldAscii s

end Mode

def negateIf (m : Mode) (negated : Bool) (s : CharSet) : CharSet :=
  if negated then s.complement m.last else s

/-- a class of bytes must not hold parts of characters -/
def checked (m : Mode) (span : Span) (s : CharSet) : Except Fault CharSet :=
  if !m.unicode && s.ranges.any (fun r => r.2 > 0x7F) then .error ⟨.invalidText, span, none⟩
  else .ok s

/-- the set of a named class -/
def asciiSet (name : String) : CharSet :=
  match name with
  | "alnum" => ⟨[(0x30, 0x39), (0x41, 0x5A), (0x61, 0x7A)]⟩
  | "alpha" => ⟨[(0x41, 0x5A), (0x61, 0x7A)]⟩
  | "ascii" => ⟨[(0, 0x7F)]⟩
  | "blank" => ⟨[(0x09, 0x09), (0x20, 0x20)]⟩
  | "cntrl" => ⟨[(0, 0x1F), (0x7F, 0x7F)]⟩
  | "digit" => asciiDigits
  | "graph" => ⟨[(0x21, 0x7E)]⟩
  | "lower" => ⟨[(0x61, 0x7A)]⟩
  | "print" => ⟨[(0x20, 0x7E)]⟩
  | "punct" => ⟨[(0x21, 0x2F), (0x3A, 0x40), (0x5B, 0x60), (0x7B, 0x7E)]⟩
  | "space" => asciiSpaces
  | "upper" => ⟨[(0x41, 0x5A)]⟩
  | "word" => asciiWord
  | _ => ⟨[(0x30, 0x39), (0x41, 0x46), (0x61, 0x66)]⟩

def perlSet (m : Mode) (kind : Perl) (negated : Bool) (span : Span) : Except Fault CharSet :=
  let s := match kind, m.unicode with
    | .digit, true => digitSet
    | .space, true => spaceSet
    | .word, true => wordSet
    | .digit, false => asciiDigits
    | .space, false => asciiSpaces
    | .word, false => asciiWord
  checked m span (negateIf m negated s)

def propertySet (m : Mode) (q : Query) (negated : Bool) (span : Span) : Except Fault CharSet :=
  if !m.unicode then .error ⟨.unicodeNotAllowed, span, none⟩
  else match q with
    | .name n =>
      match property? n with
      | some s => .ok (negateIf m negated (m.fold s))
      | none => .error ⟨.propertyUnknown, span, none⟩
    | .value n v equal =>
      match propertyValue? n v with
      | .found s => .ok (negateIf m (negated != !equal) (m.fold s))
      | .noProperty => .error ⟨.propertyUnknown, span, none⟩
      | .noValue => .error ⟨.propertyValueUnknown, span, none⟩

/-- an element of a class -/
def classElement (m : Mode) (l : Literal) : Except Fault Nat :=
  if m.unicode || l.twoDigits || l.char.toNat < 0x80 then .ok l.char.toNat
  else .error ⟨.unicodeNotAllowed, l.span, none⟩

mutual

def ClassItem.meaning (m : Mode) : ClassItem → Except Fault CharSet
  | .literal l => do return ⟨[single (← classElement m l)]⟩
  | .range a b => do return .ofRanges [(← classElement m a, ← classElement m b)]
  | .ascii name negated span => checked m span (negateIf m negated (m.fold (asciiSet name)))
  | .perl kind negated span => perlSet m kind negated span
  | .property q negated span => propertySet m q negated span
  | .bracketed span negated inner => do
    checked m span (negateIf m negated (m.fold (← inner.meaning m)))
  | .union items => ClassItem.meanings m items
  | .op o a b => do
    let s := m.fold (← a.meaning m)
    let t := m.fold (← b.meaning m)
    return match o with
      | .inter => s.inter t
      | .diff => s.diff t
      | .symDiff => s.symDiff t

def ClassItem.meanings (m : Mode) : List ClassItem → Except Fault CharSet
  | [] => .ok .empty
  | i :: is => do return (← i.meaning m).union (← ClassItem.meanings m is)

end

def literalMeaning (m : Mode) (l : Literal) : Except Fault Regex :=
  if !m.unicode && l.twoDigits && l.char.toNat ≥ 0x80 then .error ⟨.invalidText, l.span, none⟩
  else .ok (.set (m.fold (.ofChar l.char)))

def dotMeaning (m : Mode) (span : Span) : Except Fault Regex :=
  if !m.unicode then .error ⟨.invalidText, span, none⟩
  else
    let except : CharSet := if m.dotAll then .empty
      else if m.crlf then ⟨[(0x0A, 0x0A), (0x0D, 0x0D)]⟩ else ⟨[(0x0A, 0x0A)]⟩
    .ok (.set (except.complement CharSet.lastScalar))

def Assertion.meaning (m : Mode) : Assertion → Look
  | .lineStart => if m.multiLine then .lineStart m.crlf else .start
  | .lineEnd => if m.multiLine then .lineEnd m.crlf else .stop
  | .textStart => .start
  | .textEnd => .stop
  | .wordBoundary => .wordBoundary !m.unicode
  | .noWordBoundary => .noWordBoundary !m.unicode
  | .wordStart => .wordStart !m.unicode
  | .wordEnd => .wordEnd !m.unicode
  | .wordStartHalf => .wordStartHalf !m.unicode
  | .wordEndHalf => .wordEndHalf !m.unicode

mutual

/-- an expression, and the mode behind it -/
def Ast.meaning (m : Mode) : Ast → Except Fault (Regex × Mode)
  | .empty => .ok (.empty, m)
  | .flags changes => .ok (.empty, changes.foldl Mode.change m)
  | .literal l => do return (← literalMeaning m l, m)
  | .dot span => do return (← dotMeaning m span, m)
  | .assertion a => .ok (.look (a.meaning m), m)
  | .perl kind negated span => do return (.set (← perlSet m kind negated span), m)
  | .property q negated span => do return (.set (← propertySet m q negated span), m)
  | .bracketed span negated inner => do
    return (.set (← ClassItem.meaning m (.bracketed span negated inner)), m)
  | .repetition _ least most inner => do
    let (r, m) ← inner.meaning m
    return (.rep r least (most.map (· - least)), m)
  | .group _ changes inner => do
    let (r, _) ← inner.meaning (changes.foldl Mode.change m)
    return (r, m)
  | .concat _ parts => Ast.concatMeaning m parts
  | .alternation _ branches => Ast.branchesMeaning m branches

def Ast.concatMeaning (m : Mode) : List Ast → Except Fault (Regex × Mode)
  | [] => .ok (.empty, m)
  | a :: as => do
    let (r, m) ← a.meaning m
    let (s, m) ← Ast.concatMeaning m as
    return (.cat r s, m)

def Ast.branchesMeaning (m : Mode) : List Ast → Except Fault (Regex × Mode)
  | [] => .ok (.set .empty, m)
  | a :: as => do
    let (r, m) ← a.meaning m
    let (s, m) ← Ast.branchesMeaning m as
    return (.alt r s, m)

end

end Bindle.Pattern
