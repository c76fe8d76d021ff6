import Bindle.Pattern.CharSet

/-!
# Matching

A regular expression is run on all places of a text at once.  A set of places is a number whose
binary digits are the places; place `i` stands before the `i`-th character, so reading one character
shifts the digits by one.

* `Regex.run t r places`   the places that `r` leads to from some place of a set;
* `Regex.isFoundIn r t`    some part of the text is matched.
-/

namespace Bindle.Pattern

/-- conditions on a place -/
inductive Look where
  | start
  | stop
  | lineStart (crlf : Bool)
  | lineEnd (crlf : Bool)
  | wordBoundary (ascii : Bool)
  | noWordBoundary (ascii : Bool)
  | wordStart (ascii : Bool)
  | wordEnd (ascii : Bool)
  | wordStartHalf (ascii : Bool)
  | wordEndHalf (ascii : Bool)
  deriving DecidableEq, Inhabited

inductive Regex where
  | empty
  | set (s : CharSet)
  | look (k : Look)
  | cat (a b : Regex)
  | alt (a b : Regex)
  /-- at least `least` times, and at most `more` times more if there is a bound -/
  | rep (r : Regex) (least : Nat) (more : Option Nat)
  deriving Inhabited

/-- a text with the two classes of word characters -/
structure Subject where
  chars : Array Char
  word : CharSet
  asciiWord : CharSet

namespace Subject

def isWordAt (t : Subject) (ascii : Bool) (i : Nat) : Bool :=
  match t.chars[i]? with
  | some c => (if ascii then t.asciiWord else t.word).contains c.toNat
  | none => false

def isWordBefore (t : Subject) (ascii : Bool) (i : Nat) : Bool :=
  match i with
  | 0 => false
  | n + 1 => t.isWordAt ascii n

def before? (t : Subject) (i : Nat) : Option Char :=
  match i with
  | 0 => none
  | n + 1 => t.chars[n]?

/-- a condition holds at a place -/
def holds (t : Subject) (k : Look) (i : Nat) : Bool :=
  let before := t.before? i
  let after := t.chars[i]?
  match k with
  | .start => i == 0
  | .stop => i == t.chars.size
  | .lineStart false => i == 0 || before == some '\n'
  | .lineEnd false => i == t.chars.size || after == some '\n'
  | .lineStart true =>
    i == 0 || before == some '\n' || (before == some '\r' && after != some '\n')
  | .lineEnd true =>
    i == t.chars.size || after == some '\r' || (after == some '\n' && before != some '\r')
  | .wordBoundary a => t.isWordBefore a i != t.isWordAt a i
  | .noWordBoundary a => t.isWordBefore a i == t.isWordAt a i
  | .wordStart a => !t.isWordBefore a i && t.isWordAt a i
  | .wordEnd a => t.isWordBefore a i && !t.isWordAt a i
  | .wordStartHalf a => !t.isWordBefore a i
  | .wordEndHalf a => !t.isWordAt a i

/-- the places of a text where a test succeeds -/
def places (t : Subject) (p : Nat → Bool) : Nat :=
  (List.range (t.chars.size + 1)).foldl (fun m i => if p i then m ||| (1 <<< i) else m) 0

/-- the places behind which a character of the set stands -/
def placesBefore (t : Subject) (s : CharSet) : Nat :=
  t.places (fun i => t.chars[i]?.any (fun c => s.contains c.toNat))

end Subject

/-- applies a function a number of times, or until it changes nothing -/
def settleN (f : Nat → Nat) : Nat → Nat → Nat
  | 0, places => places
  | n + 1, places =>
    let next := f places
    if next = places then places else settleN f n next

namespace Regex

def run (t : Subject) : Regex → Nat → Nat
  | empty, places => places
  | set s, places => (places &&& t.placesBefore s) <<< 1
  | look k, places => places &&& t.places (t.holds k)
  | cat a b, places => b.run t (a.run t places)
  | alt a b, places => a.run t places ||| b.run t places
  | rep r least more, places =>
    let first := settleN (r.run t) least places
    let again (p : Nat) : Nat := p ||| r.run t p
    match more with
    | some n => settleN again n first
    | none => settleN again (t.chars.size + 1) first

/-- some part of the text is matched -/
def isFoundIn (r : Regex) (t : Subject) : Bool := r.run t (t.places (fun _ => true)) != 0

/-! ## size -/

/-- how many bytes the encoding of a character has -/
def encodedSize (n : Nat) : Nat := if n < 0x80 then 1 else if n < 0x800 then 2 else
  if n < 0x10000 then 3 else 4

/-- the size of the automaton of an expression, in states -/
def size : Regex → Nat
  | empty => 1
  | set s =>
    match s.ranges with
    | [(a, b)] => if a = b then encodedSize a else encodedSize b + 1
    | ranges => (ranges.map (fun r => encodedSize r.2)).sum / 2 + 2
  | look _ => 1
  | cat a b => a.size + b.size
  | alt a b => a.size + b.size + 2
  | rep r least more =>
    match more with
    | some n => r.size * (least + n) + n
    | none => r.size * (max least 1) + 2

end Regex

end Bindle.Pattern
