import Bindle.Text.Utf8

/-!
# Places in a source text

A `Position` has a line and a column, counted from 1 in characters, and a byte offset counted
from 0.  Only a line feed ends a line.

* `Position.advance p c`      the place after the character `c`;
* `Position.ofOffset cs n`    the last place between two characters that is not beyond byte `n`;
* `Position.label`            `line:column`, as error messages show it.
-/

namespace Bindle.Text

structure Position where
  line : Nat
  column : Nat
  offset : Nat
  deriving DecidableEq, Repr, Inhabited

namespace Position

/-- the place before the first character -/
def start : Position := ⟨1, 1, 0⟩

/-- no place at all: what is shown for a range that is not one of the text -/
def none : Position := ⟨0, 0, 0⟩

def advance (p : Position) (c : Char) : Position :=
  if c = '\n' then ⟨p.line + 1, 1, p.offset + c.utf8Size⟩
  else ⟨p.line, p.column + 1, p.offset + c.utf8Size⟩

@[simp] theorem advance_offset (p : Position) (c : Char) :
    (p.advance c).offset = p.offset + c.utf8Size := by
  unfold advance; split <;> rfl

/-- the place after a whole text that begins at `p` -/
def advanceAll (p : Position) (cs : List Char) : Position := cs.foldl advance p

/-- goes on from `p` while the next character ends at byte `n` at the latest -/
def seek (p : Position) (n : Nat) : List Char → Position
  | [] => p
  | c :: cs => if p.offset + c.utf8Size > n then p else seek (p.advance c) n cs

def ofOffset (source : List Char) (n : Nat) : Position := seek start n source

def label (p : Position) : String := toString p.line ++ ":" ++ toString p.column

end Position

end Bindle.Text
