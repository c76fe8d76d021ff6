/-!
# Sets of characters

A `CharSet` is a list of ranges of code points, in ascending order and apart from one another.

* `ofRanges`   puts ranges into that form;
* `union`, `inter`, `diff`, `symDiff`, `complement`   the operations of classes in brackets;
* `contains`   membership.
-/

namespace Bindle.Pattern

structure CharSet where
  ranges : List (Nat × Nat)
  deriving DecidableEq, Inhabited

namespace CharSet

def empty : CharSet := ⟨[]⟩

/-- joins ranges that touch, of a list ordered by first elements -/
def joinRanges : List (Nat × Nat) → List (Nat × Nat)
  | [] => []
  | (a, b) :: rest =>
    match joinRanges rest with
    | [] => [(a, b)]
    | (c, d) :: more => if c ≤ b + 1 then (a, max b d) :: more else (a, b) :: (c, d) :: more

def ofRanges (ranges : List (Nat × Nat)) : CharSet :=
  ⟨joinRanges (ranges.mergeSort (fun x y => x.1 ≤ y.1))⟩

def ofChar (c : Char) : CharSet := ⟨[(c.toNat, c.toNat)]⟩

def contains (s : CharSet) (n : Nat) : Bool := s.ranges.any (fun r => r.1 ≤ n && n ≤ r.2)

def union (s t : CharSet) : CharSet := ofRanges (s.ranges ++ t.ranges)

/-- the ranges between those of a list, from `start` up to `last` -/
def gaps (start last : Nat) : List (Nat × Nat) → List (Nat × Nat)
  | [] => if start ≤ last then [(start, last)] else []
  | (a, b) :: rest => if start < a then (start, a - 1) :: gaps (b + 1) last rest
    else gaps (b + 1) last rest

/-- what is missing up to the last element -/
def complement (s : CharSet) (last : Nat) : CharSet := ⟨gaps 0 last s.ranges⟩

def lastScalar : Nat := 0x10FFFF

def inter (s t : CharSet) : CharSet :=
  (union (s.complement lastScalar) (t.complement lastScalar)).complement lastScalar

def diff (s t : CharSet) : CharSet := inter s (t.complement lastScalar)

def symDiff (s t : CharSet) : CharSet := diff (union s t) (inter s t)

end CharSet

end Bindle.Pattern
