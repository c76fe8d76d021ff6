import Bindle.Number.Binary64

/-!
# Numbers as text

`Binary64.shortest` finds the fewest digits that are read back as the same number, and of those the
digits closest to it; which of two equally close ones it takes is a parameter.  `Decimal.text` never
writes an exponent, `Decimal.scientific` does for very large and very small numbers.

The numbers that are read back as `m · 2 ^ e` lie between the midpoints to its neighbours.  For one
digit, two digits and so on, the two neighbours of the number on the grid of decimals with so many
digits are tried; seventeen digits are always enough.
-/

namespace Bindle

namespace Binary64

/-- all quantities over one denominator, so that comparisons are of natural numbers -/
structure Interval where
  low : Nat
  value : Nat
  high : Nat
  den : Nat
  closed : Bool

/-- the decimals that are read back as `x` -/
def interval (x : Binary64) : Interval :=
  let m := x.significand
  let atPower := m = smallestNormal && x.exponent > leastExponent
  let (unit, den) := scale 2 (x.exponent - 2) 1 1
  { low := (4 * m - if atPower then 1 else 2) * unit, value := 4 * m * unit,
    high := (4 * m + 2) * unit, den := den, closed := m % 2 = 0 }

def Interval.contains (i : Interval) (num den : Nat) : Bool :=
  let x := num * i.den
  if i.closed then i.low * den ≤ x && x ≤ i.high * den
  else i.low * den < x && x < i.high * den

/-- a decimal `digits · 10 ^ exponent` -/
structure Decimal where
  digits : Nat
  exponent : Int
  deriving DecidableEq, Inhabited

/-- which of two equally close decimals is taken -/
inductive Tie where
  | up
  | even
  deriving DecidableEq, Inhabited

/-- the closest decimal of the interval on the grid of multiples of `10 ^ e` -/
def Interval.onGrid? (tie : Tie) (i : Interval) (e : Int) : Option Decimal :=
  let (num, den) := scale 10 (-e) i.value i.den
  let below := num / den
  let above := below + 1
  let inside (k : Nat) : Bool :=
    let (n, d) := scale 10 e k 1
    i.contains n d
  let upper : Bool := 2 * (num % den) > den ||
    (2 * (num % den) == den && (tie == .up || below % 2 == 1))
  match inside below && below != 0, inside above with
  | true, true => some ⟨if upper then above else below, e⟩
  | true, false => some ⟨below, e⟩
  | false, true => some ⟨above, e⟩
  | false, false => none

/-- the place of the first digit of a quotient that is not zero: `10 ^ k ≤ num / den` -/
def leadingPlace (num den : Nat) : Int :=
  if num ≥ den then ((Nat.toDigits 10 (num / den)).length : Int) - 1
  else
    let k := (Nat.toDigits 10 (den / num)).length
    if num * Nat.pow 10 (k - 1) ≥ den then 1 - (k : Int) else -(k : Int)

def shortestFrom (tie : Tie) (i : Interval) (place : Int) : Nat → Nat → Decimal
  | 0, _ => ⟨0, 0⟩
  | fuel + 1, digits =>
    match i.onGrid? tie (place + 1 - digits) with
    | some d => d
    | none => shortestFrom tie i place fuel (digits + 1)

def shortest (tie : Tie) (x : Binary64) : Decimal :=
  if x.significand = 0 then ⟨0, 0⟩
  else
    let i := x.interval
    shortestFrom tie i (leadingPlace i.value i.den) 17 1

/-- positional notation; a number without a fraction has no point -/
def Decimal.text (d : Decimal) : String :=
  let digits := Nat.toDigits 10 d.digits
  if d.exponent ≥ 0 then
    if d.digits = 0 then "0" else String.ofList (digits ++ List.replicate d.exponent.toNat '0')
  else
    let places := (-d.exponent).toNat
    let padded := List.replicate (places + 1 - digits.length) '0' ++ digits
    String.ofList (padded.take (padded.length - places) ++ '.' :: padded.drop (padded.length - places))

/-- a point always, and an exponent below `10 ^ -5` and from `10 ^ 16` on -/
def Decimal.scientific (d : Decimal) : String :=
  let digits := Nat.toDigits 10 d.digits
  let point : Int := digits.length + d.exponent
  if d.digits = 0 then "0.0"
  else if 0 ≤ d.exponent ∧ point ≤ 16 then d.text ++ ".0"
  else if -5 < point ∧ point ≤ 16 then d.text
  else
    let fraction := if digits.length = 1 then [] else '.' :: digits.drop 1
    String.ofList (digits.take 1 ++ fraction ++ ['e']) ++ toString (point - 1)

def text (x : Binary64) : String := (x.shortest .up).text

def scientific (x : Binary64) : String := (x.shortest .even).scientific

end Binary64

end Bindle
