/-!
# Binary floating point numbers

`Binary64` holds the finite numbers of the 64-bit format that are not negative, as a significand
and an exponent of two.

* `nearest num den`   the number closest to a quotient, an even significand winning a tie; none if
                      the quotient is too large for the format;
* `ofDecimal`         the number closest to a decimal;
* `mul`, `div`        product and quotient, rounded to nearest.

Arithmetic is exact on natural numbers and rounds once, at the end.
-/

namespace Bindle

/-- the number `significand · 2 ^ exponent` -/
structure Binary64 where
  significand : Nat
  exponent : Int
  deriving DecidableEq, Inhabited

namespace Binary64

def leastExponent : Int := -1074

def greatestExponent : Int := 971

/-- the least significand with all 53 bits -/
def smallestNormal : Nat := 4503599627370496

def zero : Binary64 := ⟨0, leastExponent⟩

/-- `num / den` multiplied by `base ^ e`, as a quotient -/
def scale (base : Nat) (e : Int) (num den : Nat) : Nat × Nat :=
  if e ≥ 0 then (num * Nat.pow base e.toNat, den)
  else (num, den * Nat.pow base (-e).toNat)

/-- the integer closest to a quotient; of two the even one -/
def roundDiv (num den : Nat) : Nat :=
  let q := num / den
  let r := num % den
  if 2 * r > den ∨ (2 * r = den ∧ q % 2 = 1) then q + 1 else q

def nearest (num den : Nat) : Option Binary64 :=
  if num = 0 then some zero
  else
    let size : Int := (num.log2 : Int) - den.log2
    let low := max (size - 53) leastExponent
    let (n, d) := scale 2 (-low) num den
    let e := if n / d ≥ 2 * smallestNormal then low + 1 else low
    let (n, d) := scale 2 (-e) num den
    let m := roundDiv n d
    let found : Binary64 := if m ≥ 2 * smallestNormal then ⟨smallestNormal, e + 1⟩ else ⟨m, e⟩
    if found.exponent > greatestExponent then none else some found

/-- the value as a quotient -/
def toQuotient (x : Binary64) : Nat × Nat := scale 2 x.exponent x.significand 1

def ofNat? (n : Nat) : Option Binary64 := nearest n 1

/-- `digits · 10 ^ e`, without working out powers that are out of reach -/
def ofDecimal (digits : Nat) (e : Int) : Option Binary64 :=
  if digits = 0 then some zero
  else
    let size : Int := (Nat.toDigits 10 digits).length + e
    if size > 310 then none
    else if size < -330 then some zero
    else
      let (n, d) := scale 10 e digits 1
      nearest n d

def mul (x y : Binary64) : Option Binary64 :=
  let (a, b) := x.toQuotient
  let (c, d) := y.toQuotient
  nearest (a * c) (b * d)

/-- the divisor is not zero -/
def div (x y : Binary64) : Option Binary64 :=
  let (a, b) := x.toQuotient
  let (c, d) := y.toQuotient
  nearest (a * d) (b * c)

end Binary64

end Bindle
