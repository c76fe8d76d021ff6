/-!
# Digits

Digits in base 8, 10 and 16, and the numbers that hexadecimal digits stand for.
-/

namespace Bindle.Text

def hexValue? (c : Char) : Option Nat :=
  if '0' ≤ c ∧ c ≤ '9' then some (c.toNat - 48)
  else if 'a' ≤ c ∧ c ≤ 'f' then some (c.toNat - 87)
  else if 'A' ≤ c ∧ c ≤ 'F' then some (c.toNat - 55)
  else none

def isHexDigit (c : Char) : Bool := (hexValue? c).isSome

def isOctalDigit (c : Char) : Bool := '0' ≤ c && c ≤ '7'

def isDecimalDigit (c : Char) : Bool := '0' ≤ c && c ≤ '9'

/-- the number that digits stand for, in a base up to 16 -/
def digitsNumber (base : Nat) (digits : List Char) : Nat :=
  digits.foldl (fun n c => n * base + (hexValue? c).getD 0) 0

def hexNumber (digits : List Char) : Nat := digitsNumber 16 digits

end Bindle.Text
