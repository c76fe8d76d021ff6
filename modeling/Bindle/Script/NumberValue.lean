import Bindle.Number.Shortest
import Bindle.Script.Lexer

/-!
# The value of a number by the language

`numberText raw` is the value of a number as written, in decimal.  Separators do not count; a
leading zero before octal digits only makes the number octal.
-/

namespace Bindle.Script.NumberValue

open Bindle.Text

/-- the base that the first two characters choose, with the digits -/
def radix? (cs : List Char) : Option (Nat × List Char) :=
  match cs with
  | '0' :: x :: rest =>
    if x = 'x' ∨ x = 'X' then some (16, rest)
    else if x = 'o' ∨ x = 'O' then some (8, rest)
    else if x = 'b' ∨ x = 'B' then some (2, rest)
    else if (x :: rest).all isOctalDigit then some (8, x :: rest)
    else none
  | _ => none

/-- the exponent behind an `e`, zero without one -/
def exponentValue (cs : List Char) : Int :=
  match cs with
  | [] => 0
  | _ :: '-' :: rest => -(digitsNumber 10 rest : Int)
  | _ :: '+' :: rest => digitsNumber 10 rest
  | _ :: rest => digitsNumber 10 rest

/-- none if the number is beyond all finite ones -/
def value? (raw : List Char) : Option Binary64 :=
  let cs := raw.filter (· ≠ '_')
  match radix? cs with
  | some (base, digits) => Binary64.ofNat? (digitsNumber base digits)
  | none =>
    let whole := cs.takeWhile isDecimalDigit
    let rest := cs.dropWhile isDecimalDigit
    let fraction := if rest.head? = some '.' then rest.tail.takeWhile isDecimalDigit else []
    let rest := if rest.head? = some '.' then rest.tail.dropWhile isDecimalDigit else rest
    Binary64.ofDecimal (digitsNumber 10 (whole ++ fraction))
      (exponentValue rest - fraction.length)

def numberText (raw : List Char) : String :=
  match value? raw with
  | some x => x.text
  | none => "inf"

/-- the value of a big integer, whose last character is its `n` -/
def bigintText (raw : List Char) : String :=
  let cs := raw.dropLast.filter (· ≠ '_')
  let n := match radix? cs with
    | some (base, digits) => digitsNumber base digits
    | none => digitsNumber 10 cs
  String.ofList (Nat.toDigits 10 n)

end Bindle.Script.NumberValue
