import Bindle.Script.Lexer

/-!
# The value of a string by the language

`units body` is the value that JavaScript gives to the text between the quotes of a string, as
UTF-16 code units.  `unitsText` writes code units as characters; a surrogate without its other half
is written with its number.

* `characterUnits`   one character;
* `escapeUnits`      an escape sequence after its backslash, and the text behind it;
* `units`            the whole text.
-/

namespace Bindle.Script.StringValue

open Bindle.Text

def unitsOfNumber (n : Nat) : List Nat :=
  if n < 0x10000 then [n]
  else [0xD800 + (n - 0x10000) / 0x400, 0xDC00 + (n - 0x10000) % 0x400]

def characterUnits (c : Char) : List Nat := unitsOfNumber c.toNat

def octalNumber (digits : List Char) : Nat :=
  digits.foldl (fun n c => n * 8 + (c.toNat - 48)) 0

/-- the digits of an octal escape, no more than give a number below 256 -/
def octalDigits (d : Char) (rest : List Char) : List Char :=
  d :: (rest.take (if d ≤ '3' then 2 else 1)).takeWhile isOctalDigit

/-- an escape sequence that begins with `c`: what it stands for, and what is left -/
def escapeUnits (c : Char) (rest : List Char) : List Nat × List Char :=
  match c with
  | 'n' => ([10], rest)
  | 't' => ([9], rest)
  | 'r' => ([13], rest)
  | 'b' => ([8], rest)
  | 'f' => ([12], rest)
  | 'v' => ([11], rest)
  | 'x' => ([hexNumber (rest.take 2)], rest.drop 2)
  | 'u' =>
    match rest with
    | '\x7b' :: body =>
      let digits := body.takeWhile isHexDigit
      (unitsOfNumber (hexNumber digits), body.drop (digits.length + 1))
    | _ => ([hexNumber (rest.take 4)], rest.drop 4)
  | '\r' => ([], if rest.head? = some '\n' then rest.tail else rest)
  | _ =>
    if isOctalDigit c then
      let digits := octalDigits c rest
      ([octalNumber digits], rest.drop (digits.length - 1))
    else if isLineEnd c then ([], rest)
    else (characterUnits c, rest)

theorem escapeUnits_length (c : Char) (rest : List Char) :
    (escapeUnits c rest).2.length ≤ rest.length := by
  unfold escapeUnits
  repeat' split
  all_goals simp
  all_goals omega

def units : List Char → List Nat
  | [] => []
  | c :: cs =>
    if c = '\\' then
      match cs with
      | [] => []
      | e :: rest =>
        let found := escapeUnits e rest
        found.1 ++ units found.2
    else characterUnits c ++ units cs
termination_by cs => cs.length
decreasing_by
  · have := escapeUnits_length e rest
    simp only [List.length_cons]
    omega
  · simp

def isLead (n : Nat) : Bool := 0xD800 ≤ n && n < 0xDC00

def isTrail (n : Nat) : Bool := 0xDC00 ≤ n && n < 0xE000

/-- a surrogate without its other half -/
def loneText (n : Nat) : List Char :=
  '\\' :: 'u' :: '\x7b' :: (Nat.toDigits 16 n).map Char.toUpper ++ ['\x7d']

def unitsText : List Nat → List Char
  | [] => []
  | [n] => if isLead n || isTrail n then loneText n else [Char.ofNat n]
  | n :: m :: ns =>
    if isLead n && isTrail m then
      Char.ofNat (0x10000 + (n - 0xD800) * 0x400 + (m - 0xDC00)) :: unitsText ns
    else
      (if isLead n || isTrail n then loneText n else [Char.ofNat n]) ++ unitsText (m :: ns)

end Bindle.Script.StringValue
