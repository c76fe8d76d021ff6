import Bindle.Text.Quoted
import Bindle.Text.Utf8
import Bindle.Script.Lexer

/-!
# String literals

* `Literal.quote s`        a literal in double quotes whose value is `s`;
* `Literal.decode token`   the value of a literal, quotes included in `token`.

Every escape is decoded by itself: two `\u` escapes never make one character, and a number that is
no character gives U+FFFD.  Octal escapes other than `\0` stand for their digits.
-/

namespace Bindle.Script.Literal

open Bindle.Text

/-- the two line ends that JSON leaves as they are -/
def quoteChar (c : Char) : List Char :=
  if c.toNat = 0x2028 ∨ c.toNat = 0x2029 then unicodeEscape c.toNat else quotedChar c

def quoteChars (cs : List Char) : List Char :=
  '\x22' :: cs.flatMap quoteChar ++ ['\x22']

def quote (s : String) : String := String.ofList (quoteChars s.toList)

def replacement : Char := '\ufffd'

/-- the character with a hexadecimal number; a plus sign before the digits is allowed -/
def hexChar (digits : List Char) : Char :=
  let body := match digits with
    | '+' :: rest => rest
    | _ => digits
  let n := hexNumber body
  if body.isEmpty || !body.all isHexDigit then replacement
  else if n.isValidChar then Char.ofNat n
  else replacement

/-- what single letters stand for after a backslash -/
def controlChar? (c : Char) : Option Char :=
  match c with
  | 'n' => some '\n'
  | 't' => some '\t'
  | 'r' => some '\r'
  | 'b' => some '\x08'
  | 'f' => some '\x0c'
  | 'v' => some '\x0b'
  | _ => none

def isDecimal (c : Char) : Bool := '0' ≤ c && c ≤ '9'

/-- an escape after its backslash: what it stands for, and what is left -/
def decodeEscape (c : Char) (cs : List Char) : List Char × List Char :=
  match controlChar? c with
  | some d => ([d], cs)
  | none =>
    if c = '0' && !(cs.head?.any isDecimal) then (['\x00'], cs)
    else if c = 'x' then ([hexChar (cs.take 2)], cs.drop 2)
    else if c = 'u' then
      match cs with
      | '\x7b' :: rest =>
        let digits := rest.takeWhile (· ≠ '\x7d')
        ([hexChar digits], rest.drop (digits.length + 1))
      | _ => ([hexChar (cs.take 4)], cs.drop 4)
    else if c = '\n' || c.toNat = 0x2028 || c.toNat = 0x2029 then ([], cs)
    else if c = '\r' then ([], if cs.head? = some '\n' then cs.tail else cs)
    else ([c], cs)

theorem decodeEscape_length (c : Char) (cs : List Char) :
    (decodeEscape c cs).2.length ≤ cs.length := by
  unfold decodeEscape
  repeat' split
  all_goals simp
  all_goals omega

/-- the value of the text between the quotes -/
def decodeChars : List Char → List Char
  | [] => []
  | c :: cs =>
    if c = '\\' then
      match cs with
      | [] => []
      | e :: rest =>
        let found := decodeEscape e rest
        found.1 ++ decodeChars found.2
    else c :: decodeChars cs
termination_by cs => cs.length
decreasing_by
  · have := decodeEscape_length e rest
    simp only [List.length_cons]
    omega
  · simp

/-- a token whose ends are not between characters has no value -/
def decode (token : List Char) : String :=
  String.ofList (decodeChars ((slice? token 1 (byteLength token - 1)).getD []))

end Bindle.Script.Literal
