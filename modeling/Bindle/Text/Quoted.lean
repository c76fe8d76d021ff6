/-!
# Texts in double quotes

`quoted s` is the text `s` as JSON writes it: quotes, backslashes and control characters are
escaped, everything else stands for itself.
-/

namespace Bindle.Text

def hexDigit (n : Nat) : Char :=
  if n < 10 then Char.ofNat (48 + n) else Char.ofNat (87 + n)

/-- `\u` and four digits -/
def unicodeEscape (n : Nat) : List Char :=
  ['\\', 'u', hexDigit (n / 4096 % 16), hexDigit (n / 256 % 16), hexDigit (n / 16 % 16),
   hexDigit (n % 16)]

def quotedChar (c : Char) : List Char :=
  if c = '\x22' then ['\\', '\x22']
  else if c = '\\' then ['\\', '\\']
  else if c = '\n' then ['\\', 'n']
  else if c = '\r' then ['\\', 'r']
  else if c = '\t' then ['\\', 't']
  else if c.toNat = 8 then ['\\', 'b']
  else if c.toNat = 12 then ['\\', 'f']
  else if c.toNat < 32 then unicodeEscape c.toNat
  else [c]

def quotedChars (cs : List Char) : List Char :=
  '\x22' :: cs.flatMap quotedChar ++ ['\x22']

def quoted (s : String) : String := String.ofList (quotedChars s.toList)

end Bindle.Text
