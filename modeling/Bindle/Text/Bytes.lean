/-!
# Texts and their bytes

* `bytesOf s`    the UTF-8 bytes of a text;
* `readable bs`  the text that bytes are read as, also if they are not those of a text: U+FFFD stands
                 for each longest beginning of a character that does not go on, and for each byte that
                 begins none.
-/

namespace Bindle.Text

/-- the UTF-8 bytes of a text -/
def bytesOf (s : String) : List UInt8 := s.toUTF8.data.toList

def replacementCharacter : Char := '\uFFFD'

/-- a character that has begun: its value so far, how many bytes are owed, and the bounds of the next -/
structure Begun where
  value : Nat
  owed : Nat
  least : Nat
  most : Nat
  deriving DecidableEq

/-- the characters of more than one byte, by their first one; the bounds leave out longer spellings of
characters, surrogates, and what lies above the last character -/
def begun? (b : Nat) : Option Begun :=
  if 0xc2 ≤ b ∧ b ≤ 0xdf then some ⟨b - 0xc0, 1, 0x80, 0xbf⟩
  else if b = 0xe0 then some ⟨0, 2, 0xa0, 0xbf⟩
  else if b = 0xed then some ⟨0xd, 2, 0x80, 0x9f⟩
  else if 0xe1 ≤ b ∧ b ≤ 0xef then some ⟨b - 0xe0, 2, 0x80, 0xbf⟩
  else if b = 0xf0 then some ⟨0, 3, 0x90, 0xbf⟩
  else if 0xf1 ≤ b ∧ b ≤ 0xf3 then some ⟨b - 0xf0, 3, 0x80, 0xbf⟩
  else if b = 0xf4 then some ⟨4, 3, 0x80, 0x8f⟩
  else none

/-- what a byte between two characters completes and begins -/
def readFirst (b : UInt8) : List Char × Option Begun :=
  if b.toNat < 0x80 then ([Char.ofNat b.toNat], none)
  else match begun? b.toNat with
    | some s => ([], some s)
    | none => ([replacementCharacter], none)

/-- a byte that cannot go on with a character is read again behind it -/
def readNext (s : Begun) (b : UInt8) : List Char × Option Begun :=
  if s.least ≤ b.toNat ∧ b.toNat ≤ s.most then
    let value := s.value * 0x40 + b.toNat % 0x40
    if s.owed = 1 then ([Char.ofNat value], none) else ([], some ⟨value, s.owed - 1, 0x80, 0xbf⟩)
  else (replacementCharacter :: (readFirst b).1, (readFirst b).2)

def readBytes : Option Begun → List UInt8 → List Char
  | none, [] => []
  | some _, [] => [replacementCharacter]
  | none, b :: bs => (readFirst b).1 ++ readBytes (readFirst b).2 bs
  | some s, b :: bs => (readNext s b).1 ++ readBytes (readNext s b).2 bs

def readable (bs : List UInt8) : String := String.ofList (readBytes none bs)

end Bindle.Text
