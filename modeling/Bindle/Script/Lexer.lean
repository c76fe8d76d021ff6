import Bindle.Script.Token
import Bindle.Text.Blank
import Bindle.Text.Digits
import Bindle.Text.Shown
import Bindle.Text.Identifier

/-!
# Reading tokens

A `Cursor` is the text still to be read and its byte offset.  `Token.read` skips white space and
comments and reads one token; what it notices on the way are `Remark`s, each with the condition
under which it counts.

* `skipBlanks`     white space, comments and the comment forms `<!--` and `-->`;
* `readWord`, `readNumber`, `readString`, `readTemplate`, `readRegex`   one token each;
* `Token.read`     chooses between them by the next character.
-/

namespace Bindle.Script

open Bindle.Text

structure Cursor where
  rest : List Char
  offset : Nat
  deriving Inhabited

namespace Cursor

def next? (c : Cursor) : Option Char := c.rest.head?

def advance (c : Cursor) : Cursor :=
  match c.rest with
  | [] => c
  | x :: xs => ⟨xs, c.offset + x.utf8Size⟩

def skip : Nat → Cursor → Cursor
  | 0, c => c
  | n + 1, c => skip n c.advance

/-- takes the characters of a class from the front -/
def takeWhile (c : Cursor) (p : Char → Bool) : List Char × Cursor :=
  go [] c.offset c.rest
where
  go (seen : List Char) (offset : Nat) : List Char → List Char × Cursor
    | [] => (seen.reverse, ⟨[], offset⟩)
    | x :: xs => if p x then go (x :: seen) (offset + x.utf8Size) xs
      else (seen.reverse, ⟨x :: xs, offset⟩)

/-- the text between two cursors over one source -/
def textUntil (c d : Cursor) : String :=
  String.ofList (c.rest.take (c.rest.length - d.rest.length))

end Cursor

/-- where a remark counts -/
inductive Condition where
  | always | strict | inModule
  deriving DecidableEq, Inhabited

structure Remark where
  condition : Condition
  fault : Fault
  deriving Inhabited

/-! ## white space and comments -/

inductive BlankMode where
  | plain
  /-- in a comment that the end of the line ends -/
  | line
  /-- before the second character of the opening mark of a block comment -/
  | opening
  | block
  /-- before the second character of the closing mark -/
  | closing
  deriving DecidableEq

structure Blanks where
  after : Cursor
  newline : Bool
  /-- where the first comment of the form `<!--` or `-->` begins -/
  legacyStart : Option Nat
  remarks : List Remark
  deriving Inhabited

/-- `newline` tells whether a line end came before, `legacy` where a legacy comment began -/
def skipBlanks (mode : BlankMode) (newline : Bool) (legacy : Option Nat) (remarks : List Remark)
    (offset : Nat) : List Char → Blanks
  | [] =>
    let unclosed := if mode = .plain ∨ mode = .line then []
      else [⟨.always, ⟨.unterminatedComment, offset⟩⟩]
    ⟨⟨[], offset⟩, newline, legacy, remarks ++ unclosed⟩
  | c :: cs =>
    let next := offset + c.utf8Size
    match mode with
    | .line =>
      if isLineEnd c then skipBlanks .plain true legacy remarks next cs
      else skipBlanks .line newline legacy remarks next cs
    | .opening => skipBlanks .block newline legacy remarks next cs
    | .closing => skipBlanks .plain newline legacy remarks next cs
    | .block =>
      if c = '*' && cs.head? = some '/' then skipBlanks .closing newline legacy remarks next cs
      else skipBlanks .block (newline || isLineEnd c) legacy remarks next cs
    | .plain =>
      if isLineEnd c then skipBlanks .plain true legacy remarks next cs
      else if isBlank c then skipBlanks .plain newline legacy remarks next cs
      else if c = '/' && cs.head? = some '/' then skipBlanks .line newline legacy remarks next cs
      else if c = '/' && cs.head? = some '*' then
        skipBlanks .opening newline legacy remarks next cs
      else if (c = '<' && ['!', '-', '-'].isPrefixOf cs) ||
          (newline && c = '-' && ['-', '>'].isPrefixOf cs) then
        skipBlanks .line newline (legacy.or (some offset))
          (remarks ++ [⟨.inModule, ⟨.legacyComment, offset⟩⟩]) next cs
      else ⟨⟨c :: cs, offset⟩, newline, legacy, remarks⟩

/-! ## escapes -/

/-- the cursor after at most `limit` characters of a class, and those characters -/
def Cursor.takeUpTo (c : Cursor) (limit : Nat) (p : Char → Bool) : List Char × Cursor :=
  let taken := (c.rest.take limit).takeWhile p
  (taken, c.skip taken.length)

/-- what follows `\u`: the code point, or what is wrong with it; the cursor stands after `u` -/
def readCodePoint (c : Cursor) : Except Complaint Nat × Cursor :=
  if c.next? = some '\x7b' then
    let (digits, after) := c.advance.takeWhile isHexDigit
    let value := hexNumber digits
    if digits.isEmpty || value ≥ 4294967296 then
      (.error (.badEscape "1-6 hex characters"), after)
    else if value > 0x10FFFF then
      (.error (.badEscape "1-6 hex characters in the range 0 to 10FFFF."), after)
    else if after.next? = some '\x7d' then (.ok value, after.advance)
    else (.error .invalidUnicodeEscape, after)
  else
    let (digits, after) := c.takeUpTo 4 isHexDigit
    if digits.length = 4 then (.ok (hexNumber digits), after)
    else (.error (.badEscape "4 hex characters"), after)

structure Escape where
  complaint : Option Complaint := none
  octal : Bool := false
  after : Cursor

/-- an escape sequence of a string or a template; the cursor stands at the backslash -/
def readEscape (inTemplate : Bool) (c : Cursor) : Escape :=
  let body := c.advance
  match body.next? with
  | none => { complaint := some .invalidStringEscape, after := body }
  | some 'x' =>
    let (digits, after) := body.advance.takeUpTo 2 isHexDigit
    if digits.length = 2 then { after := after }
    else { complaint := some (.badEscape "2 hex characters"), after := after }
  | some 'u' =>
    match readCodePoint body.advance with
    | (.ok _, after) => { after := after }
    | (.error e, after) => { complaint := some e, after := after }
  | some '\r' =>
    let after := body.advance
    { after := if after.next? = some '\n' then after.advance else after }
  | some d =>
    if isOctalDigit d then
      let after := body.advance
      if d = '0' && !(after.next?.any isOctalDigit) then { after := after }
      else if inTemplate then { complaint := some .legacyOctal, after := after }
      else
        let limit := if d ≤ '3' then 2 else 1
        { octal := true, after := (after.takeUpTo limit isOctalDigit).2 }
    else { after := body.advance }

/-! ## words -/

structure Word where
  name : List Char
  escaped : Bool
  fault : Option Fault
  remarks : List Remark
  after : Cursor

/-- reads on in a word that began at `start`; `seen` holds its characters, the last one first -/
def readWordFrom (start : Nat) : Nat → List Char → Bool → List Remark → Cursor → Word
  | 0, seen, escaped, remarks, c => ⟨seen.reverse, escaped, none, remarks, c⟩
  | n + 1, seen, escaped, remarks, c =>
    match c.next? with
    | some '\\' =>
      let body := c.advance
      if body.next? = some 'u' then
        match readCodePoint body.advance with
        | (.error e, after) =>
          ⟨seen.reverse, true, some ⟨e, after.offset⟩, remarks, after⟩
        | (.ok value, after) =>
          let d := Char.ofNat value
          let valid := if seen.isEmpty then startsName d else continuesName d
          let remarks := if valid then remarks
            else remarks ++ [⟨.always, ⟨.invalidIdentifierCharacter, start⟩⟩]
          readWordFrom start n (d :: seen) true remarks after
      else ⟨seen.reverse, true, some ⟨.expectedUnicodeEscape, start⟩, remarks, body⟩
    | some d =>
      if continuesName d then readWordFrom start n (d :: seen) escaped remarks c.advance
      else ⟨seen.reverse, escaped, none, remarks, c⟩
    | none => ⟨seen.reverse, escaped, none, remarks, c⟩

def readWord (c : Cursor) : Word := readWordFrom c.offset (c.rest.length + 1) [] false [] c

/-! ## numbers -/

structure Digits where
  taken : List Char
  misplaced : Bool
  after : Cursor

/-- digits of a class with separators between them; `last` is the digit before -/
def readDigits (isDigit isForbidden : Char → Bool) (last : Option Char) (seen : List Char)
    (misplaced : Bool) (offset : Nat) : List Char → Digits
  | [] => ⟨seen.reverse, misplaced, ⟨[], offset⟩⟩
  | c :: cs =>
    if c = '_' then
      let allowed := cs.head?.any isDigit && !(last.any isForbidden) && !(cs.head?.any isForbidden)
      readDigits isDigit isForbidden last seen (misplaced || !allowed) (offset + 1) cs
    else if isDigit c then
      readDigits isDigit isForbidden (some c) (c :: seen) misplaced (offset + c.utf8Size) cs
    else ⟨seen.reverse, misplaced, ⟨c :: cs, offset⟩⟩

def hexForbidden (c : Char) : Bool := c == '.' || c == 'X' || c == '_' || c == 'x'

def decimalForbidden (c : Char) : Bool :=
  c == '.' || c == 'B' || c == 'E' || c == 'O' || c == '_' || c == 'b' || c == 'e' || c == 'o'

def Cursor.digits (c : Cursor) (isDigit isForbidden : Char → Bool) : Digits :=
  readDigits isDigit isForbidden none [] false c.offset c.rest

structure Scan where
  kind : Token.Kind
  remarks : List Remark := []
  after : Cursor

def Scan.invalid (complaint : Complaint) (offset : Nat) (after : Cursor)
    (remarks : List Remark) : Scan :=
  ⟨.invalid ⟨complaint, offset⟩, remarks, after⟩

/-- a number ends only where no identifier begins -/
def endNumber (start : Cursor) (after : Cursor) (remarks : List Remark) : Scan :=
  if after.next?.any (fun d => startsName d || d == '\\') then
    Scan.invalid .identifierAfterNumber after.offset after remarks
  else ⟨.number (start.textUntil after), remarks, after⟩

def separatorRemark (d : Digits) (offset : Nat) : List Remark :=
  if d.misplaced then [⟨.always, ⟨.misplacedSeparator, offset⟩⟩] else []

/-- a number in base 2, 8 or 16; the cursor stands at its `0` -/
def readRadix (c : Cursor) (isDigit isForbidden : Char → Bool) (kind : String) : Scan :=
  let body := c.skip 2
  let d := body.digits isDigit isForbidden
  let remarks := separatorRemark d body.offset
  if d.taken.isEmpty then Scan.invalid (.expectedDigit kind) d.after.offset d.after remarks
  else if d.after.next? = some 'n' then
    ⟨.bigint (c.textUntil d.after.advance), remarks, d.after.advance⟩
  else endNumber c d.after remarks

/-- the exponent of a decimal number, if there is one -/
def readExponent (start : Cursor) (c : Cursor) (remarks : List Remark) : Scan :=
  if c.next? = some 'e' ∨ c.next? = some 'E' then
    let sign := c.advance
    match sign.next? with
    | none => Scan.invalid .missingExponent sign.offset sign remarks
    | some d =>
      let body := if d = '+' ∨ d = '-' then sign.advance else sign
      let digits := body.digits isDecimalDigit decimalForbidden
      let remarks := remarks ++ separatorRemark digits body.offset
      if digits.taken.isEmpty then
        Scan.invalid (.expectedDigit "a decimal") digits.after.offset digits.after remarks
      else endNumber start digits.after remarks
  else endNumber start c remarks

/-- the fraction of a decimal number, if there is one -/
def readFraction (start : Cursor) (c : Cursor) (remarks : List Remark) : Scan :=
  if c.next? = some '.' then
    let digits := c.advance.digits isDecimalDigit decimalForbidden
    readExponent start digits.after (remarks ++ separatorRemark digits c.advance.offset)
  else readExponent start c remarks

def readDecimal (c : Cursor) : Scan :=
  let d := c.digits isDecimalDigit decimalForbidden
  let remarks := separatorRemark d c.offset
  let zero := c.next? = some '0'
  if (!zero || d.taken.length = 1) && d.after.next? = some 'n' then
    ⟨.bigint (c.textUntil d.after.advance), remarks, d.after.advance⟩
  else if zero && d.taken.length > 1 then
    if d.taken.all isOctalDigit then
      endNumber c d.after (remarks ++ [⟨.strict, ⟨.legacyOctal, c.offset⟩⟩])
    else readFraction c d.after (remarks ++ [⟨.strict, ⟨.legacyDecimal, c.offset⟩⟩])
  else readFraction c d.after remarks

def readNumber (c : Cursor) : Scan :=
  match c.rest with
  | '0' :: x :: _ =>
    if x = 'x' ∨ x = 'X' then readRadix c isHexDigit hexForbidden "a hexadecimal"
    else if x = 'o' ∨ x = 'O' then readRadix c isOctalDigit decimalForbidden "an octal"
    else if x = 'b' ∨ x = 'B' then
      readRadix c (fun d => d == '0' || d == '1') decimalForbidden "a binary"
    else readDecimal c
  | _ => readDecimal c

/-! ## strings, templates, regular expressions -/

/-- the rest of a string that began at `start`; the first argument bounds the steps -/
def readStringFrom (start : Cursor) (quote : Char) : Nat → List Remark → Cursor → Scan
  | 0, remarks, c => ⟨.string (start.textUntil c), remarks, c⟩
  | n + 1, remarks, c =>
    match c.next? with
    | some '\\' =>
      let e := readEscape false c
      match e.complaint with
      | some complaint => Scan.invalid complaint c.offset e.after remarks
      | none =>
        let remarks := if e.octal then remarks ++ [⟨.strict, ⟨.legacyOctal, c.offset⟩⟩]
          else remarks
        readStringFrom start quote n remarks e.after
    | some d =>
      if d = quote then ⟨.string (start.textUntil c.advance), remarks, c.advance⟩
      else if d = '\n' ∨ d = '\r' then
        ⟨.string (start.textUntil c), remarks ++ [⟨.always, ⟨.unterminatedString, start.offset⟩⟩],
          c⟩
      else readStringFrom start quote n remarks c.advance
    | none =>
      ⟨.string (start.textUntil c), remarks ++ [⟨.always, ⟨.unterminatedString, start.offset⟩⟩], c⟩

def readString (c : Cursor) (quote : Char) : Scan :=
  readStringFrom c quote (c.rest.length + 1) [] c.advance

/-- the rest of a template's text; `opening` tells whether a back quote began it -/
def readTemplateFrom (start : Nat) (opening : Bool) : Nat → Option Fault → Cursor → Scan
  | 0, _, c => Scan.invalid .unterminatedTemplate start c []
  | n + 1, bad, c =>
    match c.rest with
    | [] => Scan.invalid .unterminatedTemplate start c []
    | '\x60' :: _ => ⟨.template (if opening then .whole else .tail) bad, [], c.advance⟩
    | '$' :: '\x7b' :: _ => ⟨.template (if opening then .head else .middle) bad, [], c.skip 2⟩
    | '\\' :: _ =>
      let e := readEscape true c
      let bad := match e.complaint with
        | some complaint => some ⟨complaint, c.offset⟩
        | none => bad
      readTemplateFrom start opening n bad e.after
    | _ :: _ => readTemplateFrom start opening n bad c.advance

/-- the cursor stands at the back quote or at the brace that ends a substitution -/
def readTemplate (c : Cursor) (opening : Bool) : Scan :=
  readTemplateFrom c.offset opening (c.rest.length + 1) none c.advance

/-- the cursor after the slash that ends a regular expression -/
def regexEnd? (inClass escaped : Bool) (offset : Nat) : List Char → Option Cursor
  | [] => none
  | c :: cs =>
    if isLineEnd c then none
    else if escaped then regexEnd? inClass false (offset + c.utf8Size) cs
    else if c = '\\' then regexEnd? inClass true (offset + 1) cs
    else if c = '[' then regexEnd? true false (offset + 1) cs
    else if c = ']' then regexEnd? false false (offset + 1) cs
    else if c = '/' && !inClass then some ⟨cs, offset + 1⟩
    else regexEnd? inClass false (offset + c.utf8Size) cs

/-- the cursor stands at the first slash -/
def readRegex (c : Cursor) : Scan :=
  match regexEnd? false false (c.offset + 1) c.rest.tail with
  | none => Scan.invalid .unterminatedRegex c.offset ⟨[], c.offset⟩ []
  | some after =>
    if after.next?.any (fun d => startsName d || d == '\\') then
      let word := readWord after
      match word.fault with
      | some fault => ⟨.invalid fault, word.remarks, word.after⟩
      | none => ⟨.regex (String.ofList word.name), word.remarks, word.after⟩
    else ⟨.regex "", [], after⟩

/-! ## tokens -/

def Symbol.read? (rest : List Char) : Option Symbol :=
  (Symbol.all.filter (fun s => s.text.toList.isPrefixOf rest)).find? (fun s =>
    !(s = .optionalChain && (rest.drop 2).head?.any isDecimalDigit))

/-- one token at a character that is no white space -/
def scan (r : Reserving) (c : Cursor) : Scan :=
  match c.rest with
  | [] => ⟨.eof, [], c⟩
  | d :: more =>
    if startsName d || d == '\\' then
      let word := readWord c
      match word.fault with
      | some fault => ⟨.invalid fault, word.remarks, word.after⟩
      | none =>
        let name := String.ofList word.name
        if word.escaped && r.reserves name then
          Scan.invalid (.escapedReservedWord name) c.offset word.after word.remarks
        else ⟨.word name, word.remarks, word.after⟩
    else if isDecimalDigit d then readNumber c
    else if d = '.' && more.head?.any isDecimalDigit then readFraction c c []
    else if d = '\'' || d = '\x22' then readString c d
    else if d = '\x60' then readTemplate c true
    else match Symbol.read? c.rest with
      | some s => ⟨.symbol s, [], c.skip s.text.length⟩
      | none => Scan.invalid (.unexpectedCharacter (shownChar d)) c.offset c.advance []

structure Reading where
  token : Token
  after : Cursor
  remarks : List Remark
  deriving Inhabited

/-- remarks for strict code stay with the token, until it is known in what code it stands -/
def Scan.toReading (s : Scan) (start : Nat) (newline : Bool) (remarks : List Remark) : Reading :=
  { token :=
      { kind := s.kind, start := start, stop := s.after.offset, newline := newline,
        strictRemarks := (s.remarks.filter (·.condition = .strict)).map (·.fault) },
    after := s.after,
    remarks := remarks ++ s.remarks.filter (·.condition ≠ .strict) }

/-- the next token; the end of the text is reported where the token before it ends -/
def Token.read (r : Reserving) (first : Bool) (c : Cursor) : Reading :=
  let blanks := skipBlanks .plain first none [] c.offset c.rest
  let s := scan r blanks.after
  match s.kind, blanks.legacyStart with
  | .eof, none => s.toReading c.offset true blanks.remarks
  | .eof, some start => s.toReading start true blanks.remarks
  | _, some start => s.toReading start blanks.newline blanks.remarks
  | _, none => s.toReading blanks.after.offset blanks.newline blanks.remarks

end Bindle.Script
