import Bindle.Json.Error
import Bindle.Json.Value
import Bindle.Text.Digits
import Bindle.Text.Utf8

/-!
# Reading the pieces of a JSON text

`Read` is a reader over the rest of a text.  What it fails with is a problem with the byte at which
it was noticed, or without one: a problem of a value gets its place only when the bracket around
that value has been closed (`settle`).

* `fail`, `failNext`   a problem at the current byte or behind the next one;
* `skipSpace`          white space, and the character behind it;
* `readString`, `readNumber`   the pieces, each from its first character on;
* `skimString`, `skimNumber`   the same without working out the value, and with fewer checks.
-/

namespace Bindle.Json

open Bindle.Text

/-- a problem, and the byte where it was noticed -/
structure Fault where
  problem : Problem
  index : Option Nat
  deriving DecidableEq, Inhabited

/-- the rest of the text and the byte at which it begins -/
structure Rest where
  chars : List Char
  index : Nat
  deriving DecidableEq, Inhabited

abbrev Read := EStateM Fault Rest

namespace Read

variable {α : Type}

def rest : Read Rest := fun s => .ok s s

/-- more steps than any reading of the rest takes -/
def bound : Read Nat := fun s => .ok (2 * s.chars.length + 2) s

def fail (p : Problem) : Read α := fun s => .error ⟨p, some s.index⟩ s

def failAt (p : Problem) (index : Nat) : Read α := fun s => .error ⟨p, some index⟩ s

/-- as if the next byte had been read, if there is one -/
def failNext (p : Problem) : Read α := fun s =>
  .error ⟨p, some (if s.chars.isEmpty then s.index else s.index + 1)⟩ s

/-- a problem of a value, which has no place yet -/
def raise (p : Problem) : Read α := fun s => .error ⟨p, none⟩ s

/-- a problem that has no place gets the current one -/
def settle (p : Read α) : Read α := fun s =>
  match p s with
  | .ok a t => .ok a t
  | .error e t => .error ⟨e.problem, e.index.or (some t.index)⟩ t

/-- what is inside a bracket, then the bracket that closes it; it is looked for even behind a
problem, but the problem inside comes first -/
def closedBy (inside : Read α) (close : Read Unit) : Read α := fun s =>
  match inside s with
  | .ok a t =>
    match close t with
    | .ok _ u => .ok a u
    | .error e u => .error e u
  | .error e t =>
    match close t with
    | .ok _ u => .error e u
    | .error _ u => .error e u

def peek : Read (Option Char) := fun s => .ok s.chars.head? s

def next : Read Unit := fun s =>
  match s.chars with
  | [] => .ok () s
  | c :: cs => .ok () ⟨cs, s.index + c.utf8Size⟩

def isJsonSpace (c : Char) : Bool := c == ' ' || c == '\n' || c == '\t' || c == '\r'

def spaceLength (cs : List Char) : Nat := (cs.takeWhile isJsonSpace).length

/-- the first character that is no white space -/
def skipSpace : Read (Option Char) := fun s =>
  let after : Rest := ⟨s.chars.dropWhile isJsonSpace, s.index + spaceLength s.chars⟩
  .ok after.chars.head? after

def ofExcept (f : Rest → Except Fault (α × Rest)) : Read α := fun s =>
  match f s with
  | .ok (a, t) => .ok a t
  | .error e => .error e s

/-- repeats a step on a value until it gives no further one -/
def iterateN {σ : Type} : Nat → (σ → Read (Option σ)) → σ → Read σ
  | 0, _, _ => failNext .endInValue
  | n + 1, step, a => do
    match ← step a with
    | none => return a
    | some b => iterateN n step b

def iterate {σ : Type} (step : σ → Read (Option σ)) (a : σ) : Read σ := do
  iterateN (← bound) step a

end Read

open Read

/-! ## words -/

/-- the rest of a word whose first letter has been read -/
def restOfWord : List Char → Read Unit
  | [] => pure ()
  | c :: cs => do
    match ← peek with
    | none => fail .endInValue
    | some d =>
      if d = c then
        next
        restOfWord cs
      else failNext .expectedWord

/-! ## strings -/

/-- what is wrong where four hexadecimal digits should be -/
def hexFault (s : Rest) : Fault :=
  if byteLength s.chars ≥ 4 then ⟨.invalidEscape, some (s.index + 4)⟩
  else ⟨.endInString, some (s.index + byteLength s.chars)⟩

/-- four hexadecimal digits -/
def hexEscape (s : Rest) : Except Fault (Nat × Rest) :=
  match s.chars with
  | a :: b :: c :: d :: rest =>
    if isHexDigit a && isHexDigit b && isHexDigit c && isHexDigit d then
      .ok (hexNumber [a, b, c, d], ⟨rest, s.index + 4⟩)
    else .error (hexFault s)
  | _ => .error (hexFault s)

def isLead (n : Nat) : Bool := 0xD800 ≤ n && n < 0xDC00

def isTrail (n : Nat) : Bool := 0xDC00 ≤ n && n < 0xE000

/-- the second half of a pair of surrogates -/
def trailEscape (lead : Nat) (s : Rest) : Except Fault (Char × Rest) :=
  match s.chars with
  | [] => .error ⟨.endInString, some s.index⟩
  | '\\' :: 'u' :: rest =>
    match hexEscape ⟨rest, s.index + 2⟩ with
    | .error e => .error e
    | .ok (trail, after) =>
      if isTrail trail then
        .ok (Char.ofNat (0x10000 + (lead - 0xD800) * 0x400 + (trail - 0xDC00)), after)
      else .error ⟨.loneSurrogate, some after.index⟩
  | ['\\'] => .error ⟨.endInString, some (s.index + 1)⟩
  | '\\' :: _ => .error ⟨.splitSurrogate, some (s.index + 2)⟩
  | _ => .error ⟨.splitSurrogate, some (s.index + 1)⟩

/-- what stands behind `\u` -/
def unicodeCharacter (s : Rest) : Except Fault (Char × Rest) :=
  match hexEscape s with
  | .error e => .error e
  | .ok (n, after) =>
    if isTrail n then .error ⟨.loneSurrogate, some after.index⟩
    else if isLead n then trailEscape n after
    else .ok (Char.ofNat n, after)

/-- what single letters stand for behind a backslash -/
def letterEscape? (c : Char) : Option Char :=
  match c with
  | '\x22' => some '\x22'
  | '\\' => some '\\'
  | '/' => some '/'
  | 'b' => some '\x08'
  | 'f' => some '\x0c'
  | 'n' => some '\n'
  | 'r' => some '\r'
  | 't' => some '\t'
  | _ => none

/-- what stands behind a backslash -/
def escapedCharacter (s : Rest) : Except Fault (Char × Rest) :=
  match s.chars with
  | [] => .error ⟨.endInString, some s.index⟩
  | c :: cs =>
    match letterEscape? c with
    | some d => .ok (d, ⟨cs, s.index + 1⟩)
    | none =>
      if c = 'u' then unicodeCharacter ⟨cs, s.index + 1⟩
      else .error ⟨.invalidEscape, some (s.index + 1)⟩

theorem hexEscape_length {s t : Rest} {n : Nat} (h : hexEscape s = .ok (n, t)) :
    t.chars.length < s.chars.length := by
  unfold hexEscape at h
  split at h
  · next a b c d rest heq =>
    split at h
    · simp only [Except.ok.injEq, Prod.mk.injEq] at h
      rw [heq, ← h.2]
      simp only [List.length_cons]
      omega
    · simp at h
  · simp at h

theorem trailEscape_length {lead : Nat} {s t : Rest} {c : Char}
    (h : trailEscape lead s = .ok (c, t)) : t.chars.length < s.chars.length := by
  unfold trailEscape at h
  split at h <;> try (simp at h)
  next rest heq =>
    split at h
    · simp at h
    · next trail after hx =>
      split at h
      · simp only [Except.ok.injEq, Prod.mk.injEq] at h
        have := hexEscape_length hx
        rw [heq, ← h.2]
        simp only [List.length_cons] at this ⊢
        omega
      · simp at h

theorem escapedCharacter_length {s t : Rest} {c : Char} (h : escapedCharacter s = .ok (c, t)) :
    t.chars.length < s.chars.length := by
  unfold escapedCharacter at h
  split at h
  · simp at h
  · next d cs heq =>
    rw [heq]
    split at h
    · simp only [Except.ok.injEq, Prod.mk.injEq] at h
      rw [← h.2]
      simp
    · split at h
      · unfold unicodeCharacter at h
        split at h
        · simp at h
        · next n after hx =>
          have h1 := hexEscape_length hx
          simp only [List.length_cons] at h1 ⊢
          split at h
          · simp at h
          · split at h
            · have h2 := trailEscape_length h
              omega
            · simp only [Except.ok.injEq, Prod.mk.injEq] at h
              rw [← h.2]
              omega
      · simp at h

/-- the characters up to the closing quote; `seen` holds those read, the last one first -/
def stringFrom (seen : List Char) (index : Nat) : List Char → Except Fault (List Char × Rest)
  | [] => .error ⟨.endInString, some index⟩
  | c :: cs =>
    if c = '\x22' then .ok (seen.reverse, ⟨cs, index + 1⟩)
    else if c = '\\' then
      match _he : escapedCharacter ⟨cs, index + 1⟩ with
      | .error e => .error e
      | .ok (d, after) => stringFrom (d :: seen) after.index after.chars
    else if c.toNat < 0x20 then .error ⟨.controlCharacter, some (index + 1)⟩
    else stringFrom (c :: seen) (index + c.utf8Size) cs
termination_by cs => cs.length
decreasing_by
  · have := escapedCharacter_length _he
    simp only [List.length_cons] at this ⊢
    omega
  · simp

/-- a string whose opening quote is the next character -/
def readString : Read String := do
  next
  return String.ofList (← ofExcept (fun s => stringFrom [] s.index s.chars))

/-- passes over what stands behind a backslash -/
def skimEscape (s : Rest) : Except Fault Rest :=
  match s.chars with
  | [] => .error ⟨.endInString, some s.index⟩
  | c :: cs =>
    if (letterEscape? c).isSome then .ok ⟨cs, s.index + 1⟩
    else if c = 'u' then (hexEscape ⟨cs, s.index + 1⟩).map Prod.snd
    else .error ⟨.invalidEscape, some (s.index + 1)⟩

/-- passes over characters up to the closing quote, within a number of steps -/
def skimStringFrom : Nat → Rest → Except Fault (Unit × Rest)
  | 0, s => .error ⟨.endInString, some s.index⟩
  | n + 1, s =>
    match s.chars with
    | [] => .error ⟨.endInString, some s.index⟩
    | c :: cs =>
      if c = '\x22' then .ok ((), ⟨cs, s.index + 1⟩)
      else if c = '\\' then
        match skimEscape ⟨cs, s.index + 1⟩ with
        | .error e => .error e
        | .ok after => skimStringFrom n after
      else if c.toNat < 0x20 then .error ⟨.controlCharacter, some s.index⟩
      else skimStringFrom n ⟨cs, s.index + c.utf8Size⟩

def skimString : Read Unit := do
  next
  ofExcept (skimStringFrom (← bound))

/-! ## numbers -/

def largestNatural : Nat := 18446744073709551615

/-- without its sign -/
def largestNegative : Nat := 9223372036854775808

/-- takes digits as long as the number fits into 64 bits; also how many were taken -/
def accumulate (n taken : Nat) : List Char → Nat × Nat
  | [] => (n, taken)
  | d :: ds =>
    let m := n * 10 + (d.toNat - 48)
    if m > largestNatural then (n, taken) else accumulate m (taken + 1) ds

def digits : Read (List Char) := fun s =>
  let ds := s.chars.takeWhile isDecimalDigit
  .ok ds ⟨s.chars.dropWhile isDecimalDigit, s.index + ds.length⟩

def isExponentMark (c : Option Char) : Bool := c == some 'e' || c == some 'E'

/-- `significand · 10 ^ e` by one multiplication or by divisions, each of them rounded -/
def scaled : Nat → Binary64 → Int → Option Binary64
  | 0, _, _ => some .zero
  | n + 1, x, e =>
    if e > 308 then if x.significand = 0 then some x else none
    else if e ≥ 0 then (Binary64.ofNat? (Nat.pow 10 e.toNat)).bind x.mul
    else if e ≥ -308 then (Binary64.ofNat? (Nat.pow 10 (-e).toNat)).bind x.div
    else if x.significand = 0 then some x
    else (((Binary64.ofNat? (Nat.pow 10 308)).bind x.div)).bind (fun y => scaled n y (e + 308))

def floatNumber (minus : Bool) (significand : Nat) (e : Int) : Read Number := do
  match (Binary64.ofNat? significand).bind (fun x => scaled 4 x e) with
  | some x => return .float minus x
  | none => fail .numberOutOfRange

def largestExponent : Nat := 2147483647

/-- the exponent, from its mark on -/
def exponent (minus : Bool) (significand : Nat) (e : Int) : Read Number := do
  next
  let sign ← peek
  if sign = some '+' ∨ sign = some '-' then next
  match ← peek with
  | none => fail .endInValue
  | some d =>
    if !isDecimalDigit d then failNext .invalidNumber
    else
      let start ← rest
      let ds ← digits
      let n := digitsNumber 10 ds
      if n > largestExponent then
        if significand ≠ 0 ∧ sign ≠ some '-' then
          let fitting := (accumulateUpTo largestExponent 0 0 ds).2
          failAt .numberOutOfRange (start.index + fitting + 1)
        else return .float minus .zero
      else floatNumber minus significand (if sign = some '-' then e - n else e + n)
where
  /-- how many digits fit below a limit -/
  accumulateUpTo (limit n taken : Nat) : List Char → Nat × Nat
    | [] => (n, taken)
    | d :: ds =>
      let m := n * 10 + (d.toNat - 48)
      if m > limit then (n, taken) else accumulateUpTo limit m (taken + 1) ds

/-- the fraction, from its point on; digits that no longer fit do not count -/
def fraction (minus : Bool) (significand : Nat) (e : Int) : Read Number := do
  next
  let ds ← digits
  if ds.isEmpty then
    match ← peek with
    | none => fail .endInValue
    | some _ => failNext .invalidNumber
  else
    let (m, taken) := accumulate significand 0 ds
    if isExponentMark (← peek) then exponent minus m (e - taken)
    else floatNumber minus m (e - taken)

/-- what follows the digits before the point -/
def afterInteger (minus : Bool) (significand : Nat) (e : Int) (whole : Bool) : Read Number := do
  let c ← peek
  if c = some '.' then fraction minus significand e
  else if isExponentMark c then exponent minus significand e
  else if !whole then floatNumber minus significand e
  else if !minus then return .natural significand
  else if 0 < significand ∧ significand ≤ largestNegative then return .negative significand
  else floatNumber minus significand 0

/-- a number whose first digit is next; a minus sign has been read -/
def unsigned (minus : Bool) : Read Number := do
  match ← peek with
  | none => fail .endInValue
  | some '0' => do
    next
    if (← peek).any isDecimalDigit then failNext .invalidNumber
    else afterInteger minus 0 0 true
  | some d =>
    if !isDecimalDigit d then failNext .invalidNumber
    else do
      let ds ← digits
      let (m, taken) := accumulate 0 0 ds
      afterInteger minus m (ds.length - taken) (taken = ds.length)

def readNumber : Read Number := do
  if (← peek) = some '-' then
    next
    unsigned true
  else unsigned false

def skimExponent : Read Unit := do
  next
  let sign ← peek
  if sign = some '+' ∨ sign = some '-' then next
  if (← peek).any isDecimalDigit then
    let _ ← digits
  else failNext .invalidNumber

def skimNumber : Read Unit := do
  if (← peek) = some '-' then next
  if (← peek) = some '0' then
    next
    if (← peek).any isDecimalDigit then failNext .invalidNumber
  else if (← peek).any isDecimalDigit then
    let _ ← digits
  else failNext .invalidNumber
  let c ← peek
  if c = some '.' then
    next
    if (← digits).isEmpty then failNext .invalidNumber
    if isExponentMark (← peek) then skimExponent
  else if isExponentMark c then skimExponent

end Bindle.Json
