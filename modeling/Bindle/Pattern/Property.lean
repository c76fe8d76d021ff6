import Bindle.Pattern.CharSet
import Bindle.Text.Digits
import Bindle.Text.Unicode.Categories
import Bindle.Text.Unicode.Folding
import Bindle.Text.Unicode.Properties
import Bindle.Text.Unicode.Scripts

/-!
# Properties of characters

Looks up the sets of characters that patterns name.

* `property?`       by one name: a property, a general category or a script;
* `propertyValue?`  by a property and a value;
* `wordSet`, `digitSet`, `spaceSet`   the classes with one letter;
* `foldSet`         adds to a set the letters that differ in case only.

Names are compared without regard to case, spaces, underscores, hyphens and a leading `is`.
-/

namespace Bindle.Pattern

open Bindle.Text Bindle.Text.Unicode

def rangeOfText (cs : List Char) : Nat × Nat :=
  let first := cs.takeWhile (· ≠ '-')
  let last := (cs.dropWhile (· ≠ '-')).drop 1
  (hexNumber first, hexNumber (if last.isEmpty then first else last))

/-- the words of a line -/
def wordsOf : List Char → List (List Char)
  | [] => [[]]
  | c :: cs =>
    if c = ' ' then [] :: wordsOf cs
    else match wordsOf cs with
      | [] => [[c]]
      | w :: ws => (c :: w) :: ws

def rangesOfLines (lines : List String) : List (Nat × Nat) :=
  lines.flatMap (fun line => (wordsOf line.toList).map rangeOfText)

def lookup? (rows : List (List String × List String)) (name : String) : Option CharSet :=
  (rows.find? (fun row => row.1.contains name)).map (fun row => .ofRanges (rangesOfLines row.2))

def assigned : CharSet := .ofRanges (categoryRows.flatMap (fun row => rangesOfLines row.2))

/-- the parts of the categories that have parts -/
def categoryParts : List (List String × List String) :=
  [(["l", "letter"], ["lu", "ll", "lt", "lm", "lo"]),
   (["lc", "casedletter"], ["lu", "ll", "lt"]),
   (["m", "mark", "combiningmark"], ["mn", "mc", "me"]),
   (["n", "number"], ["nd", "nl", "no"]),
   (["p", "punct", "punctuation"], ["pc", "pd", "ps", "pe", "pi", "pf", "po"]),
   (["s", "symbol"], ["sm", "sc", "sk", "so"]),
   (["z", "separator"], ["zs", "zl", "zp"])]

def category? (name : String) : Option CharSet :=
  if name = "any" then some ⟨[(0, CharSet.lastScalar)]⟩
  else if name = "ascii" then some ⟨[(0, 0x7F)]⟩
  else if name = "assigned" then some assigned
  else if name = "cn" ∨ name = "unassigned" then
    some ((assigned.union ⟨[(0xD800, 0xDFFF)]⟩).complement CharSet.lastScalar)
  else if name = "cs" ∨ name = "surrogate" then some .empty
  else if name = "c" ∨ name = "other" then
    some ((CharSet.ofRanges ((["cc", "cf", "co"].filterMap (lookup? categoryRows)).flatMap
      CharSet.ranges)).union (assigned.complement CharSet.lastScalar))
  else match categoryParts.find? (fun row => row.1.contains name) with
    | some (_, parts) =>
      some (.ofRanges ((parts.filterMap (lookup? categoryRows)).flatMap CharSet.ranges))
    | none => lookup? categoryRows name

/-- a name without what does not count in it -/
def normalName (name : List Char) : String :=
  let isIs := match name with
    | a :: b :: _ => (a = 'i' || a = 'I') && (b = 's' || b = 'S')
    | _ => false
  let kept := (if isIs then name.drop 2 else name).filter
    (fun c => c ≠ ' ' && c ≠ '_' && c ≠ '-' && c.toNat < 0x80)
  let lower := String.ofList (kept.map Char.toLower)
  if isIs && lower = "c" then "isc" else lower

def property? (name : List Char) : Option CharSet :=
  let n := normalName name
  let isCategory := n = "cf" || n = "sc" || n = "lc"
  ((if isCategory then none else lookup? propertyRows n).or (category? n)).or
    (lookup? scriptRows n)

inductive ValueLookup where
  | found (set : CharSet)
  | noProperty
  | noValue

def propertyValue? (name value : List Char) : ValueLookup :=
  let n := normalName name
  let v := normalName value
  let found :=
    if n = "gc" ∨ n = "generalcategory" then some (category? v)
    else if n = "sc" ∨ n = "script" ∨ n = "scx" ∨ n = "scriptextensions" then
      some (lookup? scriptRows v)
    else if (lookup? propertyRows n).isSome then some none
    else none
  match found with
  | none => .noProperty
  | some none => .noValue
  | some (some set) => .found set

/-! ## classes with one letter -/

def asciiDigits : CharSet := ⟨[(0x30, 0x39)]⟩

def asciiSpaces : CharSet := ⟨[(0x09, 0x0D), (0x20, 0x20)]⟩

def asciiWord : CharSet := ⟨[(0x30, 0x39), (0x41, 0x5A), (0x5F, 0x5F), (0x61, 0x7A)]⟩

def digitSet : CharSet := (category? "nd").getD .empty

def spaceSet : CharSet := (lookup? propertyRows "whitespace").getD .empty

/-- letters, marks, digits, connectors and joiners -/
def wordSet : CharSet :=
  .ofRanges ((["m", "nd", "pc"].filterMap category? ++
    ["alphabetic", "joincontrol"].filterMap (lookup? propertyRows)).flatMap CharSet.ranges)

/-! ## letters that differ in case only -/

/-- the characters of a run that are in a range, with their images -/
def imagesOf (a b : Nat) (run : Nat × Nat × Nat × Int) : List Nat :=
  let (first, last, step, distance) := run
  ((List.range ((last - first) / step + 1)).map (fun i => first + i * step)).filter
      (fun c => a ≤ c && c ≤ b) |>.map (fun (c : Nat) => ((c : Int) + distance).toNat)

def images (s : CharSet) : List Nat :=
  s.ranges.flatMap (fun r =>
    (foldRuns.filter (fun run => run.1 ≤ r.2 && r.1 ≤ run.2.1)).flatMap (imagesOf r.1 r.2))

/-- the characters whose image is in a set -/
def sources (s : CharSet) : List Nat :=
  foldRuns.flatMap (fun run =>
    let (first, last, step, distance) := run
    ((List.range ((last - first) / step + 1)).map (fun i => first + i * step)).filter
      (fun (c : Nat) => s.contains ((c : Int) + distance).toNat))

def single (n : Nat) : Nat × Nat := (n, n)

def foldSet (s : CharSet) : CharSet :=
  let withImages := s.union (.ofRanges ((images s).map single))
  withImages.union (.ofRanges ((sources withImages).map single))

def isAsciiLower (n : Nat) : Bool := 0x61 ≤ n && n ≤ 0x7A

def isAsciiUpper (n : Nat) : Bool := 0x41 ≤ n && n ≤ 0x5A

/-- the same among ASCII letters -/
def foldAscii (s : CharSet) : CharSet :=
  let letters := (List.range 0x80).filter s.contains
  s.union (.ofRanges ((letters.filter isAsciiLower).map (fun n => single (n - 32)) ++
    (letters.filter isAsciiUpper).map (fun n => single (n + 32))))

end Bindle.Pattern
