import Bindle.Pattern.Property
import Bindle.Text.Unicode.Lowercase

/-!
# Texts in small letters

`lowercase s` is `s` with every capital letter made small.  The capital sigma has two small letters,
and at the end of a word it becomes the one that stands there.
-/

namespace Bindle.Text

def lowerChar (c : Char) : Char :=
  match Unicode.lowerRuns.find? (fun r =>
      r.1 ≤ c.toNat && c.toNat ≤ r.2.1 && (c.toNat - r.1) % r.2.2.1 == 0) with
  | some r => Char.ofNat ((c.toNat : Int) + r.2.2.2).toNat
  | none => c

def hasProperty (name : String) (c : Char) : Bool :=
  match Pattern.lookup? Unicode.propertyRows name with
  | some set => set.contains c.toNat
  | none => false

/-- a letter with a case comes next, when what has no say in this is passed over -/
def meetsCased (cs : List Char) : Bool :=
  match cs.dropWhile (hasProperty "caseignorable") with
  | [] => false
  | c :: _ => hasProperty "cased" c

/-- `before` is what stands in front, last first -/
def lowercaseFrom (before : List Char) : List Char → List Char
  | [] => []
  | c :: cs =>
    let small : List Char :=
      if c.toNat = 0x130 then ['i', Char.ofNat 0x307]
      else if c.toNat = 0x3A3 ∧ meetsCased before ∧ ¬ meetsCased cs then [Char.ofNat 0x3C2]
      else [lowerChar c]
    small ++ lowercaseFrom (c :: before) cs

def lowercase (s : String) : String := String.ofList (lowercaseFrom [] s.toList)

end Bindle.Text
