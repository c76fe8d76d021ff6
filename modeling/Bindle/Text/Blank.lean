/-!
# White space and line ends

Three classes that differ:

* `isLineEnd c`    ends a line of a script: line feed, carriage return, U+2028, U+2029;
* `isBlank c`      separates the tokens of a script without ending a line;
* `isSpace c`      has the Unicode property `White_Space`, which is what trimming removes.
-/

namespace Bindle.Text

def isLineEnd (c : Char) : Bool :=
  c == '\n' || c == '\r' || c.toNat == 0x2028 || c.toNat == 0x2029

def isSpace (c : Char) : Bool :=
  (0x09 ≤ c.toNat && c.toNat ≤ 0x0D) || c.toNat == 0x20 || c.toNat == 0x85 || c.toNat == 0xA0 ||
  c.toNat == 0x1680 || (0x2000 ≤ c.toNat && c.toNat ≤ 0x200A) || c.toNat == 0x2028 ||
  c.toNat == 0x2029 || c.toNat == 0x202F || c.toNat == 0x205F || c.toNat == 0x3000

/-- also the byte order mark and the zero-width space -/
def isBlank (c : Char) : Bool :=
  !isLineEnd c && (isSpace c || c.toNat == 0xFEFF || c.toNat == 0x200B)

/-- every line end is white space -/
theorem isSpace_of_isLineEnd {c : Char} (h : isLineEnd c = true) : isSpace c = true := by
  simp only [isLineEnd, Bool.or_eq_true, beq_iff_eq] at h
  simp only [isSpace, Bool.or_eq_true, Bool.and_eq_true, beq_iff_eq, decide_eq_true_eq]
  rcases h with ((rfl | rfl) | h) | h
  · decide
  · decide
  · omega
  · omega

end Bindle.Text
