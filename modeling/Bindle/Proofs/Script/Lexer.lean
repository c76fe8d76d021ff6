import Bindle.Script.Lexer
import Bindle.Text.Utf8

/-!
# What the lexer takes from a text

Every reader of the lexer takes characters from the front of its text, and none in between is lost.

* `Cursor.Reaches c d`   taking characters from the front of `c` leads to `d`;
* `StringAt c raw d`     a string stands between the two cursors, quotes included, and nothing is
                         wrong with it;
* `reaches_scan`         one token;
* `reaches_read`         one token with the white space and the comments before it;
* `stringAt_read`        what a string token stands for.

The one exception is a regular expression without an end: it leaves nothing to read behind it.
-/

namespace Bindle.Script

open Bindle.Text

namespace Cursor

/-- taking characters from the front of `c` leads to `d` -/
def Reaches (c d : Cursor) : Prop :=
  ∃ taken, c.rest = taken ++ d.rest ∧ d.offset = c.offset + byteLength taken

namespace Reaches

variable {c d e : Cursor}

theorem refl (c : Cursor) : c.Reaches c := ⟨[], rfl, rfl⟩

theorem trans (h : c.Reaches d) (h' : d.Reaches e) : c.Reaches e := by
  obtain ⟨a, hrest, hoffset⟩ := h
  obtain ⟨b, hrest', hoffset'⟩ := h'
  refine ⟨a ++ b, by rw [hrest, hrest', List.append_assoc], ?_⟩
  rw [hoffset', hoffset, byteLength_append, Nat.add_assoc]

theorem offset_le (h : c.Reaches d) : c.offset ≤ d.offset := by
  obtain ⟨_, _, hoffset⟩ := h
  omega

theorem length_le (h : c.Reaches d) : d.rest.length ≤ c.rest.length := by
  obtain ⟨_, hrest, _⟩ := h
  rw [hrest, List.length_append]
  omega

/-- the text between the two cursors, which `Cursor.textUntil` reads off -/
theorem textUntil_eq (h : c.Reaches d) :
    c.rest = (c.textUntil d).toList ++ d.rest ∧
      d.offset = c.offset + byteLength (c.textUntil d).toList := by
  obtain ⟨taken, hrest, hoffset⟩ := h
  have htaken : (c.textUntil d).toList = taken := by
    rw [textUntil, String.toList_ofList, hrest, List.length_append, Nat.add_sub_cancel,
      List.take_left]
  rw [htaken]
  exact ⟨hrest, hoffset⟩

end Reaches

theorem reaches_cons (x : Char) (xs : List Char) (offset : Nat) :
    Reaches ⟨x :: xs, offset⟩ ⟨xs, offset + x.utf8Size⟩ :=
  ⟨[x], rfl, rfl⟩

theorem reaches_advance (c : Cursor) : c.Reaches c.advance := by
  obtain ⟨_ | ⟨x, xs⟩, offset⟩ := c
  · exact .refl _
  · exact reaches_cons x xs offset

theorem advance_of_next? {c : Cursor} {x : Char} (h : c.next? = some x) :
    c.rest = x :: c.advance.rest ∧ c.advance.offset = c.offset + x.utf8Size := by
  obtain ⟨_ | ⟨y, ys⟩, offset⟩ := c
  · exact absurd h (by simp [next?])
  · obtain rfl : y = x := by simpa [next?] using h
    exact ⟨rfl, rfl⟩

theorem reaches_skip (n : Nat) (c : Cursor) : c.Reaches (c.skip n) := by
  induction n generalizing c with
  | zero => exact .refl c
  | succ n ih => exact (reaches_advance c).trans (ih c.advance)

theorem skip_append (text rest : List Char) (offset : Nat) :
    skip text.length ⟨text ++ rest, offset⟩ = ⟨rest, offset + byteLength text⟩ := by
  induction text generalizing offset with
  | nil => rfl
  | cons x text ih =>
    show skip text.length ⟨text ++ rest, offset + x.utf8Size⟩ = _
    rw [ih, byteLength_cons, Nat.add_assoc]

theorem reaches_takeWhile_go (p : Char → Bool) (seen : List Char) (offset : Nat)
    (rest : List Char) : Reaches ⟨rest, offset⟩ (takeWhile.go p seen offset rest).2 := by
  induction rest generalizing seen offset with
  | nil => exact .refl _
  | cons x xs ih =>
    unfold takeWhile.go
    split
    · exact (reaches_cons x xs offset).trans (ih _ _)
    · exact .refl _

theorem reaches_takeWhile (c : Cursor) (p : Char → Bool) : c.Reaches (c.takeWhile p).2 :=
  reaches_takeWhile_go p [] c.offset c.rest

theorem reaches_takeUpTo (c : Cursor) (limit : Nat) (p : Char → Bool) :
    c.Reaches (c.takeUpTo limit p).2 :=
  reaches_skip _ c

end Cursor

open Cursor

/-! ## white space and comments -/

/-- a comment of the form `<!--` or `-->` begins here -/
def Cursor.AtLegacyComment (c : Cursor) : Prop :=
  ['<', '!', '-', '-'] <+: c.rest ∨ ['-', '-', '>'] <+: c.rest

theorem reaches_skipBlanks (mode : BlankMode) (newline : Bool) (legacy : Option Nat)
    (remarks : List Remark) (offset : Nat) (rest : List Char) :
    Reaches ⟨rest, offset⟩ (skipBlanks mode newline legacy remarks offset rest).after := by
  induction rest generalizing mode newline legacy remarks offset with
  | nil => exact .refl _
  | cons x xs ih =>
    have hnext := reaches_cons x xs offset
    unfold skipBlanks
    dsimp only
    repeat' split
    all_goals first | exact hnext.trans (ih ..) | exact .refl _

theorem legacyStart_skipBlanks_some (mode : BlankMode) (newline : Bool) (start : Nat)
    (remarks : List Remark) (offset : Nat) (rest : List Char) :
    (skipBlanks mode newline (some start) remarks offset rest).legacyStart = some start := by
  induction rest generalizing mode newline remarks offset with
  | nil => rfl
  | cons x xs ih =>
    unfold skipBlanks
    dsimp only [Option.some_or]
    repeat' split
    all_goals first | exact ih .. | rfl

/-- the place kept as the beginning of a legacy comment behind `c` is the beginning of one -/
def Blanks.Marks (c : Cursor) (blanks : Blanks) : Prop :=
  ∀ start, blanks.legacyStart = some start →
    ∃ d, c.Reaches d ∧ d.offset = start ∧ d.AtLegacyComment ∧ d.Reaches blanks.after

theorem Blanks.Marks.of_reaches {c d : Cursor} {blanks : Blanks} (h : blanks.Marks d)
    (hreaches : c.Reaches d) : blanks.Marks c := by
  intro start hstart
  obtain ⟨e, he, hrest⟩ := h start hstart
  exact ⟨e, hreaches.trans he, hrest⟩

theorem marks_skipBlanks (mode : BlankMode) (newline : Bool) (remarks : List Remark)
    (offset : Nat) (rest : List Char) :
    (skipBlanks mode newline none remarks offset rest).Marks ⟨rest, offset⟩ := by
  induction rest generalizing mode newline remarks offset with
  | nil =>
    intro start h
    exact absurd h (by simp [skipBlanks])
  | cons x xs ih =>
    have hnext := reaches_cons x xs offset
    unfold skipBlanks
    dsimp only
    split
    · split <;> exact .of_reaches (ih _ _ _ _) hnext
    · exact .of_reaches (ih _ _ _ _) hnext
    · exact .of_reaches (ih _ _ _ _) hnext
    · split <;> exact .of_reaches (ih _ _ _ _) hnext
    · iterate 4
        split
        · exact .of_reaches (ih _ _ _ _) hnext
      split
      · -- the mark stands here, and the place is kept from here on
        rename_i hmark
        intro start h
        rw [Option.none_or, legacyStart_skipBlanks_some] at h
        have hat : AtLegacyComment ⟨x :: xs, offset⟩ := by
          simp only [Bool.or_eq_true, Bool.and_eq_true, decide_eq_true_eq,
            List.isPrefixOf_iff_prefix] at hmark
          rcases hmark with ⟨rfl, h⟩ | ⟨⟨_, rfl⟩, h⟩
          · exact .inl ((List.prefix_cons_inj '<').mpr h)
          · exact .inr ((List.prefix_cons_inj '-').mpr h)
        exact ⟨⟨x :: xs, offset⟩, .refl _, Option.some.inj h, hat,
          hnext.trans (reaches_skipBlanks ..)⟩
      · intro start h
        exact absurd h (by simp)

/-! ## escapes and words -/

theorem reaches_readCodePoint (c : Cursor) : c.Reaches (readCodePoint c).2 := by
  unfold readCodePoint
  dsimp only
  have hbrace := (reaches_advance c).trans (reaches_takeWhile c.advance isHexDigit)
  split
  · repeat' split
    · exact hbrace
    · exact hbrace
    · exact hbrace.trans (reaches_advance _)
    · exact hbrace
  · split <;> exact reaches_takeUpTo c 4 isHexDigit

/-- an escape takes its backslash, and what it takes more stands behind it -/
theorem reaches_readEscape (inTemplate : Bool) (c : Cursor) :
    c.advance.Reaches (readEscape inTemplate c).after := by
  have hbody := reaches_advance c.advance
  unfold readEscape
  dsimp only
  split
  · exact .refl _
  · split <;> exact hbody.trans (reaches_takeUpTo ..)
  · have hpoint := reaches_readCodePoint c.advance.advance
    split <;> rename_i h <;> rw [h] at hpoint <;> exact hbody.trans hpoint
  · dsimp only
    split
    · exact hbody.trans (reaches_advance _)
    · exact hbody
  · repeat' split
    all_goals first | exact hbody | exact hbody.trans (reaches_takeUpTo ..)

theorem reaches_readWordFrom (start n : Nat) (seen : List Char) (escaped : Bool)
    (remarks : List Remark) (c : Cursor) :
    c.Reaches (readWordFrom start n seen escaped remarks c).after := by
  induction n generalizing seen escaped remarks c with
  | zero => exact .refl c
  | succ n ih =>
    have hbody := reaches_advance c
    unfold readWordFrom
    dsimp only
    split
    · split
      · have hpoint := (hbody.trans (reaches_advance _)).trans
          (reaches_readCodePoint c.advance.advance)
        split <;> rename_i h <;> rw [h] at hpoint
        · exact hpoint
        · exact hpoint.trans (ih ..)
      · exact hbody
    · split
      · exact hbody.trans (ih ..)
      · exact .refl c
    · exact .refl c

theorem reaches_readWord (c : Cursor) : c.Reaches (readWord c).after :=
  reaches_readWordFrom ..

/-! ## numbers -/

theorem reaches_readDigits (isDigit isForbidden : Char → Bool) (last : Option Char)
    (seen : List Char) (misplaced : Bool) (offset : Nat) (rest : List Char) :
    Reaches ⟨rest, offset⟩
      (readDigits isDigit isForbidden last seen misplaced offset rest).after := by
  induction rest generalizing last seen misplaced offset with
  | nil => exact .refl _
  | cons x xs ih =>
    have hnext := reaches_cons x xs offset
    unfold readDigits
    split
    · rename_i hx
      subst hx
      exact hnext.trans (ih ..)
    split
    · exact hnext.trans (ih ..)
    · exact .refl _

theorem reaches_digits (c : Cursor) (isDigit isForbidden : Char → Bool) :
    c.Reaches (c.digits isDigit isForbidden).after :=
  reaches_readDigits ..

theorem after_endNumber (start after : Cursor) (remarks : List Remark) :
    (endNumber start after remarks).after = after := by
  unfold endNumber
  split <;> rfl

theorem reaches_readRadix (c : Cursor) (isDigit isForbidden : Char → Bool) (kind : String) :
    c.Reaches (readRadix c isDigit isForbidden kind).after := by
  have hdigits := (reaches_skip 2 c).trans (reaches_digits (c.skip 2) isDigit isForbidden)
  unfold readRadix
  dsimp only
  split
  · exact hdigits
  split
  · exact hdigits.trans (reaches_advance _)
  · rw [after_endNumber]
    exact hdigits

theorem reaches_readExponent (start c : Cursor) (remarks : List Remark) :
    c.Reaches (readExponent start c remarks).after := by
  have hsign := reaches_advance c
  unfold readExponent
  dsimp only
  split
  · split
    · exact hsign
    · rename_i d _
      have hbody : c.Reaches (if d = '+' ∨ d = '-' then c.advance.advance else c.advance) := by
        split
        · exact hsign.trans (reaches_advance _)
        · exact hsign
      generalize (if d = '+' ∨ d = '-' then c.advance.advance else c.advance) = body at hbody ⊢
      have hdigits := hbody.trans (reaches_digits body isDecimalDigit decimalForbidden)
      split
      · exact hdigits
      · rw [after_endNumber]
        exact hdigits
  · rw [after_endNumber]
    exact .refl c

theorem reaches_readFraction (start c : Cursor) (remarks : List Remark) :
    c.Reaches (readFraction start c remarks).after := by
  unfold readFraction
  dsimp only
  split
  · exact ((reaches_advance c).trans (reaches_digits ..)).trans (reaches_readExponent ..)
  · exact reaches_readExponent ..

theorem reaches_readDecimal (c : Cursor) : c.Reaches (readDecimal c).after := by
  have hdigits := reaches_digits c isDecimalDigit decimalForbidden
  unfold readDecimal
  dsimp only
  split
  · exact hdigits.trans (reaches_advance _)
  split
  · split
    · rw [after_endNumber]
      exact hdigits
    · exact hdigits.trans (reaches_readFraction ..)
  · exact hdigits.trans (reaches_readFraction ..)

theorem reaches_readNumber (c : Cursor) : c.Reaches (readNumber c).after := by
  unfold readNumber
  repeat' split
  all_goals first | exact reaches_readRadix .. | exact reaches_readDecimal c

/-! ## strings, templates, regular expressions -/

theorem reaches_readStringFrom (start : Cursor) (quote : Char) (n : Nat) (remarks : List Remark)
    (c : Cursor) : c.Reaches (readStringFrom start quote n remarks c).after := by
  induction n generalizing remarks c with
  | zero => exact .refl c
  | succ n ih =>
    have hescape := (reaches_advance c).trans (reaches_readEscape false c)
    unfold readStringFrom
    dsimp only
    split
    · split
      · exact hescape
      · exact hescape.trans (ih ..)
    · split
      · exact reaches_advance c
      split
      · exact .refl c
      · exact (reaches_advance c).trans (ih ..)
    · exact .refl c

theorem reaches_readTemplateFrom (start : Nat) (opening : Bool) (n : Nat) (bad : Option Fault)
    (c : Cursor) : c.Reaches (readTemplateFrom start opening n bad c).after := by
  induction n generalizing bad c with
  | zero => exact .refl c
  | succ n ih =>
    unfold readTemplateFrom
    split
    · exact .refl c
    · exact reaches_advance c
    · exact reaches_skip 2 c
    · exact ((reaches_advance c).trans (reaches_readEscape true c)).trans (ih ..)
    · exact (reaches_advance c).trans (ih ..)

theorem reaches_readTemplate (c : Cursor) (opening : Bool) :
    c.Reaches (readTemplate c opening).after :=
  (reaches_advance c).trans (reaches_readTemplateFrom ..)

theorem reaches_regexEnd? {inClass escaped : Bool} {offset : Nat} {rest : List Char}
    {after : Cursor} (h : regexEnd? inClass escaped offset rest = some after) :
    Reaches ⟨rest, offset⟩ after := by
  induction rest generalizing inClass escaped offset with
  | nil => exact absurd h (by simp [regexEnd?])
  | cons x xs ih =>
    have hnext := reaches_cons x xs offset
    unfold regexEnd? at h
    repeat' split at h
    · exact absurd h (by simp)
    · exact hnext.trans (ih h)
    · rename_i hx
      subst hx
      exact hnext.trans (ih h)
    · rename_i hx
      subst hx
      exact hnext.trans (ih h)
    · rename_i hx
      subst hx
      exact hnext.trans (ih h)
    · rename_i hx
      obtain ⟨hx, _⟩ := Bool.and_eq_true_iff.mp hx
      obtain rfl := of_decide_eq_true hx
      obtain rfl := Option.some.inj h
      exact hnext
    · exact hnext.trans (ih h)

/-- a regular expression without an end leaves nothing, and counts as empty -/
theorem reaches_readRegex {c : Cursor} {xs : List Char} (hc : c.rest = '/' :: xs) :
    c.Reaches (readRegex c).after ∨ (readRegex c).after = ⟨[], c.offset⟩ := by
  obtain ⟨rest, offset⟩ := c
  obtain rfl : rest = '/' :: xs := hc
  unfold readRegex
  split
  · exact .inr rfl
  · rename_i after hend
    have hafter : Reaches ⟨'/' :: xs, offset⟩ after :=
      (reaches_cons '/' xs offset).trans (reaches_regexEnd? hend)
    refine .inl ?_
    dsimp only
    repeat' split
    · exact hafter.trans (reaches_readWord after)
    · exact hafter.trans (reaches_readWord after)
    · exact hafter

/-! ## what a string token stands for -/

/-- a string stands between the two cursors, quotes included, and nothing is wrong with it -/
def StringAt (c : Cursor) (raw : String) (d : Cursor) : Prop :=
  ∃ quote remarks, (quote = '\'' ∨ quote = '\x22') ∧ c.next? = some quote ∧
    readString c quote = ⟨.string raw, remarks, d⟩ ∧ ∀ r ∈ remarks, r.condition ≠ .always

/-- a string that was read without a complaint ends with its quote -/
theorem exists_body_readStringFrom {start c d : Cursor} {quote : Char} {n : Nat}
    {remarks found : List Remark} {raw : String} (hn : c.rest.length < n)
    (h : readStringFrom start quote n remarks c = ⟨.string raw, found, d⟩)
    (hfound : ∀ r ∈ found, r.condition ≠ .always) :
    raw = start.textUntil d ∧ ∃ body, c.rest = body ++ quote :: d.rest := by
  induction n generalizing remarks c with
  | zero => exact absurd hn (Nat.not_lt_zero _)
  | succ n ih =>
    unfold readStringFrom at h
    dsimp only at h
    split at h
    · -- an escape takes at least its backslash
      rename_i hnext
      obtain ⟨hrest, -⟩ := advance_of_next? hnext
      have hescape := reaches_readEscape false c
      have hlength := hescape.length_le
      rw [hrest, List.length_cons] at hn
      split at h
      · exact absurd (congrArg Scan.kind h) (by simp [Scan.invalid])
      · obtain ⟨hraw, body, hbody⟩ := ih (by omega) h
        obtain ⟨taken, htaken, -⟩ := hescape
        refine ⟨hraw, '\\' :: taken ++ body, ?_⟩
        rw [hrest, htaken, hbody, List.append_assoc, List.cons_append]
    · rename_i x _ hnext
      obtain ⟨hrest, -⟩ := advance_of_next? hnext
      rw [hrest, List.length_cons] at hn
      split at h
      · rename_i hquote
        obtain ⟨hkind, -, rfl⟩ := Scan.mk.inj h
        exact ⟨(Token.Kind.string.inj hkind).symm, [], by rw [hrest, hquote]; rfl⟩
      split at h
      · obtain ⟨-, rfl, -⟩ := Scan.mk.inj h
        exact absurd rfl (hfound _ (List.mem_append_right _ (List.mem_singleton_self _)))
      · obtain ⟨hraw, body, hbody⟩ := ih (by omega) h
        exact ⟨hraw, x :: body, by rw [hrest, hbody, List.cons_append]⟩
    · obtain ⟨-, rfl, -⟩ := Scan.mk.inj h
      exact absurd rfl (hfound _ (List.mem_append_right _ (List.mem_singleton_self _)))

namespace StringAt

variable {c d : Cursor} {raw : String}

theorem reaches (h : StringAt c raw d) : c.Reaches d := by
  obtain ⟨quote, remarks, -, -, hread, -⟩ := h
  have hreaches : c.Reaches (readString c quote).after :=
    (reaches_advance c).trans (reaches_readStringFrom ..)
  rwa [hread] at hreaches

/-- the token is what stands between the cursors, and quotes stand at its ends -/
theorem text (h : StringAt c raw d) :
    c.rest = raw.toList ++ d.rest ∧ d.offset = c.offset + byteLength raw.toList ∧
      ∃ quote body, (quote = '\'' ∨ quote = '\x22') ∧ raw.toList = quote :: body ++ [quote] := by
  have hreaches := h.reaches
  obtain ⟨quote, remarks, hquote, hnext, hread, hremarks⟩ := h
  obtain ⟨hrest, -⟩ := advance_of_next? hnext
  have hlength := (reaches_advance c).length_le
  obtain ⟨rfl, body, hbody⟩ := exists_body_readStringFrom (by omega) hread hremarks
  obtain ⟨htext, hoffset⟩ := hreaches.textUntil_eq
  refine ⟨htext, hoffset, quote, body, hquote, ?_⟩
  rw [hrest, hbody] at htext
  have hquoted : (c.textUntil d).toList ++ d.rest = quote :: body ++ [quote] ++ d.rest := by
    rw [← htext]
    simp
  exact List.append_cancel_right hquoted

end StringAt

/-! ## tokens -/

/-- neither a string nor a punctuator -/
def Token.Kind.isOther : Token.Kind → Bool
  | .string _ | .symbol _ => false
  | _ => true

/-- a number, a template, a regular expression, or none of the tokens -/
def Token.Kind.isLiteral : Token.Kind → Bool
  | .word _ | .symbol _ | .string _ | .eof => false
  | _ => true

theorem Token.Kind.isOther_of_isLiteral {kind : Token.Kind} (h : kind.isLiteral) : kind.isOther := by
  cases kind <;> first | rfl | exact absurd h Bool.false_ne_true

theorem isLiteral_endNumber (start after : Cursor) (remarks : List Remark) :
    (endNumber start after remarks).kind.isLiteral := by
  unfold endNumber
  split <;> rfl

theorem isLiteral_readExponent (start c : Cursor) (remarks : List Remark) :
    (readExponent start c remarks).kind.isLiteral := by
  unfold readExponent
  dsimp only
  repeat' split
  all_goals first | rfl | exact isLiteral_endNumber ..

theorem isLiteral_readFraction (start c : Cursor) (remarks : List Remark) :
    (readFraction start c remarks).kind.isLiteral := by
  unfold readFraction
  dsimp only
  split <;> exact isLiteral_readExponent ..

theorem isLiteral_readRadix (c : Cursor) (isDigit isForbidden : Char → Bool) (kind : String) :
    (readRadix c isDigit isForbidden kind).kind.isLiteral := by
  unfold readRadix
  dsimp only
  repeat' split
  all_goals first | rfl | exact isLiteral_endNumber ..

theorem isLiteral_readDecimal (c : Cursor) : (readDecimal c).kind.isLiteral := by
  unfold readDecimal
  dsimp only
  repeat' split
  all_goals first | rfl | exact isLiteral_endNumber .. | exact isLiteral_readFraction ..

theorem isLiteral_readNumber (c : Cursor) : (readNumber c).kind.isLiteral := by
  unfold readNumber
  repeat' split
  all_goals first | exact isLiteral_readRadix .. | exact isLiteral_readDecimal c

/-- what begins with a quote is a string, or it cannot be read -/
theorem kind_readStringFrom (start : Cursor) (quote : Char) (n : Nat) (remarks : List Remark)
    (c : Cursor) :
    (∃ raw, (readStringFrom start quote n remarks c).kind = .string raw) ∨
      ∃ fault, (readStringFrom start quote n remarks c).kind = .invalid fault := by
  induction n generalizing remarks c with
  | zero => exact .inl ⟨_, rfl⟩
  | succ n ih =>
    unfold readStringFrom
    dsimp only
    repeat' split
    all_goals first | exact ih _ _ | exact .inl ⟨_, rfl⟩ | exact .inr ⟨_, rfl⟩

theorem isLiteral_readTemplateFrom (start : Nat) (opening : Bool) (n : Nat) (bad : Option Fault)
    (c : Cursor) : (readTemplateFrom start opening n bad c).kind.isLiteral := by
  induction n generalizing bad c with
  | zero => rfl
  | succ n ih =>
    unfold readTemplateFrom
    split
    · rfl
    · cases opening <;> rfl
    · cases opening <;> rfl
    · exact ih ..
    · exact ih ..

theorem isLiteral_readRegex (c : Cursor) : (readRegex c).kind.isLiteral := by
  unfold readRegex
  dsimp only
  repeat' split
  all_goals rfl

theorem prefix_of_read? {rest : List Char} {x : Symbol} (h : Symbol.read? rest = some x) :
    x.text.toList <+: rest := by
  have hmem := List.mem_of_find?_eq_some h
  exact List.isPrefixOf_iff_prefix.mp (List.mem_filter.mp hmem).2

theorem reaches_scan (r : Reserving) (c : Cursor) : c.Reaches (scan r c).after := by
  unfold scan
  dsimp only
  repeat' split
  · exact .refl c
  · exact reaches_readWord c
  · exact reaches_readWord c
  · exact reaches_readWord c
  · exact reaches_readNumber c
  · exact reaches_readFraction ..
  · exact (reaches_advance c).trans (reaches_readStringFrom ..)
  · exact reaches_readTemplate ..
  · exact reaches_skip ..
  · exact reaches_advance c

/-- what is known of a scanned token that a string or a punctuator was read as -/
theorem scan_cases (r : Reserving) (c : Cursor) :
    (scan r c).kind.isOther ∨
      (∃ quote, (quote = '\'' ∨ quote = '\x22') ∧ c.next? = some quote ∧
        scan r c = readString c quote) ∨
      ∃ x, (scan r c).kind = .symbol x ∧ c.rest = x.text.toList ++ (scan r c).after.rest ∧
        (scan r c).after.offset = c.offset + byteLength x.text.toList := by
  unfold scan
  split
  · exact .inl rfl
  rename_i d more hrest
  dsimp only
  split
  · split
    · exact .inl rfl
    · split <;> exact .inl rfl
  split
  · exact .inl (Token.Kind.isOther_of_isLiteral (isLiteral_readNumber c))
  split
  · exact .inl (Token.Kind.isOther_of_isLiteral (isLiteral_readFraction ..))
  split
  · rename_i hquote
    exact .inr (.inl ⟨d, by simpa using hquote, by rw [next?, hrest]; rfl, rfl⟩)
  split
  · exact .inl (Token.Kind.isOther_of_isLiteral (isLiteral_readTemplateFrom ..))
  split
  · rename_i x hx
    obtain ⟨behind, hbehind⟩ := prefix_of_read? hx
    refine .inr (.inr ⟨x, rfl, ?_⟩)
    obtain ⟨rest, offset⟩ := c
    obtain rfl : x.text.toList ++ behind = rest := hbehind
    have hskip := skip_append x.text.toList behind offset
    rw [String.length_toList] at hskip
    show _ = _ ++ (skip x.text.length ⟨x.text.toList ++ behind, offset⟩).rest ∧
      (skip x.text.length ⟨x.text.toList ++ behind, offset⟩).offset = _
    rw [hskip]
    exact ⟨rfl, rfl⟩
  · exact .inl rfl

/-- white space and comments before the next token -/
abbrev Token.blanks (first : Bool) (c : Cursor) : Blanks :=
  skipBlanks .plain first none [] c.offset c.rest

theorem reaches_blanks (first : Bool) (c : Cursor) : c.Reaches (Token.blanks first c).after :=
  reaches_skipBlanks ..

/-- a token begins at a legacy comment before it, at its own text, or, at the end of the text,
where the reading began -/
theorem read_cases (r : Reserving) (first : Bool) (c : Cursor) :
    ∃ start newline, Token.read r first c = (scan r (Token.blanks first c).after).toReading start
        newline (Token.blanks first c).remarks ∧
      ((Token.blanks first c).legacyStart = some start ∨ start = (Token.blanks first c).after.offset ∨
        ((scan r (Token.blanks first c).after).kind = .eof ∧ start = c.offset)) := by
  unfold Token.read
  dsimp only
  split
  · rename_i hkind _
    exact ⟨c.offset, true, rfl, .inr (.inr ⟨hkind, rfl⟩)⟩
  · rename_i start _ hlegacy
    exact ⟨start, true, rfl, .inl hlegacy⟩
  · rename_i start hlegacy _
    exact ⟨start, _, rfl, .inl hlegacy⟩
  · exact ⟨_, _, rfl, .inr (.inl rfl)⟩

section

variable (r : Reserving) (first : Bool) (c : Cursor)

theorem reaches_read : c.Reaches (Token.read r first c).after := by
  obtain ⟨start, newline, hread, -⟩ := read_cases r first c
  rw [hread]
  exact (reaches_blanks first c).trans (reaches_scan r _)

theorem stop_read : (Token.read r first c).token.stop = (Token.read r first c).after.offset := by
  obtain ⟨start, newline, hread, -⟩ := read_cases r first c
  rw [hread]
  rfl

/-- where a token begins, between the white space and the text of the token -/
theorem start_read : c.offset ≤ (Token.read r first c).token.start ∧
    (Token.read r first c).token.start ≤ (Token.blanks first c).after.offset := by
  obtain ⟨start, newline, hread, hstart⟩ := read_cases r first c
  rw [hread]
  show c.offset ≤ start ∧ start ≤ _
  have hblanks := (reaches_blanks first c).offset_le
  rcases hstart with hlegacy | rfl | ⟨-, rfl⟩
  · obtain ⟨d, hd, rfl, -, hafter⟩ := marks_skipBlanks _ _ _ _ _ _ hlegacy
    exact ⟨hd.offset_le, hafter.offset_le⟩
  · exact ⟨hblanks, Nat.le_refl _⟩
  · exact ⟨Nat.le_refl _, hblanks⟩

theorem start_le_stop_read :
    (Token.read r first c).token.start ≤ (Token.read r first c).token.stop := by
  have hscan := (reaches_scan r (Token.blanks first c).after).offset_le
  obtain ⟨start, newline, hread, -⟩ := read_cases r first c
  refine Nat.le_trans (start_read r first c).2 ?_
  rw [hread]
  exact hscan

end

/-- a string token is a string in the text; a legacy comment may stand before it -/
theorem stringAt_read {r : Reserving} {first : Bool} {c : Cursor} {raw : String}
    (hkind : (Token.read r first c).token.kind = .string raw)
    (hremarks : ∀ remark ∈ (Token.read r first c).remarks, remark.condition ≠ .always) :
    ∃ d e, c.Reaches d ∧ d.offset = (Token.read r first c).token.start ∧ d.Reaches e ∧
      (d = e ∨ d.AtLegacyComment) ∧ StringAt e raw (Token.read r first c).after := by
  have hblanks := reaches_blanks first c
  obtain ⟨start, newline, hread, hstart⟩ := read_cases r first c
  rw [hread] at hkind hremarks ⊢
  change (scan r (Token.blanks first c).after).kind = .string raw at hkind
  have hstring : StringAt (Token.blanks first c).after raw
      (scan r (Token.blanks first c).after).after := by
    rcases scan_cases r (Token.blanks first c).after with hother | ⟨quote, hquote, hnext, hscan⟩ |
        ⟨x, hx, -⟩
    · rw [hkind] at hother
      exact absurd hother Bool.false_ne_true
    · refine ⟨quote, (scan r (Token.blanks first c).after).remarks, hquote, hnext, ?_, ?_⟩
      · rw [← hscan, ← hkind]
      · intro remark hremark halways
        refine hremarks remark (List.mem_append_right _ (List.mem_filter.mpr ⟨hremark, ?_⟩)) halways
        rw [halways]
        rfl
    · rw [hx] at hkind
      exact absurd hkind (by simp)
  rcases hstart with hlegacy | rfl | ⟨heof, -⟩
  · obtain ⟨d, hd, hoffset, hat, hafter⟩ := marks_skipBlanks _ _ _ _ _ _ hlegacy
    exact ⟨d, _, hd, hoffset, hafter, .inr hat, hstring⟩
  · exact ⟨_, _, hblanks, rfl, .refl _, .inl rfl, hstring⟩
  · rw [heof] at hkind
    exact absurd hkind (by simp)

/-- the text of a punctuator stands at its end -/
theorem text_read {r : Reserving} {first : Bool} {c : Cursor} {x : Symbol}
    (hkind : (Token.read r first c).token.kind = .symbol x) :
    ∃ e, c.Reaches e ∧ (Token.read r first c).token.start ≤ e.offset ∧
      e.rest = x.text.toList ++ (Token.read r first c).after.rest ∧
      (Token.read r first c).after.offset = e.offset + byteLength x.text.toList := by
  refine ⟨(Token.blanks first c).after, reaches_blanks first c, (start_read r first c).2, ?_⟩
  obtain ⟨start, newline, hread, -⟩ := read_cases r first c
  rw [hread] at hkind ⊢
  change (scan r (Token.blanks first c).after).kind = .symbol x at hkind
  rcases scan_cases r (Token.blanks first c).after with hother | ⟨quote, hquote, hnext, hscan⟩ |
      ⟨y, hy, htext⟩
  · rw [hkind] at hother
    exact absurd hother Bool.false_ne_true
  · rw [hscan] at hkind
    change (readStringFrom _ _ _ _ _).kind = .symbol x at hkind
    rcases kind_readStringFrom _ _ _ _ _ with ⟨raw, hraw⟩ | ⟨fault, hfault⟩
    · exact absurd (hraw.symm.trans hkind) nofun
    · exact absurd (hfault.symm.trans hkind) nofun
  · rw [hkind] at hy
    obtain rfl := Token.Kind.symbol.inj hy
    exact htext

end Bindle.Script
