import Mathlib.Data.List.TakeWhile
import Bindle.Proofs.Script.Strings
import Bindle.Script.StringValue

/-!
# The pieces of a string

The language gives a string its value piece by piece: a character stands for itself, an escape
sequence for a code unit or two, and the end of a line behind a backslash for nothing.

* `Piece.Before p rest`   `p` is a piece as the language has it, before `rest`;
* `Spelling body ps`      a text between quotes falls into these pieces;
* `Spelling.units`        the code units of a text are those of its pieces.

Every string that is read falls into pieces: `exists_spelling_readStringFrom`, and for the strings
of a tree `exists_spelling_of_mem_leaves`.
-/

namespace Bindle.Script

open Bindle.Text Cursor

namespace StringValue

/-! ## the pieces of a string -/

/-- a piece of the text between quotes, with its code units -/
structure Piece where
  written : List Char
  units : List Nat
  octal : Bool := false

/-- the letters for control characters -/
def controls : List (Char × Nat) :=
  [('b', 8), ('t', 9), ('n', 10), ('v', 11), ('f', 12), ('r', 13)]

/-- the digits of an octal escape before `rest`: as many as there are, up to a number below 256 -/
inductive Octal : List Char → List Char → Prop where
  | zero {rest : List Char} (h : rest.head? = some '8' ∨ rest.head? = some '9') : Octal ['0'] rest
  | one {a : Char} {rest : List Char} (ha : isOctalDigit a = true) (hzero : a ≠ '0')
      (h : rest.head?.any isOctalDigit = false) : Octal [a] rest
  | two {a b : Char} {rest : List Char} (ha : isOctalDigit a = true) (hlow : a ≤ '3')
      (hb : isOctalDigit b = true) (h : rest.head?.any isOctalDigit = false) : Octal [a, b] rest
  | high {a b : Char} {rest : List Char} (ha : isOctalDigit a = true) (hhigh : ¬ a ≤ '3')
      (hb : isOctalDigit b = true) : Octal [a, b] rest
  | three {a b c : Char} {rest : List Char} (ha : isOctalDigit a = true) (hlow : a ≤ '3')
      (hb : isOctalDigit b = true) (hc : isOctalDigit c = true) : Octal [a, b, c] rest

/-- a character that stands for itself behind a backslash -/
structure IsOther (e : Char) : Prop where
  control : e ∉ controls.map Prod.fst
  hex : e ≠ 'x'
  unicode : e ≠ 'u'
  octal : isOctalDigit e = false
  line : isLineEnd e = false

/-- the pieces that the language has -/
inductive Piece.Before : Piece → List Char → Prop where
  | character {c : Char} {rest : List Char} (h : c ≠ '\\') :
      Before ⟨[c], characterUnits c, false⟩ rest
  | control {e : Char} {n : Nat} {rest : List Char} (h : (e, n) ∈ controls) :
      Before ⟨['\\', e], [n], false⟩ rest
  | hex {a b : Char} {rest : List Char} (ha : isHexDigit a = true) (hb : isHexDigit b = true) :
      Before ⟨['\\', 'x', a, b], [hexNumber [a, b]], false⟩ rest
  | four {a b c d : Char} {rest : List Char} (h : ∀ e ∈ [a, b, c, d], isHexDigit e = true) :
      Before ⟨['\\', 'u', a, b, c, d], [hexNumber [a, b, c, d]], false⟩ rest
  | point {digits rest : List Char} (hne : digits ≠ []) (h : ∀ e ∈ digits, isHexDigit e = true)
      (hle : hexNumber digits ≤ 0x10FFFF) :
      Before ⟨['\\', 'u', '\x7b'] ++ digits ++ ['\x7d'], unitsOfNumber (hexNumber digits), false⟩
        rest
  | null {rest : List Char} (h : rest.head?.any isDecimalDigit = false) :
      Before ⟨['\\', '0'], [0], false⟩ rest
  | octal {digits rest : List Char} (h : Octal digits rest) :
      Before ⟨'\\' :: digits, [octalNumber digits], true⟩ rest
  | line {e : Char} {rest : List Char} (he : isLineEnd e = true)
      (h : e = '\r' → rest.head? ≠ some '\n') : Before ⟨['\\', e], [], false⟩ rest
  | lines {rest : List Char} : Before ⟨['\\', '\r', '\n'], [], false⟩ rest
  | other {e : Char} {rest : List Char} (h : IsOther e) :
      Before ⟨['\\', e], characterUnits e, false⟩ rest

/-- the text between quotes falls into these pieces -/
inductive Spelling : List Char → List Piece → Prop where
  | nil : Spelling [] []
  | cons {p : Piece} {cs : List Char} {ps : List Piece} (hp : p.Before cs) (h : Spelling cs ps) :
      Spelling (p.written ++ cs) (p :: ps)

theorem Spelling.text {body : List Char} {ps : List Piece} (h : Spelling body ps) :
    body = ps.flatMap Piece.written := by
  induction h with
  | nil => rfl
  | cons _ _ ih => rw [List.flatMap_cons, ← ih]

/-! ## every string that is read falls into pieces -/

theorem rest_skip (n : Nat) (c : Cursor) : (c.skip n).rest = c.rest.drop n := by
  induction n generalizing c with
  | zero => rfl
  | succ n ih =>
    obtain ⟨_ | ⟨x, xs⟩, offset⟩ := c
    · rw [Cursor.skip, ih, List.drop_nil]
      exact List.drop_nil
    · rw [Cursor.skip, ih]
      rfl

theorem takeWhile_go (p : Char → Bool) (seen : List Char) (offset : Nat) (rest : List Char) :
    (Cursor.takeWhile.go p seen offset rest).1 = seen.reverse ++ rest.takeWhile p ∧
      (Cursor.takeWhile.go p seen offset rest).2.rest = rest.dropWhile p := by
  induction rest generalizing seen offset with
  | nil => exact ⟨(List.append_nil _).symm, rfl⟩
  | cons x xs ih =>
    unfold Cursor.takeWhile.go
    split
    · rename_i hx
      obtain ⟨htaken, hrest⟩ := ih (x :: seen) (offset + x.utf8Size)
      rw [htaken, hrest, List.takeWhile_cons_of_pos hx, List.dropWhile_cons_of_pos hx,
        List.reverse_cons, List.append_assoc]
      exact ⟨rfl, rfl⟩
    · rename_i hx
      rw [List.takeWhile_cons_of_neg hx, List.dropWhile_cons_of_neg hx, List.append_nil]
      exact ⟨rfl, rfl⟩

theorem taken_takeWhile (c : Cursor) (p : Char → Bool) :
    (c.takeWhile p).1 = c.rest.takeWhile p ∧
      c.rest = (c.takeWhile p).1 ++ (c.takeWhile p).2.rest := by
  obtain ⟨htaken, hrest⟩ := takeWhile_go p [] c.offset c.rest
  refine ⟨htaken, ?_⟩
  show _ = (Cursor.takeWhile.go p [] c.offset c.rest).1 ++
    (Cursor.takeWhile.go p [] c.offset c.rest).2.rest
  rw [htaken, hrest]
  exact List.takeWhile_append_dropWhile.symm

theorem all_of_takeUpTo (c : Cursor) (limit : Nat) (p : Char → Bool) :
    ∀ e ∈ (c.takeUpTo limit p).1, p e = true :=
  fun _ he => List.mem_takeWhile_imp he

/-- what was taken stands before what is left -/
theorem takeUpTo_append (c : Cursor) (limit : Nat) (p : Char → Bool) :
    c.rest = (c.takeUpTo limit p).1 ++ (c.takeUpTo limit p).2.rest := by
  have hprefix : (c.takeUpTo limit p).1 <+: c.rest :=
    (List.takeWhile_prefix p).trans (List.take_prefix limit c.rest)
  show c.rest = _ ++ (c.skip _).rest
  rw [rest_skip]
  exact (List.prefix_iff_eq_append.mp hprefix).symm

/-- the digits that are taken for an octal escape are those that the language takes -/
theorem octal_of_taken {d : Char} (hd : isOctalDigit d = true) (rest : List Char)
    (hzero : d = '0' → rest.head?.any isOctalDigit = true) :
    Octal (d :: (rest.take (if d ≤ '3' then 2 else 1)).takeWhile isOctalDigit)
      (rest.drop ((rest.take (if d ≤ '3' then 2 else 1)).takeWhile isOctalDigit).length) := by
  have hnone : rest.head?.any isOctalDigit = false → d ≠ '0' := fun h hd' => by
    rw [hzero hd'] at h
    cases h
  cases rest with
  | nil =>
    rw [List.take_nil]
    exact .one hd (hnone rfl) rfl
  | cons a rest =>
    by_cases ha : isOctalDigit a = true
    rotate_left
    · have hne := hnone (by simpa using ha)
      split <;> simp only [List.take_succ_cons, List.takeWhile_cons_of_neg ha] <;>
        exact .one hd hne (by simpa using ha)
    split
    · rename_i hlow
      rw [List.take_succ_cons, List.takeWhile_cons_of_pos ha]
      cases rest with
      | nil => exact .two hd hlow ha rfl
      | cons b rest =>
        by_cases hb : isOctalDigit b = true
        · rw [List.take_succ_cons, List.takeWhile_cons_of_pos hb]
          exact .three hd hlow ha hb
        · rw [List.take_succ_cons, List.takeWhile_cons_of_neg hb]
          exact .two hd hlow ha (by simpa using hb)
    · rename_i hhigh
      rw [List.take_succ_cons, List.takeWhile_cons_of_pos ha]
      exact .high hd hhigh ha

/-- a code point is written with four digits, or with any number of them in braces -/
theorem digits_of_readCodePoint {c after : Cursor} {value : Nat}
    (h : readCodePoint c = (.ok value, after)) :
    (∃ digits, digits.length = 4 ∧ (∀ e ∈ digits, isHexDigit e = true) ∧
        c.rest = digits ++ after.rest) ∨
      ∃ digits, digits ≠ [] ∧ (∀ e ∈ digits, isHexDigit e = true) ∧ hexNumber digits ≤ 0x10FFFF ∧
        c.rest = '\x7b' :: (digits ++ ['\x7d']) ++ after.rest := by
  unfold readCodePoint at h
  dsimp only at h
  split at h
  · rename_i hbrace
    obtain ⟨hrest, -⟩ := advance_of_next? hbrace
    obtain ⟨htaken, hafter⟩ := taken_takeWhile c.advance isHexDigit
    split at h
    · exact absurd (congrArg Prod.fst h) (by simp)
    rename_i hlong
    split at h
    · exact absurd (congrArg Prod.fst h) (by simp)
    rename_i hle
    split at h
    rotate_left
    · exact absurd (congrArg Prod.fst h) (by simp)
    rename_i hclosing
    obtain ⟨-, rfl⟩ := Prod.mk.inj h
    obtain ⟨hbehind, -⟩ := advance_of_next? hclosing
    refine .inr ⟨(c.advance.takeWhile isHexDigit).1, ?_, ?_, Nat.not_lt.mp hle, ?_⟩
    · rintro hnil
      exact hlong (by rw [hnil]; rfl)
    · intro e he
      exact List.mem_takeWhile_imp (htaken ▸ he)
    · rw [hrest, hafter, hbehind, List.cons_append, List.append_assoc]
      rfl
  · split at h
    · rename_i hfour
      obtain ⟨-, rfl⟩ := Prod.mk.inj h
      exact .inl ⟨_, hfour, all_of_takeUpTo c 4 isHexDigit, takeUpTo_append c 4 isHexDigit⟩
    · exact absurd (congrArg Prod.fst h) (by simp)

theorem not_octal_of_not_decimal {d : Char} (h : isDecimalDigit d = false) :
    isOctalDigit d = false := by
  have hseven : d ≤ '7' → d ≤ '9' := fun hd => Char.le_trans hd (by decide : '7' ≤ '9')
  simp only [isDecimalDigit, isOctalDigit, Bool.and_eq_false_iff, decide_eq_false_iff_not] at h ⊢
  exact h.imp_right fun hnine hd => hnine (hseven hd)

/-- a zero without an octal digit behind it is a null character or, before 8 and 9, octal -/
theorem exists_piece_of_zero (rest : List Char) (h : rest.head?.any isOctalDigit = false) :
    ∃ p : Piece, '\\' :: '0' :: rest = p.written ++ rest ∧ p.Before rest := by
  by_cases hdecimal : rest.head?.any isDecimalDigit = true
  · refine ⟨_, rfl, .octal (.zero ?_)⟩
    cases rest with
    | nil => cases hdecimal
    | cons d rest =>
      simp only [List.head?_cons, Option.any_some, isOctalDigit, isDecimalDigit, Bool.and_eq_true,
        Bool.and_eq_false_iff, decide_eq_true_eq, decide_eq_false_iff_not] at h hdecimal
      simp only [List.head?_cons, Option.some.injEq, ← Char.toNat_inj]
      have hlow : '0'.toNat ≤ d.toNat := hdecimal.1
      have hhigh : d.toNat ≤ '9'.toNat := hdecimal.2
      have hseven : ¬ d.toNat ≤ '7'.toNat := h.resolve_left fun hneg => hneg hdecimal.1
      simp only [Char.reduceToNat] at hlow hhigh hseven ⊢
      omega
  · exact ⟨_, rfl, .null (by simpa using hdecimal)⟩

/-- **An escape sequence that is read is one that the language has.** -/
theorem exists_piece_of_readEscape {c : Cursor} (hc : c.next? = some '\\')
    (h : (readEscape false c).complaint = none) :
    ∃ p : Piece, c.rest = p.written ++ (readEscape false c).after.rest ∧
      p.Before (readEscape false c).after.rest := by
  obtain ⟨hrest, -⟩ := advance_of_next? hc
  generalize hbody : c.advance = body at hrest
  unfold readEscape at h ⊢
  dsimp only at h ⊢
  rw [hbody] at h ⊢
  rw [hrest]
  split at h
  · cases h
  · rename_i hx
    obtain ⟨hletter, -⟩ := advance_of_next? hx
    split at h
    rotate_left
    · cases h
    rename_i htwo
    rw [if_pos htwo, hletter, takeUpTo_append body.advance 2 isHexDigit]
    have hdigits := all_of_takeUpTo body.advance 2 isHexDigit
    generalize (body.advance.takeUpTo 2 isHexDigit).1 = digits at htwo hdigits
    match digits, htwo with
    | [a, b], _ =>
      exact ⟨_, rfl, .hex (hdigits a (by simp)) (hdigits b (by simp))⟩
  · rename_i hu
    obtain ⟨hletter, -⟩ := advance_of_next? hu
    split at h
    rotate_left
    · cases h
    rename_i value after hpoint
    rw [hletter]
    dsimp only
    obtain ⟨digits, hfour, hdigits, htext⟩ | ⟨digits, hne, hdigits, hle, htext⟩ :=
      digits_of_readCodePoint hpoint
    · rw [htext]
      match digits, hfour with
      | [a, b, d, e], _ => exact ⟨_, rfl, .four hdigits⟩
    · rw [htext]
      exact ⟨_, rfl, .point hne hdigits hle⟩
  · rename_i hreturn
    obtain ⟨hletter, -⟩ := advance_of_next? hreturn
    rw [hletter]
    dsimp only
    split
    · rename_i hfeed
      obtain ⟨hnext, -⟩ := advance_of_next? hfeed
      rw [hnext]
      exact ⟨_, rfl, .lines⟩
    · rename_i hfeed
      exact ⟨_, rfl, .line rfl fun _ => hfeed⟩
  · rename_i d hx hu hreturn hd
    obtain ⟨hletter, -⟩ := advance_of_next? hd
    rw [hletter]
    split at h
    · rename_i hoctal
      rw [if_pos hoctal]
      split at h
      · rename_i hzero
        rw [if_pos hzero]
        obtain ⟨rfl, hnext⟩ : d = '0' ∧ body.advance.rest.head?.any isOctalDigit = false := by
          simpa [Cursor.next?] using hzero
        exact exists_piece_of_zero _ hnext
      · rename_i hzero
        have hdigits := octal_of_taken hoctal body.advance.rest fun hd => by
          simpa [hd, Cursor.next?] using hzero
        rw [if_neg hzero]
        refine ⟨_, ?_, .octal (rest_skip _ body.advance ▸ hdigits)⟩
        exact congrArg (fun more => '\\' :: d :: more) (takeUpTo_append body.advance _ _)
    · rename_i hoctal
      rw [if_neg hoctal]
      by_cases hline : isLineEnd d = true
      · exact ⟨_, rfl, .line hline fun hd => absurd hd hreturn⟩
      by_cases hcontrol : d ∈ controls.map Prod.fst
      · obtain ⟨⟨_, n⟩, hmem, rfl⟩ := List.mem_map.mp hcontrol
        exact ⟨_, rfl, .control hmem⟩
      · exact ⟨_, rfl, .other ⟨hcontrol, hx, hu, by simpa using hoctal, by simpa using hline⟩⟩

/-- a piece before the closing quote is one before the end as well -/
theorem Piece.Before.of_append {p : Piece} {rest more : List Char} {quote : Char}
    (hquote : quote = '\'' ∨ quote = '\x22') (h : p.Before (rest ++ quote :: more)) :
    p.Before rest := by
  have hhead : ∀ {x : Char → Bool}, (rest ++ quote :: more).head?.any x = false →
      rest.head?.any x = false := fun hx => by
    cases rest with
    | nil => rfl
    | cons => exact hx
  cases h with
  | character h => exact .character h
  | control h => exact .control h
  | hex ha hb => exact .hex ha hb
  | four h => exact .four h
  | point hne h hle => exact .point hne h hle
  | null h => exact .null (hhead h)
  | line he h =>
    refine .line he fun hreturn => ?_
    cases rest with
    | nil => exact (nomatch ·)
    | cons => exact h hreturn
  | lines => exact .lines
  | other h => exact .other h
  | octal h =>
    cases h with
    | zero h =>
      cases rest with
      | nil => rcases hquote with rfl | rfl <;> exact absurd h (by simp)
      | cons => exact .octal (.zero h)
    | one ha hzero h => exact .octal (.one ha hzero (hhead h))
    | two ha hlow hb h => exact .octal (.two ha hlow hb (hhead h))
    | high ha hhigh hb => exact .octal (.high ha hhigh hb)
    | three ha hlow hb hc => exact .octal (.three ha hlow hb hc)

/-- **The text between the quotes of a string that is read falls into pieces.** -/
theorem exists_spelling_readStringFrom {start c d : Cursor} {quote : Char} {n : Nat}
    {remarks found : List Remark} {raw : String} (hquote : quote = '\'' ∨ quote = '\x22')
    (hn : c.rest.length < n)
    (h : readStringFrom start quote n remarks c = ⟨.string raw, found, d⟩)
    (hfound : ∀ r ∈ found, r.condition ≠ .always) :
    ∃ body ps, c.rest = body ++ quote :: d.rest ∧ Spelling body ps := by
  induction n generalizing remarks c with
  | zero => exact absurd hn (Nat.not_lt_zero _)
  | succ n ih =>
    unfold readStringFrom at h
    dsimp only at h
    split at h
    · rename_i hnext
      obtain ⟨hrest, -⟩ := advance_of_next? hnext
      have hlength := (reaches_readEscape false c).length_le
      rw [hrest, List.length_cons] at hn
      split at h
      · exact absurd (congrArg Scan.kind h) (by simp [Scan.invalid])
      · rename_i hcomplaint
        obtain ⟨p, hp, hbefore⟩ := exists_piece_of_readEscape hnext hcomplaint
        obtain ⟨body, ps, hbody, hspelling⟩ := ih (by omega) h
        rw [hbody] at hp hbefore
        exact ⟨p.written ++ body, p :: ps, by rw [hp, List.append_assoc],
          .cons (hbefore.of_append hquote) hspelling⟩
    · rename_i x hslash hnext
      obtain ⟨hrest, -⟩ := advance_of_next? hnext
      rw [hrest, List.length_cons] at hn
      split at h
      · rename_i hend
        obtain ⟨-, -, rfl⟩ := Scan.mk.inj h
        exact ⟨[], [], by rw [hrest, hend]; rfl, .nil⟩
      split at h
      · obtain ⟨-, rfl, -⟩ := Scan.mk.inj h
        exact absurd rfl (hfound _ (List.mem_append_right _ (List.mem_singleton_self _)))
      · obtain ⟨body, ps, hbody, hspelling⟩ := ih (by omega) h
        exact ⟨x :: body, _, by rw [hrest, hbody, List.cons_append],
          .cons (.character fun hx => hslash (hx ▸ rfl)) hspelling⟩
    · obtain ⟨-, rfl, -⟩ := Scan.mk.inj h
      exact absurd rfl (hfound _ (List.mem_append_right _ (List.mem_singleton_self _)))

theorem exists_spelling_of_stringAt {c d : Cursor} {raw : String} (h : StringAt c raw d) :
    ∃ quote body ps, (quote = '\'' ∨ quote = '\x22') ∧ raw.toList = quote :: body ++ [quote] ∧
      Spelling body ps := by
  have htext := h.text.1
  obtain ⟨quote, remarks, hquote, hnext, hread, hremarks⟩ := h
  obtain ⟨hrest, -⟩ := advance_of_next? hnext
  have hlength : c.advance.rest.length < c.rest.length + 1 := by
    rw [hrest, List.length_cons]
    omega
  obtain ⟨body, ps, hbody, hspelling⟩ :=
    exists_spelling_readStringFrom hquote hlength hread hremarks
  refine ⟨quote, body, ps, hquote, ?_, hspelling⟩
  have hall : raw.toList ++ d.rest = quote :: body ++ [quote] ++ d.rest := by
    rw [← htext, hrest, hbody]
    simp
  exact List.append_cancel_right hall

/-- **The strings of a tree fall into pieces.** -/
theorem exists_spelling_of_mem_leaves {source : List Char} {tree : Node} {l : Leaf}
    (h : readTree source = .ok tree) (hl : l ∈ tree.leaves) :
    ∃ quote body ps, (quote = '\'' ∨ quote = '\x22') ∧ l.raw.toList = quote :: body ++ [quote] ∧
      Spelling body ps := by
  obtain ⟨c, d, e, -, -, -, -, hstring, -⟩ := stands_readTree h hl
  exact exists_spelling_of_stringAt hstring

/-! ## the code units of pieces -/

theorem units_nil : units [] = [] := by
  rw [units]

theorem units_cons {c : Char} (h : c ≠ '\\') (cs : List Char) :
    units (c :: cs) = characterUnits c ++ units cs := by
  rw [units.eq_def]
  exact if_neg h

theorem units_escape {e : Char} {cs rest : List Char} {us : List Nat}
    (h : escapeUnits e cs = (us, rest)) : units ('\\' :: e :: cs) = us ++ units rest := by
  rw [units.eq_def]
  simp only [if_true, h]

theorem takeWhile_take_of_head? {p : Char → Bool} {cs : List Char} (h : cs.head?.any p = false)
    (n : Nat) : (cs.take n).takeWhile p = [] := by
  cases cs with
  | nil => rw [List.take_nil, List.takeWhile_nil]
  | cons b cs => cases n <;> simp_all

/-- one digit more is taken only if it is one, and if there is room for it -/
theorem octalDigits_eq {a : Char} {digits rest : List Char} (h : Octal (a :: digits) rest) :
    octalDigits a (digits ++ rest) = a :: digits := by
  unfold octalDigits
  cases h with
  | zero h =>
    rw [List.nil_append, takeWhile_take_of_head? (by rcases h with h | h <;> rw [h] <;> rfl)]
  | one ha hzero h => rw [List.nil_append, takeWhile_take_of_head? h]
  | two ha hlow hb h =>
    rw [if_pos hlow, List.cons_append, List.nil_append, List.take_succ_cons,
      List.takeWhile_cons_of_pos hb, takeWhile_take_of_head? h 1]
  | high ha hhigh hb =>
    rw [if_neg hhigh, List.cons_append, List.nil_append, List.take_succ_cons,
      List.takeWhile_cons_of_pos hb, List.take_zero, List.takeWhile_nil]
  | three ha hlow hb hc =>
    rw [if_pos hlow, List.cons_append, List.cons_append, List.nil_append, List.take_succ_cons,
      List.takeWhile_cons_of_pos hb, List.take_succ_cons, List.takeWhile_cons_of_pos hc,
      List.take_zero, List.takeWhile_nil]

theorem escapeUnits_octal {a : Char} (ha : isOctalDigit a = true) (rest : List Char) :
    escapeUnits a rest = ([octalNumber (octalDigits a rest)],
      rest.drop ((octalDigits a rest).length - 1)) := by
  unfold escapeUnits
  split
  case h_10 => rw [if_pos ha]
  all_goals exact absurd ha (by decide)

theorem escapeUnits_other {e : Char} (h : IsOther e) (rest : List Char) :
    escapeUnits e rest = (characterUnits e, rest) := by
  unfold escapeUnits
  split
  case h_10 => rw [if_neg (by rw [h.octal]; decide), if_neg (by rw [h.line]; decide)]
  case h_7 => exact absurd rfl h.hex
  case h_8 => exact absurd rfl h.unicode
  case h_9 => exact absurd h.line (by decide)
  all_goals exact absurd (by decide) h.control

theorem escapeUnits_four {a b c d : Char} (h : ∀ e ∈ [a, b, c, d], isHexDigit e = true)
    (rest : List Char) :
    escapeUnits 'u' ([a, b, c, d] ++ rest) = ([hexNumber [a, b, c, d]], rest) := by
  have hbrace : a ≠ '\x7b' := fun hbrace => absurd (h a List.mem_cons_self) (by rw [hbrace]; decide)
  rw [List.cons_append, escapeUnits.eq_9 _ fun _ hbody => hbrace (List.cons.inj hbody).1]
  rfl

theorem escapeUnits_point {digits : List Char} (h : ∀ e ∈ digits, isHexDigit e = true)
    (rest : List Char) :
    escapeUnits 'u' ('\x7b' :: (digits ++ ['\x7d']) ++ rest) =
      (unitsOfNumber (hexNumber digits), rest) := by
  have htaken : (digits ++ '\x7d' :: rest).takeWhile isHexDigit = digits := by
    rw [List.takeWhile_append_of_pos h, List.takeWhile_cons_of_neg (by decide), List.append_nil]
  show (unitsOfNumber (hexNumber ((digits ++ ['\x7d'] ++ rest).takeWhile isHexDigit)),
    (digits ++ ['\x7d'] ++ rest).drop
      (((digits ++ ['\x7d'] ++ rest).takeWhile isHexDigit).length + 1)) = _
  rw [List.append_assoc, List.singleton_append, htaken, ← List.drop_drop, List.drop_left]
  rfl

theorem escapeUnits_line {e : Char} {rest : List Char} (he : isLineEnd e = true)
    (h : e = '\r' → rest.head? ≠ some '\n') : escapeUnits e rest = ([], rest) := by
  unfold escapeUnits
  split
  case h_9 => rw [if_neg (h rfl)]
  case h_10 =>
    have hoctal : isOctalDigit e = false := by
      simp only [isLineEnd, Bool.or_eq_true, beq_iff_eq] at he
      rcases he with ((rfl | rfl) | he) | he
      · decide
      · decide
      · rw [← Char.ofNat_toNat e, he]
        decide
      · rw [← Char.ofNat_toNat e, he]
        decide
    rw [if_neg (by rw [hoctal]; decide), if_pos he]
  all_goals exact absurd he (by decide)

theorem Octal.all {digits rest : List Char} (h : Octal digits rest) :
    ∀ e ∈ digits, isOctalDigit e = true := by
  cases h with
  | zero => exact List.forall_mem_singleton.mpr rfl
  | one ha => exact List.forall_mem_singleton.mpr ha
  | two ha _ hb => simp [ha, hb]
  | high ha _ hb => simp [ha, hb]
  | three ha _ hb hc => simp [ha, hb, hc]

theorem Octal.exists_cons {digits rest : List Char} (h : Octal digits rest) :
    ∃ a more, digits = a :: more ∧ isOctalDigit a = true := by
  have hall := h.all
  cases h with
  | _ => exact ⟨_, _, rfl, hall _ List.mem_cons_self⟩

theorem units_append {p : Piece} {cs : List Char} (h : p.Before cs) :
    units (p.written ++ cs) = p.units ++ units cs := by
  cases h with
  | character h => exact units_cons h cs
  | control h =>
    simp only [controls, List.mem_cons, Prod.mk.injEq, List.not_mem_nil, or_false] at h
    rcases h with ⟨rfl, rfl⟩ | ⟨rfl, rfl⟩ | ⟨rfl, rfl⟩ | ⟨rfl, rfl⟩ | ⟨rfl, rfl⟩ | ⟨rfl, rfl⟩ <;>
      exact units_escape rfl
  | hex => exact units_escape rfl
  | four h => exact units_escape (escapeUnits_four h cs)
  | point _ h => exact units_escape (escapeUnits_point h cs)
  | null h =>
    have hnone : cs.head?.any isOctalDigit = false := by
      cases cs with
      | nil => rfl
      | cons d cs => exact not_octal_of_not_decimal h
    refine units_escape ?_
    show escapeUnits '0' cs = _
    rw [escapeUnits_octal (by decide), octalDigits, takeWhile_take_of_head? hnone]
    rfl
  | octal h =>
    obtain ⟨a, more, rfl, ha⟩ := h.exists_cons
    refine units_escape ?_
    show escapeUnits a (more ++ cs) = _
    rw [escapeUnits_octal ha, octalDigits_eq h]
    exact congrArg _ (List.drop_left ..)
  | line he h => exact units_escape (escapeUnits_line he h)
  | lines => exact units_escape rfl
  | other h => exact units_escape (escapeUnits_other h cs)

/-- **The code units of a text are those of its pieces.** -/
theorem Spelling.units {body : List Char} {ps : List Piece} (h : Spelling body ps) :
    units body = ps.flatMap Piece.units := by
  induction h with
  | nil => exact units_nil
  | cons hp _ ih => rw [List.flatMap_cons, units_append hp, ih]

end StringValue

end Bindle.Script
