import Bindle.Proofs.Script.Literal
import Bindle.Proofs.Script.Pieces
import Bindle.Proofs.Script.Rewriting

/-!
# Literals and the value of a string by the language

The code units of all pieces of a string together are its value, so two pieces can make one
character.  A literal is decoded one piece at a time, and an octal escape gives its digits.

* `characters us`         code units as characters, U+FFFD for a surrogate without its other half;
* `Piece.own p`           what `Literal.decode` makes of a piece;
* `Joins ps`              a character is written as two escapes, one for each half.

Main result: `decode_eq_characters_iff`, for every string that a call of `require` is given.
-/

namespace Bindle.Script

open Bindle.Text Literal

namespace StringValue

/-! ## code units as characters -/

def unitChar (n : Nat) : Char := if n.isValidChar then Char.ofNat n else replacement

def characters : List Nat → List Char
  | [] => []
  | [n] => [unitChar n]
  | n :: m :: us =>
    if isLead n && isTrail m then
      Char.ofNat (0x10000 + (n - 0xD800) * 0x400 + (m - 0xDC00)) :: characters us
    else unitChar n :: characters (m :: us)

/-- what `Literal.decode` makes of a piece -/
def Piece.own (p : Piece) : List Char :=
  if p.octal then p.written.tail else characters p.units

/-- the last unit of a piece and the first one behind it are the halves of one character -/
def Joins (ps : List Piece) : Prop :=
  ∃ before p after, ps = before ++ p :: after ∧ p.units.getLast?.any isLead = true ∧
    (after.flatMap Piece.units).head?.any isTrail = true

theorem characters_unitsOfNumber {n : Nat} (h : n ≤ 0x10FFFF) :
    characters (unitsOfNumber n) = [unitChar n] := by
  unfold unitsOfNumber
  split
  · rfl
  · rename_i hlarge
    have hlead : isLead (0xD800 + (n - 0x10000) / 0x400) = true := by
      simp only [isLead, Bool.and_eq_true, decide_eq_true_eq]
      omega
    have htrail : isTrail (0xDC00 + (n - 0x10000) % 0x400) = true := by
      simp only [isTrail, Bool.and_eq_true, decide_eq_true_eq]
      omega
    have hvalid : n.isValidChar := .inr (by omega)
    have hback : 0x10000 + (0xD800 + (n - 0x10000) / 0x400 - 0xD800) * 0x400 +
        (0xDC00 + (n - 0x10000) % 0x400 - 0xDC00) = n := by omega
    rw [characters, hlead, htrail, Bool.and_self, if_pos rfl, hback, unitChar, if_pos hvalid,
      characters]

theorem characters_characterUnits (c : Char) : characters (characterUnits c) = [c] := by
  have hvalid : c.toNat.isValidChar := c.valid
  have hle : c.toNat ≤ 0x10FFFF := by
    rcases hvalid with h | h <;> omega
  rw [characterUnits, characters_unitsOfNumber hle, unitChar, if_pos hvalid, Char.ofNat_toNat]

theorem characters_cons_cons {n m : Nat} {us : List Nat} (h : ¬ (isLead n && isTrail m) = true) :
    characters (n :: m :: us) = unitChar n :: characters (m :: us) := by
  rw [characters, if_neg h]

/-- where no character is written in two halves, both parts have their own characters -/
theorem characters_append {us vs : List Nat}
    (h : ¬ (us.getLast?.any isLead = true ∧ vs.head?.any isTrail = true)) :
    characters (us ++ vs) = characters us ++ characters vs := by
  induction us using characters.induct with
  | case1 => rfl
  | case2 n =>
    cases vs with
    | nil => rfl
    | cons m vs =>
      have hpair : ¬ (isLead n && isTrail m) = true := by simpa using h
      exact characters_cons_cons hpair
  | case3 n m us hpair ih =>
    have hlast : ¬ (us.getLast?.any isLead = true ∧ vs.head?.any isTrail = true) := by
      cases us with
      | nil => simp
      | cons => simpa [List.getLast?_cons_cons] using h
    rw [List.cons_append, List.cons_append, characters, if_pos hpair, ih hlast, characters,
      if_pos hpair, List.cons_append]
  | case4 n m us hpair ih =>
    rw [List.getLast?_cons_cons] at h
    have htail := ih h
    rw [List.cons_append] at htail
    rw [List.cons_append, List.cons_append, characters_cons_cons hpair, htail,
      characters_cons_cons hpair, List.cons_append]

/-- where one is, it takes the place of two -/
theorem length_characters_append {us vs : List Nat} (hus : us.getLast?.any isLead = true)
    (hvs : vs.head?.any isTrail = true) :
    (characters (us ++ vs)).length < (characters us).length + (characters vs).length := by
  obtain ⟨us, n, rfl⟩ : ∃ us' n, us = us' ++ [n] := by
    rcases List.eq_nil_or_concat us with rfl | h
    · cases hus
    · simpa using h
  obtain ⟨m, vs, rfl⟩ : ∃ m vs', vs = m :: vs' := by
    cases vs with
    | nil => cases hvs
    | cons m vs => exact ⟨m, vs, rfl⟩
  have hlead : isLead n = true := by simpa using hus
  have htrail : isTrail m = true := by simpa using hvs
  have hlow : isTrail n = false := by
    simp only [isLead, isTrail, Bool.and_eq_true, Bool.and_eq_false_iff, decide_eq_true_eq,
      decide_eq_false_iff_not] at hlead ⊢
    omega
  have hhigh : isLead m = false := by
    simp only [isLead, isTrail, Bool.and_eq_true, Bool.and_eq_false_iff, decide_eq_true_eq,
      decide_eq_false_iff_not] at htrail ⊢
    omega
  have hfirst : ∀ more, characters (us ++ n :: more) = characters us ++ characters (n :: more) :=
    fun more => characters_append (by simp [hlow])
  have hpair : (characters (n :: m :: vs)).length = (characters vs).length + 1 := by
    rw [characters, hlead, htrail, Bool.and_self, if_pos rfl, List.length_cons]
  have hsecond : (characters (m :: vs)).length = (characters vs).length + 1 := by
    have hone : characters ([m] ++ vs) = characters [m] ++ characters vs :=
      characters_append (by simp [hhigh])
    rw [List.singleton_append] at hone
    rw [hone, List.length_append, Nat.add_comm]
    rfl
  rw [List.append_assoc, List.singleton_append, hfirst, hfirst, List.length_append,
    List.length_append, hpair, hsecond]
  show _ + _ < _ + 1 + _
  omega

/-! ## one piece at a time -/

theorem joins_cons {p : Piece} {ps : List Piece} :
    Joins (p :: ps) ↔ (p.units.getLast?.any isLead = true ∧
      (ps.flatMap Piece.units).head?.any isTrail = true) ∨ Joins ps := by
  constructor
  · rintro ⟨before, q, after, heq, hlead, htrail⟩
    cases before with
    | nil =>
      obtain ⟨rfl, rfl⟩ := List.cons.inj heq
      exact .inl ⟨hlead, htrail⟩
    | cons r before =>
      obtain ⟨rfl, rfl⟩ := List.cons.inj heq
      exact .inr ⟨before, q, after, rfl, hlead, htrail⟩
  · rintro (⟨hlead, htrail⟩ | ⟨before, q, after, rfl, hlead, htrail⟩)
    · exact ⟨[], p, ps, rfl, hlead, htrail⟩
    · exact ⟨p :: before, q, after, rfl, hlead, htrail⟩

/-- what can be computed of all octal digits holds of each -/
theorem forall_octal {P : Char → Prop} (h : ∀ n < 56, 48 ≤ n → P (Char.ofNat n)) {a : Char}
    (ha : isOctalDigit a = true) : P a := by
  simp only [isOctalDigit, Bool.and_eq_true, decide_eq_true_eq] at ha
  have := h a.toNat (Nat.lt_succ_of_le ha.2) ha.1
  rwa [Char.ofNat_toNat] at this

/-- the digits of an octal escape are never the character that it stands for -/
theorem Octal.ne_character {digits rest : List Char} (h : Octal digits rest) :
    digits ≠ [unitChar (octalNumber digits)] := by
  cases h with
  | zero => decide
  | one ha => exact forall_octal (P := fun a => [a] ≠ [unitChar (octalNumber [a])]) (by decide) ha
  | two | high | three => exact fun heq => by simpa using congrArg List.length heq

theorem own_of_octal {p : Piece} {rest : List Char} (h : p.Before rest) (hoctal : p.octal = true) :
    (characters p.units).length ≤ p.own.length ∧ p.own ≠ characters p.units := by
  cases h with
  | octal h =>
    refine ⟨?_, h.ne_character⟩
    obtain ⟨a, more, rfl, -⟩ := h.exists_cons
    exact Nat.succ_le_succ (Nat.zero_le _)
  | _ => cases hoctal

/-- what is made of a piece has no fewer characters than it stands for -/
theorem length_own {p : Piece} {rest : List Char} (h : p.Before rest) :
    (characters p.units).length ≤ p.own.length := by
  cases hoctal : p.octal with
  | true => exact (own_of_octal h hoctal).1
  | false => rw [Piece.own, if_neg (by rw [hoctal]; decide)]

theorem own_eq_iff {p : Piece} {rest : List Char} (h : p.Before rest) :
    p.own = characters p.units ↔ p.octal = false := by
  cases hoctal : p.octal with
  | true => exact iff_of_false (own_of_octal h hoctal).2 (by decide)
  | false => exact iff_of_true (by rw [Piece.own, if_neg (by rw [hoctal]; decide)]) rfl

theorem length_characters_flatMap {body : List Char} {ps : List Piece} (h : Spelling body ps) :
    (characters (ps.flatMap Piece.units)).length ≤ (ps.flatMap Piece.own).length := by
  induction h with
  | nil => exact Nat.le_refl _
  | @cons p cs ps hp _ ih =>
    have hown := length_own hp
    rw [List.flatMap_cons, List.flatMap_cons, List.length_append]
    by_cases hjoin : p.units.getLast?.any isLead = true ∧
        (ps.flatMap Piece.units).head?.any isTrail = true
    · have := length_characters_append hjoin.1 hjoin.2
      omega
    · rw [characters_append hjoin, List.length_append]
      omega

/-- **The characters of all pieces are those of the whole text, unless a piece is octal or two
pieces make one character.** -/
theorem flatMap_own_eq_iff {body : List Char} {ps : List Piece} (h : Spelling body ps) :
    ps.flatMap Piece.own = characters (ps.flatMap Piece.units) ↔
      (∀ p ∈ ps, p.octal = false) ∧ ¬ Joins ps := by
  induction h with
  | nil =>
    refine iff_of_true rfl ⟨fun _ h => absurd h List.not_mem_nil, ?_⟩
    rintro ⟨before, p, after, heq, -⟩
    exact absurd heq (by simp)
  | @cons p cs ps hp hspelling ih =>
    have hown := length_own hp
    have hrest := length_characters_flatMap hspelling
    rw [List.flatMap_cons, List.flatMap_cons, joins_cons, List.forall_mem_cons]
    by_cases hjoin : p.units.getLast?.any isLead = true ∧
        (ps.flatMap Piece.units).head?.any isTrail = true
    · -- one character takes the place of two, so the texts have different lengths
      refine iff_of_false (fun heq => ?_) fun h => h.2 (.inl hjoin)
      have hlength := congrArg List.length heq
      rw [List.length_append] at hlength
      have := length_characters_append hjoin.1 hjoin.2
      omega
    · rw [characters_append hjoin]
      constructor
      · intro heq
        have hlength := congrArg List.length heq
        rw [List.length_append, List.length_append] at hlength
        obtain ⟨hfirst, hsecond⟩ := List.append_inj heq (by omega)
        obtain ⟨hoctal, hjoins⟩ := ih.mp hsecond
        exact ⟨⟨(own_eq_iff hp).mp hfirst, hoctal⟩, fun h => h.elim hjoin hjoins⟩
      · rintro ⟨⟨hoctal, hall⟩, hjoins⟩
        rw [(own_eq_iff hp).mpr hoctal, ih.mpr ⟨hall, fun h => hjoins (.inr h)⟩]

/-! ## decoding -/

theorem decodeChars_step {e : Char} {cs rest found : List Char}
    (h : decodeEscape e cs = (found, rest)) :
    decodeChars ('\\' :: e :: cs) = found ++ decodeChars rest := by
  rw [decodeChars.eq_def]
  simp only [if_true, h]

theorem hexChar_eq {digits : List Char} (hne : digits ≠ [])
    (h : ∀ e ∈ digits, isHexDigit e = true) : hexChar digits = unitChar (hexNumber digits) := by
  have hall : digits.all isHexDigit = true := List.all_eq_true.mpr h
  unfold hexChar
  split
  · rename_i rest
    exact absurd (h '+' List.mem_cons_self) (by decide)
  · have hgood : (digits.isEmpty || !digits.all isHexDigit) = false := by simp [hne, hall]
    simp only [hgood]
    rfl

theorem decodeEscape_four {a b c d : Char} (h : ∀ e ∈ [a, b, c, d], isHexDigit e = true)
    (rest : List Char) :
    decodeEscape 'u' ([a, b, c, d] ++ rest) = ([unitChar (hexNumber [a, b, c, d])], rest) := by
  have hcontrol : controlChar? 'u' = none := rfl
  unfold decodeEscape
  rw [← hexChar_eq (List.cons_ne_nil _ _) h, hcontrol]
  dsimp only
  rw [if_neg (by simp), if_neg (by decide), if_pos rfl]
  split
  · rename_i hbrace
    have ha := h a List.mem_cons_self
    rw [(List.cons.inj hbrace).1] at ha
    exact absurd ha (by decide)
  · rfl

theorem decodeEscape_point {digits : List Char} (hne : digits ≠ [])
    (h : ∀ e ∈ digits, isHexDigit e = true) (rest : List Char) :
    decodeEscape 'u' ('\x7b' :: (digits ++ ['\x7d']) ++ rest) =
      ([unitChar (hexNumber digits)], rest) := by
  have htaken : (digits ++ '\x7d' :: rest).takeWhile (· ≠ '\x7d') = digits := by
    have hdigits : ∀ e ∈ digits, decide (e ≠ '\x7d') = true := fun e he =>
      decide_eq_true fun hbrace => absurd (hbrace ▸ h e he) (by decide)
    rw [List.takeWhile_append_of_pos hdigits, List.takeWhile_cons_of_neg (by decide),
      List.append_nil]
  show ([hexChar ((digits ++ ['\x7d'] ++ rest).takeWhile (· ≠ '\x7d'))],
    (digits ++ ['\x7d'] ++ rest).drop
      (((digits ++ ['\x7d'] ++ rest).takeWhile (· ≠ '\x7d')).length + 1)) = _
  rw [List.append_assoc, List.singleton_append, htaken, hexChar_eq hne h, ← List.drop_drop,
    List.drop_left]
  rfl

theorem decodeEscape_null {rest : List Char} (h : rest.head?.any isDecimalDigit = false) :
    decodeEscape '0' rest = (['\x00'], rest) := by
  have hcondition : (decide ('0' = '0') && !rest.head?.any isDecimal) = true := by
    show (true && !rest.head?.any isDecimalDigit) = true
    rw [h]
    rfl
  show (if (decide ('0' = '0') && !rest.head?.any isDecimal) = true then _ else _) = _
  rw [if_pos hcondition]

theorem decodeEscape_line {e : Char} {rest : List Char} (he : isLineEnd e = true)
    (h : e = '\r' → rest.head? ≠ some '\n') : decodeEscape e rest = ([], rest) := by
  simp only [isLineEnd, Bool.or_eq_true, beq_iff_eq] at he
  rcases he with ((rfl | rfl) | he) | he
  · rfl
  · show ([], if rest.head? = some '\n' then rest.tail else rest) = _
    rw [if_neg (h rfl)]
  · rw [← Char.ofNat_toNat e, he]
    rfl
  · rw [← Char.ofNat_toNat e, he]
    rfl

theorem decodeEscape_self {e : Char} {rest : List Char} (hcontrol : controlChar? e = none)
    (hzero : e = '0' → rest.head?.any isDecimalDigit = true) (hx : e ≠ 'x') (hu : e ≠ 'u')
    (hline : isLineEnd e = false) : decodeEscape e rest = ([e], rest) := by
  have hnull : ¬ (decide (e = '0') && !rest.head?.any isDecimal) = true := by
    rw [Bool.and_eq_true, decide_eq_true_eq, Bool.not_eq_true']
    rintro ⟨he, hnone⟩
    exact absurd ((hzero he).symm.trans hnone) (by decide)
  simp only [isLineEnd, Bool.or_eq_false_iff, beq_eq_false_iff_ne] at hline
  obtain ⟨⟨⟨hfeed, hreturn⟩, hseparator⟩, hparagraph⟩ := hline
  unfold decodeEscape
  simp only [hcontrol, if_neg hnull, if_neg hx, if_neg hu, if_neg hreturn]
  rw [if_neg (by simp [hfeed, hseparator, hparagraph])]

/-- the zero of an octal escape has a digit behind it -/
theorem Octal.any_isDecimalDigit {a : Char} {more rest : List Char} (h : Octal (a :: more) rest)
    (hzero : a = '0') : (more ++ rest).head?.any isDecimalDigit = true := by
  have hdecimal : ∀ {b : Char}, isOctalDigit b = true → isDecimalDigit b = true :=
    forall_octal (P := fun b => isDecimalDigit b = true) (by decide)
  cases h with
  | zero h => rcases h with h | h <;> rw [List.nil_append, h] <;> rfl
  | one _ hne => exact absurd hzero hne
  | two _ _ hb | high _ _ hb | three _ _ hb => exact hdecimal hb

theorem decodeChars_plain {text : List Char} (h : ∀ e ∈ text, e ≠ '\\') (cs : List Char) :
    decodeChars (text ++ cs) = text ++ decodeChars cs := by
  induction text with
  | nil => rfl
  | cons e text ih =>
    rw [List.cons_append, decodeChars_cons (h e List.mem_cons_self),
      ih fun d hd => h d (List.mem_cons_of_mem _ hd), List.cons_append]

/-- **Each piece is decoded by itself.** -/
theorem decodeChars_append {p : Piece} {cs : List Char} (h : p.Before cs) :
    decodeChars (p.written ++ cs) = p.own ++ decodeChars cs := by
  cases h with
  | @character c _ h =>
    show _ = characters (characterUnits c) ++ _
    rw [characters_characterUnits]
    exact decodeChars_cons h cs
  | control h =>
    simp only [controls, List.mem_cons, Prod.mk.injEq, List.not_mem_nil, or_false] at h
    rcases h with ⟨rfl, rfl⟩ | ⟨rfl, rfl⟩ | ⟨rfl, rfl⟩ | ⟨rfl, rfl⟩ | ⟨rfl, rfl⟩ | ⟨rfl, rfl⟩ <;>
      exact decodeChars_step rfl
  | @hex a b _ ha hb =>
    have hescape : decodeEscape 'x' (a :: b :: cs) = ([unitChar (hexNumber [a, b])], cs) := by
      rw [← hexChar_eq (List.cons_ne_nil _ _) (by simp [ha, hb])]
      rfl
    exact decodeChars_step hescape
  | four h => exact decodeChars_step (decodeEscape_four h cs)
  | point hne h hle =>
    refine (decodeChars_step (decodeEscape_point hne h cs)).trans ?_
    rw [← characters_unitsOfNumber hle]
    rfl
  | null h => exact decodeChars_step (decodeEscape_null h)
  | octal h =>
    obtain ⟨a, more, rfl, ha⟩ := h.exists_cons
    obtain ⟨hcontrol, hx, hu, hline⟩ := forall_octal (P := fun a => controlChar? a = none ∧
      a ≠ 'x' ∧ a ≠ 'u' ∧ isLineEnd a = false) (by decide) ha
    refine (decodeChars_step
      (decodeEscape_self hcontrol h.any_isDecimalDigit hx hu hline)).trans ?_
    refine congrArg (a :: ·) (decodeChars_plain (fun e he => ?_) cs)
    exact forall_octal (P := (· ≠ '\\')) (by decide) (h.all e (List.mem_cons_of_mem _ he))
  | line he h => exact decodeChars_step (decodeEscape_line he h)
  | lines => exact decodeChars_step rfl
  | @other e _ h =>
    show _ = characters (characterUnits e) ++ _
    rw [characters_characterUnits]
    refine decodeChars_step (decodeEscape_self ?_ ?_ h.hex h.unicode h.line)
    · unfold controlChar?
      split
      case h_7 => rfl
      all_goals exact absurd (by decide) h.control
    · rintro rfl
      exact absurd h.octal (by decide)

theorem Spelling.decodeChars {body : List Char} {ps : List Piece} (h : Spelling body ps) :
    decodeChars body = ps.flatMap Piece.own := by
  induction h with
  | nil => exact decodeChars_nil
  | cons hp _ ih => rw [List.flatMap_cons, decodeChars_append hp, ih]

/-- **A string that a call of `require` is given has its value by the language as its literal,
unless it holds an octal escape, or a character is written as two escapes.**  The literal is put
together from what is made of its pieces. -/
theorem decode_eq_characters_iff {source : List Char} {tree : Node} {l : Leaf}
    (h : readTree source = .ok tree) (hl : tree.Passes l) :
    ∃ quote body ps, (quote = '\'' ∨ quote = '\x22') ∧ l.raw.toList = quote :: body ++ [quote] ∧
      Spelling body ps ∧ units body = ps.flatMap Piece.units ∧
      decode l.raw.toList = String.ofList (ps.flatMap Piece.own) ∧
      (decode l.raw.toList = String.ofList (characters (units body)) ↔
        (∀ p ∈ ps, p.octal = false) ∧ ¬ Joins ps) := by
  obtain ⟨quote, body, ps, hquote, hraw, hspelling⟩ := exists_spelling_of_mem_leaves h hl.mem_leaves
  have hdecode : decode l.raw.toList = String.ofList (ps.flatMap Piece.own) := by
    rw [hraw, decode_between (by rcases hquote with rfl | rfl <;> rfl), hspelling.decodeChars]
  refine ⟨quote, body, ps, hquote, hraw, hspelling, hspelling.units, hdecode, ?_⟩
  rw [hdecode, hspelling.units, String.ofList_inj]
  exact flatMap_own_eq_iff hspelling

/-- a script that is a call of `require` with a string -/
theorem exists_passes (source : List Char) (raw : String)
    (h : (match readTree source with
      | .ok (.mk _ _ _ [.mk _ _ _ [.mk .call _ _ [callee, .mk (.string found) _ _ _]]]) =>
        isRequire callee && found == raw
      | _ => false) = true) :
    ∃ tree l, readTree source = .ok tree ∧ tree.Passes l ∧ l.raw = raw := by
  split at h
  · rename_i hread
    rw [Bool.and_eq_true, beq_iff_eq] at h
    exact ⟨_, _, hread, .part (List.mem_singleton_self _)
      (.part (List.mem_singleton_self _) (.here h.1)), h.2⟩
  · cases h

/-- a half of a character by itself, and a character in one escape -/
theorem not_joins_of_lone_surrogate :
    ∃ tree l, readTree "require('\\ud83d\\u\x7b1F600\x7d\\x41\\n\\0')".toList = .ok tree ∧
      tree.Passes l ∧ decode l.raw.toList = "\ufffd😀A\n\x00" ∧
      ∃ body ps, Spelling body ps ∧ l.raw.toList = '\'' :: body ++ ['\''] ∧
        (∀ p ∈ ps, p.octal = false) ∧ ¬ Joins ps := by
  obtain ⟨tree, l, htree, hl, hraw⟩ := exists_passes
    "require('\\ud83d\\u\x7b1F600\x7d\\x41\\n\\0')".toList
    "'\\ud83d\\u\x7b1F600\x7d\\x41\\n\\0'" (by decide +kernel)
  have hdecode : decode l.raw.toList = "\ufffd😀A\n\x00" := by
    rw [hraw]
    decide +kernel
  obtain ⟨quote, body, ps, -, hbody, hspelling, -, -, hiff⟩ := decode_eq_characters_iff htree hl
  have hquoted : '\'' :: "\\ud83d\\u\x7b1F600\x7d\\x41\\n\\0".toList ++ ['\''] =
      quote :: body ++ [quote] := by
    rw [← hbody, hraw]
    decide
  obtain ⟨rfl, hrest⟩ := List.cons.inj hquoted
  obtain rfl := List.append_cancel_right hrest
  refine ⟨tree, l, htree, hl, hdecode, _, ps, hspelling, hbody, hiff.mp ?_⟩
  rw [hdecode]
  decide +kernel

/-- **Two escapes for one character are two characters, and an octal escape is its digits.** -/
theorem literal_ne_value :
    (∃ tree l, readTree "require('\\ud83d\\ude00')".toList = .ok tree ∧ tree.Passes l ∧
      l.raw = "'\\ud83d\\ude00'" ∧ decode l.raw.toList = "\ufffd\ufffd" ∧
      characters (units "\\ud83d\\ude00".toList) = ['😀']) ∧
    ∃ tree l, readTree "require('\\101')".toList = .ok tree ∧ tree.Passes l ∧
      l.raw = "'\\101'" ∧ decode l.raw.toList = "101" ∧
      characters (units "\\101".toList) = ['A'] := by
  constructor
  · obtain ⟨tree, l, htree, hl, hraw⟩ := exists_passes
      "require('\\ud83d\\ude00')".toList "'\\ud83d\\ude00'" (by decide +kernel)
    exact ⟨tree, l, htree, hl, hraw, by rw [hraw]; decide +kernel, by decide +kernel⟩
  · obtain ⟨tree, l, htree, hl, hraw⟩ := exists_passes "require('\\101')".toList
      "'\\101'" (by decide +kernel)
    exact ⟨tree, l, htree, hl, hraw, by rw [hraw]; decide +kernel, by decide +kernel⟩

end StringValue

end Bindle.Script
