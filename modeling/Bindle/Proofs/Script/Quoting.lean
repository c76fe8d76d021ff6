import Bindle.Proofs.Script.Literal
import Bindle.Text.Blank
import Bindle.Text.Replace

/-!
# Literals as tokens

What is written for a text is one token, and the token has the text as its value.

* `StaysOpen cs`   reading a string goes on behind `cs`;
* `Sealed cs`      `cs` has no quote but in escapes, and no escape that is cut off;
* `Escapes cs`     what follows `cs` is escaped, by the backslashes at its end.

The two ways of writing differ in a few characters, so each of these is shown of one character at a
time.  Main result: `decode_written`.
-/

namespace Bindle.Script

open Bindle.Text Literal

/-! ## reading on -/

/-- a string that has begun is not ended by `cs`, which is read in one step -/
def StaysOpen (cs : List Char) : Prop :=
  ∀ (start : Cursor) (n offset : Nat) (remarks : List Remark) (rest : List Char),
    ∃ offset', readStringFrom start '\x22' (n + 1) remarks ⟨cs ++ rest, offset⟩ =
      readStringFrom start '\x22' n remarks ⟨rest, offset'⟩

/-- four digits are a code point -/
theorem readCodePoint_four {a b c d : Char} (ha : a ≠ '\x7b')
    (h : ∀ e ∈ [a, b, c, d], isHexDigit e = true) (rest : List Char) (offset : Nat) :
    ∃ value offset', readCodePoint ⟨a :: b :: c :: d :: rest, offset⟩ =
      (.ok value, ⟨rest, offset'⟩) := by
  simp only [List.mem_cons, List.not_mem_nil, or_false, forall_eq_or_imp, forall_eq] at h
  obtain ⟨ha', hb, hc, hd⟩ := h
  have htaken : (⟨a :: b :: c :: d :: rest, offset⟩ : Cursor).takeUpTo 4 isHexDigit =
      ([a, b, c, d], Cursor.skip 4 ⟨a :: b :: c :: d :: rest, offset⟩) := by
    simp only [Cursor.takeUpTo, List.take_succ_cons, List.take_zero, List.takeWhile_cons,
      List.takeWhile_nil, ha', hb, hc, hd, if_true, List.length_cons, List.length_nil]
  have hnext : (⟨a :: b :: c :: d :: rest, offset⟩ : Cursor).next? ≠ some '\x7b' :=
    fun hnext => ha (Option.some.inj hnext)
  have hvalue : readCodePoint ⟨a :: b :: c :: d :: rest, offset⟩ =
      (.ok (hexNumber [a, b, c, d]), Cursor.skip 4 ⟨a :: b :: c :: d :: rest, offset⟩) := by
    rw [readCodePoint, if_neg hnext, htaken]
    rfl
  exact ⟨_, _, hvalue⟩

theorem readEscape_unicodeEscape (m offset : Nat) (rest : List Char) :
    ∃ offset', readEscape false ⟨unicodeEscape m ++ rest, offset⟩ = { after := ⟨rest, offset'⟩ } := by
  obtain ⟨value, offset', h⟩ := readCodePoint_four
    (hexDigit_ne_sign (m / 4096 % 16) (Nat.mod_lt _ (by decide))).2
    (b := hexDigit (m / 256 % 16)) (c := hexDigit (m / 16 % 16)) (d := hexDigit (m % 16))
    (by simp [isHexDigit_hexDigit]) rest (offset + '\\'.utf8Size + 'u'.utf8Size)
  refine ⟨offset', ?_⟩
  rw [readEscape]
  dsimp only [unicodeEscape, List.cons_append, List.nil_append, Cursor.advance, Cursor.next?,
    List.head?]
  rw [h]
  rfl

theorem staysOpen_unicodeEscape (m : Nat) : StaysOpen (unicodeEscape m) := by
  intro start n offset remarks rest
  obtain ⟨offset', h⟩ := readEscape_unicodeEscape m offset rest
  refine ⟨offset', ?_⟩
  rw [readStringFrom]
  dsimp only [unicodeEscape, List.cons_append, List.nil_append, Cursor.next?, List.head?] at h ⊢
  rw [h]
  rfl

theorem staysOpen_plain {c : Char} (hquote : c ≠ '\x22') (hslash : c ≠ '\\') (hfeed : c ≠ '\n')
    (hreturn : c ≠ '\r') : StaysOpen [c] := by
  intro start n offset remarks rest
  refine ⟨offset + c.utf8Size, ?_⟩
  rw [readStringFrom]
  split
  · rename_i hnext
    exact absurd (Option.some.inj hnext) hslash
  · rename_i d _ hnext
    obtain rfl : c = d := Option.some.inj hnext
    rw [if_neg hquote, if_neg (by simp [hfeed, hreturn])]
    rfl
  · rename_i hnext
    exact absurd hnext (Option.some_ne_none _)

theorem staysOpen_quotedChar (c : Char) : StaysOpen (quotedChar c) := by
  unfold quotedChar
  split
  · exact fun _ _ _ _ _ => ⟨_, rfl⟩
  split
  · exact fun _ _ _ _ _ => ⟨_, rfl⟩
  split
  · exact fun _ _ _ _ _ => ⟨_, rfl⟩
  split
  · exact fun _ _ _ _ _ => ⟨_, rfl⟩
  split
  · exact fun _ _ _ _ _ => ⟨_, rfl⟩
  split
  · exact fun _ _ _ _ _ => ⟨_, rfl⟩
  split
  · exact fun _ _ _ _ _ => ⟨_, rfl⟩
  split
  · exact staysOpen_unicodeEscape c.toNat
  · rename_i hquote hslash hfeed hreturn _ _ _ _
    exact staysOpen_plain hquote hslash hfeed hreturn

theorem staysOpen_quoteChar (c : Char) : StaysOpen (quoteChar c) := by
  unfold quoteChar
  split
  · exact staysOpen_unicodeEscape c.toNat
  · exact staysOpen_quotedChar c

/-! ## whole tokens -/

theorem quotedChar_ne_nil (c : Char) : quotedChar c ≠ [] := by
  unfold quotedChar unicodeEscape
  repeat' split
  all_goals exact List.cons_ne_nil _ _

theorem quoteChar_ne_nil (c : Char) : quoteChar c ≠ [] := by
  unfold quoteChar
  split
  · exact List.cons_ne_nil _ _
  · exact quotedChar_ne_nil c

section

variable {write : Char → List Char} (hopen : ∀ c, StaysOpen (write c))

include hopen

/-- what is written for a text goes on up to the quote behind it -/
theorem readStringFrom_flatMap (start : Cursor) {n : Nat} (offset : Nat) (remarks : List Remark)
    (cs rest : List Char) (hn : cs.length < n) :
    ∃ offset', readStringFrom start '\x22' n remarks
        ⟨cs.flatMap write ++ '\x22' :: rest, offset⟩ =
      ⟨.string (start.textUntil ⟨rest, offset'⟩), remarks, ⟨rest, offset'⟩⟩ := by
  induction cs generalizing n offset with
  | nil =>
    obtain ⟨n, rfl⟩ := Nat.exists_eq_add_one_of_ne_zero (Nat.ne_of_gt hn)
    exact ⟨offset + 1, rfl⟩
  | cons c cs ih =>
    obtain ⟨n, rfl⟩ := Nat.exists_eq_add_one_of_ne_zero (Nat.ne_of_gt (Nat.zero_lt_of_lt hn))
    obtain ⟨i, hfirst⟩ := hopen c start n offset remarks (cs.flatMap write ++ '\x22' :: rest)
    obtain ⟨j, hothers⟩ := ih i (Nat.lt_of_succ_lt_succ hn)
    refine ⟨j, ?_⟩
    rw [List.flatMap_cons, List.append_assoc, hfirst, hothers]

omit hopen in
theorem length_le_flatMap (hne : ∀ c, write c ≠ []) (cs : List Char) :
    cs.length ≤ (cs.flatMap write).length := by
  induction cs with
  | nil => exact Nat.le_refl _
  | cons c cs ih =>
    have := List.length_pos_iff.mpr (hne c)
    rw [List.flatMap_cons, List.length_append, List.length_cons]
    omega

/-- in quotes it is one token, whatever stands behind -/
theorem scan_flatMap (hne : ∀ c, write c ≠ []) (r : Reserving) (cs rest : List Char)
    (offset : Nat) : ∃ offset',
      scan r ⟨'\x22' :: (cs.flatMap write ++ '\x22' :: rest), offset⟩ =
        ⟨.string (String.ofList ('\x22' :: cs.flatMap write ++ ['\x22'])), [], ⟨rest, offset'⟩⟩ := by
  generalize hbody : cs.flatMap write ++ '\x22' :: rest = body
  have hfuel : cs.length < ('\x22' :: body).length + 1 := by
    have := length_le_flatMap hne cs
    rw [List.length_cons, ← hbody, List.length_append, List.length_cons]
    omega
  obtain ⟨offset', hstring⟩ := readStringFrom_flatMap hopen ⟨'\x22' :: body, offset⟩
    (offset + '\x22'.utf8Size) [] cs rest hfuel
  rw [hbody] at hstring
  refine ⟨offset', ?_⟩
  have htext : (⟨'\x22' :: body, offset⟩ : Cursor).textUntil ⟨rest, offset'⟩ =
      String.ofList ('\x22' :: cs.flatMap write ++ ['\x22']) := by
    have hwhole : '\x22' :: body = ('\x22' :: cs.flatMap write ++ ['\x22']) ++ rest := by
      rw [← hbody]
      simp
    rw [Cursor.textUntil, hwhole]
    simp only [List.length_append, Nat.add_sub_cancel, List.take_left']
  rw [← htext, ← hstring]
  rfl

end

/-! ## quotes and escapes -/

/-- the backslashes that `cs` ends with -/
def slashesAtEnd (cs : List Char) : Nat := (cs.reverse.takeWhile (· = '\\')).length

/-- what is behind `cs` is escaped -/
def Escapes (cs : List Char) : Prop := slashesAtEnd cs % 2 = 1

theorem not_escapes_nil : ¬ Escapes [] := nofun

theorem escapes_slash (cs : List Char) : Escapes (cs ++ ['\\']) ↔ ¬ Escapes cs := by
  have hone : slashesAtEnd (cs ++ ['\\']) = slashesAtEnd cs + 1 := by
    simp [slashesAtEnd]
  rw [Escapes, Escapes, hone]
  omega

theorem not_escapes_other {c : Char} (h : c ≠ '\\') (cs : List Char) : ¬ Escapes (cs ++ [c]) := by
  have hzero : slashesAtEnd (cs ++ [c]) = 0 := by
    simp [slashesAtEnd, h]
  rw [Escapes, hzero]
  decide

/-- no quote but in escapes, and every escape is whole -/
inductive Sealed : List Char → Prop
  | nil : Sealed []
  | plain {c : Char} {cs : List Char} (hquote : c ≠ '\x22') (hslash : c ≠ '\\')
      (h : Sealed cs) : Sealed (c :: cs)
  | escape (c : Char) {cs : List Char} (h : Sealed cs) : Sealed ('\\' :: c :: cs)

theorem Sealed.append {cs ds : List Char} (h : Sealed cs) (hd : Sealed ds) : Sealed (cs ++ ds) := by
  induction h with
  | nil => exact hd
  | plain hquote hslash _ ih => exact .plain hquote hslash ih
  | escape c _ ih => exact .escape c ih

theorem sealed_flatMap {write : Char → List Char} (h : ∀ c, Sealed (write c)) (cs : List Char) :
    Sealed (cs.flatMap write) := by
  induction cs with
  | nil => exact .nil
  | cons c cs ih => exact (h c).append ih

/-- of all the quotes behind a sealed text with a quote at its end the last one alone is bare -/
theorem Sealed.escapes_iff {cs : List Char} (h : Sealed cs) {lead before after : List Char}
    (hlead : ¬ Escapes lead) (heq : cs ++ ['\x22'] = before ++ '\x22' :: after) :
    Escapes (lead ++ before) ↔ after ≠ [] := by
  induction h generalizing lead before with
  | nil =>
    obtain ⟨rfl, rfl⟩ : before = [] ∧ after = [] := by
      cases before <;> simp_all
    simpa using hlead
  | @plain c cs hquote hslash _ ih =>
    cases before with
    | nil => exact absurd (List.cons.inj heq).1 hquote
    | cons d before =>
      obtain ⟨hd, hrest⟩ := List.cons.inj heq
      rw [List.append_cons, ← hd]
      exact ih (not_escapes_other hslash lead) hrest
  | @escape c cs _ ih =>
    have hslash : Escapes (lead ++ ['\\']) := (escapes_slash lead).mpr hlead
    cases before with
    | nil => exact absurd (List.cons.inj heq).1 (by decide)
    | cons d before =>
      obtain ⟨hd, hrest⟩ := List.cons.inj heq
      rw [List.append_cons, ← hd]
      cases before with
      | nil =>
        -- the quote is the character that was escaped
        rw [← (List.cons.inj hrest).2, List.append_nil]
        exact iff_of_true hslash (by simp)
      | cons e before =>
        obtain ⟨he, hrest⟩ := List.cons.inj hrest
        have hwhole : ¬ Escapes (lead ++ ['\\'] ++ [c]) := by
          by_cases hc : c = '\\'
          · rw [hc, escapes_slash]
            exact fun h => h hslash
          · exact not_escapes_other hc _
        rw [List.append_cons, ← he]
        exact ih hwhole hrest

/-- between quotes it has the outer ones bare and no other -/
theorem Sealed.escapes_between {cs before after : List Char} (h : Sealed cs)
    (heq : '\x22' :: cs ++ ['\x22'] = before ++ '\x22' :: after) :
    Escapes before ↔ before ≠ [] ∧ after ≠ [] := by
  cases before with
  | nil => simp [not_escapes_nil]
  | cons d before =>
    obtain ⟨hd, hrest⟩ := List.cons.inj heq
    have hopened : ¬ Escapes ['\x22'] := not_escapes_other (by decide) []
    have hinner : Escapes ('\x22' :: before) ↔ after ≠ [] := h.escapes_iff hopened hrest
    rw [← hd, hinner]
    simp

theorem sealed_unicodeEscape (m : Nat) : Sealed (unicodeEscape m) := by
  have hdigit : ∀ n < 16, hexDigit n ≠ '\x22' ∧ hexDigit n ≠ '\\' := by decide
  have hplain : ∀ k {cs}, Sealed cs → Sealed (hexDigit (k % 16) :: cs) := fun k _ h =>
    have hk := hdigit (k % 16) (Nat.mod_lt _ (by decide))
    .plain hk.1 hk.2 h
  exact .escape 'u' (hplain _ (hplain _ (hplain _ (hplain _ .nil))))

theorem sealed_quotedChar (c : Char) : Sealed (quotedChar c) := by
  unfold quotedChar
  repeat' split
  all_goals first
    | exact .escape _ .nil
    | exact sealed_unicodeEscape _
    | exact .plain ‹_› ‹_› .nil

theorem sealed_quoteChar (c : Char) : Sealed (quoteChar c) := by
  unfold quoteChar
  split
  · exact sealed_unicodeEscape _
  · exact sealed_quotedChar c

/-! ## line ends -/

theorem isLineEnd_unicodeEscape (m : Nat) : ∀ d ∈ unicodeEscape m, isLineEnd d = false := by
  have hdigit : ∀ n < 16, isLineEnd (hexDigit n) = false := by decide
  have hmod : ∀ k, isLineEnd (hexDigit (k % 16)) = false :=
    fun k => hdigit _ (Nat.mod_lt _ (by decide))
  have hsign : isLineEnd '\\' = false ∧ isLineEnd 'u' = false := by decide
  simp [unicodeEscape, hmod, hsign]

theorem isLineEnd_escape {e : Char} (h : isLineEnd e = false) :
    ∀ d ∈ ['\\', e], isLineEnd d = false :=
  List.forall_mem_cons.mpr ⟨rfl, List.forall_mem_singleton.mpr h⟩

/-- JSON leaves two ends of a line as they are -/
theorem isLineEnd_quotedChar {c : Char} (hc : ¬ (c.toNat = 0x2028 ∨ c.toNat = 0x2029)) :
    ∀ d ∈ quotedChar c, isLineEnd d = false := by
  unfold quotedChar
  repeat' split
  all_goals first
    | exact isLineEnd_escape rfl
    | exact isLineEnd_unicodeEscape _
    | simp_all [isLineEnd]

theorem isLineEnd_quoteChar (c : Char) : ∀ d ∈ quoteChar c, isLineEnd d = false := by
  unfold quoteChar
  split
  · exact isLineEnd_unicodeEscape _
  · exact isLineEnd_quotedChar ‹_›

/-! ## the text that JSON writes -/

/-- a character is replaced wherever it stands -/
theorem replaceAll_singleton (a : Char) (new cs : List Char) :
    replaceAll [a] new cs = cs.flatMap fun c => if c = a then new else [c] := by
  induction cs with
  | nil =>
    rw [replaceAll]
    rfl
  | cons c cs ih =>
    rw [replaceAll, List.flatMap_cons, ← ih]
    by_cases h : c = a
    · simp [h]
    · simp [h, Ne.symm h]

theorem replaceAll_of_not_mem {a : Char} {cs : List Char} (h : a ∉ cs) (new : List Char) :
    replaceAll [a] new cs = cs := by
  rw [replaceAll_singleton]
  induction cs with
  | nil => rfl
  | cons c cs ih =>
    obtain ⟨hc, hcs⟩ := List.ne_and_not_mem_of_not_mem_cons h
    rw [List.flatMap_cons, if_neg (Ne.symm hc), ih hcs]
    rfl

/-- the two ends of a line in a text of JSON, escaped one after the other -/
def escapeLineEnds (cs : List Char) : List Char :=
  replaceAll ['\u2029'] "\\u2029".toList (replaceAll ['\u2028'] "\\u2028".toList cs)

theorem escapeLineEnds_append (cs ds : List Char) :
    escapeLineEnds (cs ++ ds) = escapeLineEnds cs ++ escapeLineEnds ds := by
  simp only [escapeLineEnds, replaceAll_singleton, List.flatMap_append]

theorem escapeLineEnds_of_forall {cs : List Char} (h : ∀ c ∈ cs, isLineEnd c = false) :
    escapeLineEnds cs = cs := by
  have hfirst : '\u2028' ∉ cs := fun hc => absurd (h _ hc) (by decide)
  have hsecond : '\u2029' ∉ cs := fun hc => absurd (h _ hc) (by decide)
  rw [escapeLineEnds, replaceAll_of_not_mem hfirst, replaceAll_of_not_mem hsecond]

theorem escapeLineEnds_quotedChar (c : Char) : escapeLineEnds (quotedChar c) = quoteChar c := by
  unfold quoteChar
  split
  · rename_i h
    obtain rfl | rfl : c = '\u2028' ∨ c = '\u2029' :=
      h.imp (fun h => Char.toNat_inj.mp h) (fun h => Char.toNat_inj.mp h)
    · simp only [escapeLineEnds, replaceAll_singleton]
      decide
    · simp only [escapeLineEnds, replaceAll_singleton]
      decide
  · exact escapeLineEnds_of_forall (isLineEnd_quotedChar ‹_›)

/-- a literal is the text of JSON with these ends of a line escaped, and no escape is taken apart -/
theorem toList_quote (s : String) : (quote s).toList = escapeLineEnds (quoted s).toList := by
  have hbody : ∀ cs : List Char,
      escapeLineEnds (cs.flatMap quotedChar) = cs.flatMap quoteChar := by
    intro cs
    induction cs with
    | nil => exact escapeLineEnds_of_forall (by simp)
    | cons c cs ih =>
      rw [List.flatMap_cons, escapeLineEnds_append, escapeLineEnds_quotedChar, ih,
        List.flatMap_cons]
  have hquote : escapeLineEnds ['\x22'] = ['\x22'] :=
    escapeLineEnds_of_forall (List.forall_mem_singleton.mpr rfl)
  have hopened := escapeLineEnds_append ['\x22'] (s.toList.flatMap quotedChar)
  rw [hquote, hbody] at hopened
  rw [quote, quoted, String.toList_ofList, String.toList_ofList, quotedChars,
    escapeLineEnds_append, hquote]
  exact congrArg (· ++ ['\x22']) hopened.symm

/-! ## literals -/

theorem isLineEnd_quote (s : String) : ∀ c ∈ (quote s).toList, isLineEnd c = false := by
  intro c hc
  rw [quote, String.toList_ofList, quoteChars] at hc
  obtain hc | hc := List.mem_append.mp hc
  · obtain rfl | hc := List.mem_cons.mp hc
    · rfl
    · obtain ⟨d, -, hc⟩ := List.mem_flatMap.mp hc
      exact isLineEnd_quoteChar d c hc
  · obtain rfl := List.mem_singleton.mp hc
    rfl

/-- **What is written for a text is read back, and it is one literal.**  The value of a literal, and
of the key of a module, is the text that it was written for.  A literal is a text of JSON in which
the two ends of a line are escaped that JSON leaves; the quotes at its ends are the only ones that
are not escaped, it has no end of a line, and before any text it is one token. -/
theorem decode_written (s : String) :
    decode (quote s).toList = s ∧
    (∀ id : ModuleId, decode (Bundle.key id).toList = id.text) ∧
    (quote s).toList = escapeLineEnds (quoted s).toList ∧
    (∃ body, (quote s).toList = '\x22' :: body ++ ['\x22']) ∧
    (∀ before after, (quote s).toList = before ++ '\x22' :: after →
      (Escapes before ↔ before ≠ [] ∧ after ≠ [])) ∧
    (∀ c ∈ (quote s).toList, c ≠ '\n' ∧ c ≠ '\r' ∧ c ≠ '\u2028' ∧ c ≠ '\u2029') ∧
    ∀ (r : Reserving) (rest : List Char) (offset : Nat), ∃ offset',
      scan r ⟨(quote s).toList ++ rest, offset⟩ = ⟨.string (quote s), [], ⟨rest, offset'⟩⟩ := by
  have htext : (quote s).toList = '\x22' :: s.toList.flatMap quoteChar ++ ['\x22'] :=
    String.toList_ofList
  refine ⟨decode_quote s, fun id => decode_quoted id.text, toList_quote s, ⟨_, htext⟩, ?_, ?_, ?_⟩
  · intro before after heq
    exact (sealed_flatMap sealed_quoteChar s.toList).escapes_between (htext ▸ heq)
  · intro c hc
    have hend := isLineEnd_quote s c hc
    refine ⟨?_, ?_, ?_, ?_⟩ <;> rintro rfl <;> exact absurd hend (by decide)
  · intro r rest offset
    obtain ⟨offset', hscan⟩ :=
      scan_flatMap staysOpen_quoteChar quoteChar_ne_nil r s.toList rest offset
    refine ⟨offset', ?_⟩
    have hbefore : (quote s).toList ++ rest =
        '\x22' :: (s.toList.flatMap quoteChar ++ '\x22' :: rest) := by
      rw [htext]
      simp
    rw [hbefore, hscan]
    rfl

end Bindle.Script
