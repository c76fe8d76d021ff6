import Bindle.Proofs.Script.Lexer

/-!
# The first word of a text

The first token of a text stays the same when more text is put behind it, if that token is a
reserved word and what comes behind the text does not go on with it.

* `skipBlanks_append`    white space and comments before the token;
* `readWordFrom_append`  the word;
* `read_append`          both.
-/

namespace Bindle.Script

open Bindle.Text

/-! ## white space and comments -/

/-- the code points of white space and line ends -/
def blankCodes : List Nat :=
  [0x09, 0x0A, 0x0B, 0x0C, 0x0D, 0x20, 0x85, 0xA0, 0x1680, 0x2000, 0x2001, 0x2002, 0x2003, 0x2004,
   0x2005, 0x2006, 0x2007, 0x2008, 0x2009, 0x200A, 0x200B, 0x2028, 0x2029, 0x202F, 0x205F, 0x3000,
   0xFEFF]

theorem blankCodes_outside : idStartRanges.toList.all (fun r => blankCodes.all fun n =>
    Nat.blt n r.1 || Nat.blt r.2 n) = true := by
  decide +kernel

theorem blankCodes_ascii : ∀ n ∈ blankCodes, n < 0x80 →
    ((Char.ofNat n).isAlpha || Char.ofNat n == '$' || Char.ofNat n == '_') = false := by
  decide

theorem startsName_of_mem_blankCodes {c : Char} (h : c.toNat ∈ blankCodes) :
    startsName c = false := by
  unfold startsName
  split
  · have hascii := blankCodes_ascii _ h ‹_›
    rwa [Char.ofNat_toNat] at hascii
  · rw [inRanges, ← Array.any_toList, List.any_eq_false]
    intro r hr
    have houtside := List.all_eq_true.mp (List.all_eq_true.mp blankCodes_outside r hr) _ h
    simp only [Bool.or_eq_true, Nat.blt_eq] at houtside
    simp only [Bool.and_eq_true, decide_eq_true_eq]
    omega

theorem mem_blankCodes {c : Char} (h : isLineEnd c = true ∨ isBlank c = true) :
    c.toNat ∈ blankCodes := by
  have hspace : isSpace c = true ∨ c.toNat = 0xFEFF ∨ c.toNat = 0x200B := by
    rcases h with h | h
    · exact .inl (isSpace_of_isLineEnd h)
    · simp only [isBlank, Bool.and_eq_true, Bool.or_eq_true, beq_iff_eq] at h
      exact or_assoc.mp h.2
  simp only [isSpace, Bool.or_eq_true, Bool.and_eq_true, beq_iff_eq, decide_eq_true_eq] at hspace
  simp only [blankCodes, List.mem_cons, List.not_mem_nil, or_false]
  omega

/-- a character that begins a name is no blank and begins no comment -/
theorem not_blank_of_startsName {c : Char} (h : startsName c = true) :
    isLineEnd c ≠ true ∧ isBlank c ≠ true ∧ c ≠ '/' ∧ c ≠ '<' ∧ c ≠ '-' := by
  have hblank : ¬ (isLineEnd c = true ∨ isBlank c = true) := fun hc => by
    have := startsName_of_mem_blankCodes (mem_blankCodes hc)
    rw [h] at this
    exact absurd this.symm Bool.false_ne_true
  refine ⟨fun hc => hblank (.inl hc), fun hc => hblank (.inr hc), ?_, ?_, ?_⟩
  all_goals
    rintro rfl
    exact absurd h (by decide)

theorem skipBlanks_append {mode : BlankMode} {newline : Bool} {legacy legacy' : Option Nat}
    {remarks remarks' : List Remark} {offset offset' : Nat} {cs ds more : List Char} {d : Char}
    (h : (skipBlanks mode newline legacy remarks offset cs).after.rest = d :: ds)
    (hd : startsName d = true) :
    (skipBlanks mode newline legacy' remarks' offset' (cs ++ more)).after.rest =
      d :: ds ++ more := by
  induction cs generalizing mode newline legacy legacy' remarks remarks' offset offset' with
  | nil =>
    unfold skipBlanks at h
    exact absurd h (by simp)
  | cons c cs ih =>
    have hhead : ∀ x, cs.head? = some x → (cs ++ more).head? = some x := fun x hx => by
      rw [List.head?_append, hx, Option.some_or]
    have hbegin : ∀ p : List Char, p.isPrefixOf cs = true → p.isPrefixOf (cs ++ more) = true :=
      fun p hp => List.isPrefixOf_iff_prefix.mpr
        ((List.isPrefixOf_iff_prefix.mp hp).trans (List.prefix_append _ _))
    rw [List.cons_append]
    unfold skipBlanks at h ⊢
    cases mode with
    | line =>
      dsimp only at h ⊢
      split at h
      · rw [if_pos ‹_›]
        exact ih h
      · rw [if_neg ‹_›]
        exact ih h
    | opening => exact ih h
    | closing => exact ih h
    | block =>
      dsimp only at h ⊢
      cases cs with
      | nil =>
        -- the text ends in the comment
        split at h <;> exact absurd h (by unfold skipBlanks; simp)
      | cons x xs =>
        split at h
        · rw [List.cons_append, List.head?_cons, ← List.head?_cons (l := xs), if_pos ‹_›]
          exact ih h
        · rw [List.cons_append, List.head?_cons, ← List.head?_cons (l := xs), if_neg ‹_›]
          exact ih h
    | plain =>
      dsimp only at h ⊢
      split at h
      · rw [if_pos ‹_›]
        exact ih h
      rename_i hline
      rw [if_neg hline]
      split at h
      · rw [if_pos ‹_›]
        exact ih h
      rename_i hblank
      rw [if_neg hblank]
      split at h
      · rename_i hcomment
        obtain ⟨hc, hnext⟩ := Bool.and_eq_true_iff.mp hcomment
        rw [if_pos (Bool.and_eq_true_iff.mpr ⟨hc, decide_eq_true (hhead _ (of_decide_eq_true hnext))⟩)]
        exact ih h
      rename_i hcomment
      split at h
      · rename_i hopening
        obtain ⟨hc, hnext⟩ := Bool.and_eq_true_iff.mp hopening
        have hmore := hhead _ (of_decide_eq_true hnext)
        rw [if_neg (by rw [hmore]; simp), if_pos (by rw [hmore]; simpa using hc)]
        exact ih h
      rename_i hopening
      split at h
      · rename_i hlegacy
        have hslash : c ≠ '/' := by
          rintro rfl
          simp at hlegacy
        have hmore : ((decide (c = '<') && ['!', '-', '-'].isPrefixOf (cs ++ more)) ||
            (newline && decide (c = '-') && ['-', '>'].isPrefixOf (cs ++ more))) = true := by
          simp only [Bool.or_eq_true, Bool.and_eq_true] at hlegacy ⊢
          exact hlegacy.imp (And.imp_right (hbegin _)) (And.imp_right (hbegin _))
        rw [if_neg (by simp [hslash]), if_neg (by simp [hslash]), if_pos hmore]
        exact ih h
      · -- the text stops at a character that begins a name
        obtain ⟨rfl, rfl⟩ := List.cons.inj h
        obtain ⟨-, -, hslash, hless, hminus⟩ := not_blank_of_startsName hd
        rw [if_neg (by simp [hslash]), if_neg (by simp [hslash]), if_neg (by simp [hless, hminus])]
        rfl

/-! ## the word -/

/-- a text that does not go on with a word -/
def EndsWord (text : List Char) : Prop :=
  ∀ c, text.head? = some c → continuesName c = false ∧ c ≠ '\\'

/-- once there was an escape, the word counts as escaped -/
theorem escaped_readWordFrom (start n : Nat) (seen : List Char) (remarks : List Remark)
    (c : Cursor) : (readWordFrom start n seen true remarks c).escaped = true := by
  induction n generalizing seen remarks c with
  | zero => rfl
  | succ n ih =>
    unfold readWordFrom
    dsimp only
    repeat' split
    all_goals first | exact ih .. | rfl

theorem escaped_backslash (start n offset : Nat) (seen : List Char) (escaped : Bool)
    (remarks : List Remark) (cs : List Char) :
    (readWordFrom start (n + 1) seen escaped remarks ⟨'\\' :: cs, offset⟩).escaped = true := by
  unfold readWordFrom
  split
  · dsimp only
    repeat' split
    all_goals first | exact escaped_readWordFrom .. | rfl
  · rename_i hne hnext
    exact absurd (Option.some.inj hnext).symm hne
  · rename_i hnext
    exact absurd hnext (Option.some_ne_none _)

theorem readWordFrom_cons {start n offset : Nat} {seen : List Char} {escaped : Bool}
    {remarks : List Remark} {c : Char} {cs : List Char} (hc : c ≠ '\\') :
    readWordFrom start (n + 1) seen escaped remarks ⟨c :: cs, offset⟩ =
      if continuesName c then
        readWordFrom start n (c :: seen) escaped remarks ⟨cs, offset + c.utf8Size⟩
      else ⟨seen.reverse, escaped, none, remarks, ⟨c :: cs, offset⟩⟩ := by
  rw [readWordFrom]
  split
  · rename_i hnext
    exact absurd (Option.some.inj hnext) hc
  · rename_i hnext
    obtain rfl := Option.some.inj hnext
    rfl
  · rename_i hnext
    exact absurd hnext (Option.some_ne_none _)

theorem readWordFrom_append {start start' n n' offset offset' : Nat} {seen : List Char}
    {remarks remarks' : List Remark} {cs more : List Char} (hn : cs.length < n)
    (hn' : cs.length < n') (hmore : EndsWord more)
    (h : (readWordFrom start n seen false remarks ⟨cs, offset⟩).escaped = false) :
    (readWordFrom start' n' seen false remarks' ⟨cs ++ more, offset'⟩).escaped = false ∧
      (readWordFrom start' n' seen false remarks' ⟨cs ++ more, offset'⟩).fault = none ∧
      (readWordFrom start' n' seen false remarks' ⟨cs ++ more, offset'⟩).name =
        (readWordFrom start n seen false remarks ⟨cs, offset⟩).name ∧
      (readWordFrom start' n' seen false remarks' ⟨cs ++ more, offset'⟩).after.rest =
        (readWordFrom start n seen false remarks ⟨cs, offset⟩).after.rest ++ more := by
  induction cs generalizing n n' offset offset' seen with
  | nil =>
    obtain ⟨n, rfl⟩ := Nat.exists_eq_add_one_of_ne_zero (Nat.ne_of_gt hn)
    obtain ⟨n', rfl⟩ := Nat.exists_eq_add_one_of_ne_zero (Nat.ne_of_gt hn')
    cases more with
    | nil => exact ⟨rfl, rfl, rfl, rfl⟩
    | cons c more =>
      obtain ⟨hname, hslash⟩ := hmore c rfl
      rw [List.nil_append, readWordFrom_cons hslash, if_neg (by rw [hname]; decide)]
      exact ⟨rfl, rfl, rfl, rfl⟩
  | cons c cs ih =>
    obtain ⟨n, rfl⟩ := Nat.exists_eq_add_one_of_ne_zero (Nat.ne_of_gt (Nat.zero_lt_of_lt hn))
    obtain ⟨n', rfl⟩ := Nat.exists_eq_add_one_of_ne_zero (Nat.ne_of_gt (Nat.zero_lt_of_lt hn'))
    by_cases hc : c = '\\'
    · rw [hc, escaped_backslash] at h
      exact absurd h.symm Bool.false_ne_true
    · rw [readWordFrom_cons hc] at h ⊢
      rw [List.cons_append, readWordFrom_cons hc]
      split at h
      · rw [if_pos ‹_›, if_pos ‹_›]
        exact ih (Nat.lt_of_succ_lt_succ hn) (Nat.lt_of_succ_lt_succ hn') h
      · rw [if_neg ‹_›, if_neg ‹_›]
        exact ⟨rfl, rfl, rfl, rfl⟩

/-! ## the token -/

/-- a reserved word is read where a name begins, and without escapes -/
theorem word_of_scan {c : Cursor} {name : String} (hreserved : Reserving.reserves {} name = true)
    (h : (scan {} c).kind = .word name) :
    ∃ d ds, c.rest = d :: ds ∧ startsName d = true ∧ (readWord c).escaped = false ∧
      String.ofList (readWord c).name = name := by
  have not_literal : ∀ k : Token.Kind, k.isLiteral → k ≠ .word name := fun k hk hword => by
    rw [hword] at hk
    exact absurd hk Bool.false_ne_true
  unfold scan at h
  split at h
  · cases h
  rename_i d ds hrest
  dsimp only at h
  split at h
  · rename_i hstarts
    split at h
    · cases h
    split at h
    · cases h
    rename_i hreserves
    have hname : String.ofList (readWord c).name = name := Token.Kind.word.inj h
    rw [hname, hreserved, Bool.and_true] at hreserves
    have hescaped : (readWord c).escaped = false := Bool.eq_false_iff.mpr hreserves
    refine ⟨d, ds, hrest, ?_, hescaped, hname⟩
    rcases Bool.or_eq_true_iff.mp hstarts with hd | hd
    · exact hd
    · obtain ⟨rest, offset⟩ := c
      obtain rfl : rest = d :: ds := hrest
      rw [beq_iff_eq.mp hd, readWord, escaped_backslash] at hescaped
      exact absurd hescaped.symm Bool.false_ne_true
  split at h
  · exact absurd h (not_literal _ (isLiteral_readNumber c))
  split at h
  · exact absurd h (not_literal _ (isLiteral_readFraction ..))
  split at h
  · change (readStringFrom _ _ _ _ _).kind = .word name at h
    rcases kind_readStringFrom _ _ _ _ _ with ⟨raw, hraw⟩ | ⟨fault, hfault⟩
    · cases hraw.symm.trans h
    · cases hfault.symm.trans h
  split at h
  · exact absurd h (not_literal _ (isLiteral_readTemplateFrom ..))
  split at h <;> cases h

/-- a word that is not escaped is the token -/
theorem scan_of_readWord {r : Reserving} {c : Cursor} {d : Char} {ds : List Char}
    (hrest : c.rest = d :: ds) (hd : startsName d = true) (hescaped : (readWord c).escaped = false)
    (hfault : (readWord c).fault = none) :
    scan r c = ⟨.word (String.ofList (readWord c).name), (readWord c).remarks,
      (readWord c).after⟩ := by
  unfold scan
  rw [hrest]
  dsimp only
  rw [hd, Bool.true_or, if_pos rfl, hfault, hescaped]
  rfl

/-- **The first word of a text stays** when the text goes on, on a line of its own. -/
theorem read_append {source more : List Char} {name : String}
    (hreserved : Reserving.reserves {} name = true)
    (h : (Token.read {} true ⟨source, 0⟩).token.kind = .word name) (hmore : EndsWord more) :
    ∃ rest, rest.length ≤ source.length + more.length ∧ ∀ offset,
      (Token.read {} false ⟨'\n' :: (source ++ more), offset⟩).token.kind = .word name ∧
      (Token.read {} false ⟨'\n' :: (source ++ more), offset⟩).after.rest = rest := by
  obtain ⟨start, newline, hread, -⟩ := read_cases {} true ⟨source, 0⟩
  rw [hread] at h
  obtain ⟨d, ds, hrest, hd, hescaped, hname⟩ := word_of_scan hreserved h
  have hlength := ((reaches_blanks true ⟨source, 0⟩).trans (reaches_readWord _)).length_le
  have hblanks : ∀ offset, (Token.blanks false ⟨'\n' :: (source ++ more), offset⟩).after.rest =
      d :: ds ++ more := fun offset => skipBlanks_append hrest hd
  generalize (Token.blanks true ⟨source, 0⟩).after = c at hrest hescaped hname hlength
  refine ⟨(readWord c).after.rest ++ more, ?_, fun offset => ?_⟩
  · rw [List.length_append]
    exact Nat.add_le_add_right hlength _
  obtain ⟨start', newline', hread', -⟩ := read_cases {} false ⟨'\n' :: (source ++ more), offset⟩
  have hbehind := hblanks offset
  rw [hread']
  generalize (Token.blanks false ⟨'\n' :: (source ++ more), offset⟩).after = e at hbehind ⊢
  obtain ⟨rest, i⟩ := c
  obtain rfl : rest = d :: ds := hrest
  obtain ⟨rest', j⟩ := e
  obtain rfl : rest' = d :: ds ++ more := hbehind
  have hword : (readWord ⟨d :: ds ++ more, j⟩).escaped = false ∧
      (readWord ⟨d :: ds ++ more, j⟩).fault = none ∧
      (readWord ⟨d :: ds ++ more, j⟩).name = (readWord ⟨d :: ds, i⟩).name ∧
      (readWord ⟨d :: ds ++ more, j⟩).after.rest = (readWord ⟨d :: ds, i⟩).after.rest ++ more :=
    readWordFrom_append (Nat.lt_succ_self _)
      (Nat.lt_succ_of_le (List.length_append ▸ Nat.le_add_right _ _)) hmore hescaped
  obtain ⟨hescaped', hfault', hname', hrest'⟩ := hword
  have hscan : scan {} ⟨d :: ds ++ more, j⟩ = _ := scan_of_readWord rfl hd hescaped' hfault'
  rw [hscan]
  exact ⟨congrArg Token.Kind.word (hname' ▸ hname), hrest'⟩

end Bindle.Script
