import Bindle.Proofs.Script.Lexer

/-!
# Tokens of a source that stands in another text

A `Frame` is a source with the bytes before it and the text behind it in another one.  The text
behind is a comment line, so the lexer reads the same tokens in both, at places that differ by the
bytes before.  It does not when a token or a comment runs into the end of the source; then
something is wrong with the token.

* `Frame.cursor`, `Frame.fault`, `Frame.reading` and the like   places of the source in the text;
* `Reading.Wrong`       a token that could not be read, or with a remark that always counts;
* `Frame.Alike`         two readings of one token;
* `Frame.read_cursor`   from a place of the source, either all readings are wrong or all are alike.
-/

namespace Bindle.Script

open Bindle.Text

/-- nothing, or a line end and a comment without line ends -/
def IsCommentLine (text : List Char) : Prop :=
  text = [] ∨ ∃ words, text = '\n' :: '/' :: '/' :: words ∧ ∀ c ∈ words, isLineEnd c = false

/-- a source, with what stands around it in another text -/
structure Frame where
  source : List Char
  /-- the number of bytes before the source -/
  before : Nat
  behind : List Char
  comment : IsCommentLine behind

/-- no token could be read, or a remark that always counts was made -/
def Scan.Wrong (s : Scan) : Prop :=
  (∃ fault, s.kind = .invalid fault) ∨ ∃ r ∈ s.remarks, r.condition = .always

/-- the token could not be read, or a remark that always counts was made -/
def Reading.Wrong (r : Reading) : Prop :=
  (∃ fault, r.token.kind = .invalid fault) ∨ ∃ remark ∈ r.remarks, remark.condition = .always

theorem Scan.Wrong.toReading {s : Scan} (h : s.Wrong) (start : Nat) (newline : Bool)
    (remarks : List Remark) : (s.toReading start newline remarks).Wrong := by
  rcases h with h | ⟨remark, hmem, halways⟩
  · exact .inl h
  · refine .inr ⟨remark, List.mem_append_right _ (List.mem_filter.mpr ⟨hmem, ?_⟩), halways⟩
    rw [halways]
    rfl

namespace Frame

variable {w : Frame}

/-! ## places in the text -/

def cursor (w : Frame) (c : Cursor) : Cursor := ⟨c.rest ++ w.behind, c.offset + w.before⟩

def fault (w : Frame) (f : Fault) : Fault := ⟨f.complaint, f.offset + w.before⟩

def remark (w : Frame) (r : Remark) : Remark := ⟨r.condition, w.fault r.fault⟩

def kind (w : Frame) : Token.Kind → Token.Kind
  | .template part bad => .template part (bad.map w.fault)
  | .invalid f => .invalid (w.fault f)
  | k => k

def scanned (w : Frame) (s : Scan) : Scan :=
  ⟨w.kind s.kind, s.remarks.map w.remark, w.cursor s.after⟩

theorem head?_behind {d : Char} (h : w.behind.head? = some d) : d = '\n' := by
  rcases w.comment with hnil | ⟨words, hline, -⟩
  · rw [hnil] at h
    cases h
  · rw [hline] at h
    exact (Option.some.inj h).symm

/-- the character behind the source is no other than a line end -/
theorem any_head?_append {p : Char → Bool} (hp : p '\n' = false) (rest : List Char) :
    (rest ++ w.behind).head?.any p = rest.head?.any p := by
  cases rest with
  | cons c rest => rfl
  | nil =>
    rw [List.nil_append]
    cases h : w.behind.head? with
    | none => rfl
    | some d =>
      rw [head?_behind h]
      exact hp

theorem head?_append_eq_iff {d : Char} (hd : d ≠ '\n') (rest : List Char) :
    (rest ++ w.behind).head? = some d ↔ rest.head? = some d := by
  cases rest with
  | cons c rest => exact Iff.rfl
  | nil =>
    rw [List.nil_append]
    constructor
    · intro h
      exact absurd (head?_behind h) hd
    · intro h
      cases h

theorem next?_cursor_eq_iff {d : Char} (hd : d ≠ '\n') (c : Cursor) :
    (w.cursor c).next? = some d ↔ c.next? = some d :=
  head?_append_eq_iff hd c.rest

theorem any_next?_cursor {p : Char → Bool} (hp : p '\n' = false) (c : Cursor) :
    (w.cursor c).next?.any p = c.next?.any p :=
  any_head?_append hp c.rest

theorem next?_cursor {c : Cursor} (h : c.rest ≠ []) : (w.cursor c).next? = c.next? := by
  obtain ⟨_ | ⟨d, rest⟩, offset⟩ := c
  · exact absurd rfl h
  · rfl

theorem next?_cursor_of_nil {c : Cursor} {d : Char} (h : c.rest = [])
    (hd : (w.cursor c).next? = some d) : d = '\n' := by
  obtain ⟨rest, offset⟩ := c
  obtain rfl : rest = [] := h
  exact head?_behind hd

theorem advance_cursor {c : Cursor} (h : c.rest ≠ []) :
    (w.cursor c).advance = w.cursor c.advance := by
  obtain ⟨_ | ⟨d, rest⟩, offset⟩ := c
  · exact absurd rfl h
  · show Cursor.mk _ (offset + w.before + d.utf8Size) = Cursor.mk _ (offset + d.utf8Size + w.before)
    rw [Nat.add_right_comm]
    rfl

theorem rest_ne_nil_of_next? {c : Cursor} {d : Char} (h : c.next? = some d) : c.rest ≠ [] := by
  intro hnil
  rw [Cursor.next?, hnil] at h
  cases h

theorem takeWhile_go_append {p : Char → Bool} (hp : p '\n' = false) (seen : List Char)
    (offset : Nat) (rest : List Char) :
    Cursor.takeWhile.go p seen (offset + w.before) (rest ++ w.behind) =
      ((Cursor.takeWhile.go p seen offset rest).1,
        w.cursor (Cursor.takeWhile.go p seen offset rest).2) := by
  induction rest generalizing seen offset with
  | nil =>
    rw [List.nil_append]
    rcases w.comment with hnil | ⟨words, hline, -⟩
    · rw [hnil]
      simp only [Cursor.takeWhile.go, cursor, hnil, List.append_nil]
    · rw [hline]
      simp only [Cursor.takeWhile.go, hp, cursor, hline, List.nil_append, Bool.false_eq_true,
        if_false]
  | cons c rest ih =>
    rw [List.cons_append, Cursor.takeWhile.go, Cursor.takeWhile.go]
    split
    · rw [Nat.add_right_comm, ih]
    · rfl

theorem takeWhile_cursor {p : Char → Bool} (hp : p '\n' = false) (c : Cursor) :
    (w.cursor c).takeWhile p = ((c.takeWhile p).1, w.cursor (c.takeWhile p).2) :=
  takeWhile_go_append hp [] c.offset c.rest

theorem skip_cursor {n : Nat} {c : Cursor} (h : n ≤ c.rest.length) :
    (w.cursor c).skip n = w.cursor (c.skip n) := by
  induction n generalizing c with
  | zero => rfl
  | succ n ih =>
    obtain ⟨_ | ⟨d, rest⟩, offset⟩ := c
    · exact absurd h (Nat.not_succ_le_zero n)
    · rw [Cursor.skip, advance_cursor (List.cons_ne_nil d rest)]
      exact ih (Nat.le_of_succ_le_succ h)

theorem takeWhile_take_append {p : Char → Bool} (hp : p '\n' = false) (limit : Nat)
    (rest : List Char) :
    ((rest ++ w.behind).take limit).takeWhile p = (rest.take limit).takeWhile p := by
  induction rest generalizing limit with
  | nil =>
    rw [List.nil_append, List.take_nil]
    rcases w.comment with hnil | ⟨words, hline, -⟩
    · rw [hnil, List.take_nil]
    · rw [hline]
      cases limit with
      | zero => rfl
      | succ limit => rw [List.take_succ_cons, List.takeWhile_cons_of_neg (by simp [hp])]; rfl
  | cons c rest ih =>
    cases limit with
    | zero => rfl
    | succ limit =>
      rw [List.cons_append, List.take_succ_cons, List.take_succ_cons, List.takeWhile_cons,
        List.takeWhile_cons, ih]

theorem takeUpTo_cursor {p : Char → Bool} (hp : p '\n' = false) (limit : Nat) (c : Cursor) :
    (w.cursor c).takeUpTo limit p = ((c.takeUpTo limit p).1, w.cursor (c.takeUpTo limit p).2) := by
  have htaken : ((w.cursor c).rest.take limit).takeWhile p = (c.rest.take limit).takeWhile p :=
    takeWhile_take_append hp limit c.rest
  have hlength : ((c.rest.take limit).takeWhile p).length ≤ c.rest.length :=
    Nat.le_trans (List.takeWhile_sublist p).length_le (List.length_take_le' _ _)
  unfold Cursor.takeUpTo
  dsimp only
  rw [htaken, skip_cursor hlength]

/-! ## escapes and words -/

theorem readCodePoint_cursor (c : Cursor) :
    readCodePoint (w.cursor c) = ((readCodePoint c).1, w.cursor (readCodePoint c).2) := by
  unfold readCodePoint
  by_cases hbrace : c.next? = some '\x7b'
  · have hrest := rest_ne_nil_of_next? hbrace
    rw [if_pos hbrace, if_pos ((next?_cursor_eq_iff (by decide) c).mpr hbrace),
      advance_cursor hrest, takeWhile_cursor (by decide)]
    generalize c.advance.takeWhile isHexDigit = r
    obtain ⟨digits, after⟩ := r
    dsimp only
    split
    · rfl
    split
    · rfl
    by_cases hclose : after.next? = some '\x7d'
    · rw [if_pos hclose, if_pos ((next?_cursor_eq_iff (by decide) after).mpr hclose),
        advance_cursor (rest_ne_nil_of_next? hclose)]
    · rw [if_neg hclose, if_neg (mt (next?_cursor_eq_iff (by decide) after).mp hclose)]
  · rw [if_neg hbrace, if_neg (mt (next?_cursor_eq_iff (by decide) c).mp hbrace),
      takeUpTo_cursor (by decide)]
    generalize c.takeUpTo 4 isHexDigit = r
    obtain ⟨digits, after⟩ := r
    dsimp only
    split <;> rfl

def escape (w : Frame) (e : Escape) : Escape := ⟨e.complaint, e.octal, w.cursor e.after⟩

/-- an escape that does not run into the end of the source -/
theorem readEscape_cursor (inTemplate : Bool) {c : Cursor} (h : c.rest ≠ []) :
    (readEscape inTemplate c).after.rest = [] ∨
      readEscape inTemplate (w.cursor c) = w.escape (readEscape inTemplate c) := by
  by_cases hbody : c.advance.rest = []
  · refine .inl ?_
    have hnext : c.advance.next? = none := by rw [Cursor.next?, hbody]; rfl
    unfold readEscape
    dsimp only
    rw [hnext]
    exact hbody
  · have hnext := next?_cursor (w := w) hbody
    have hadvance := advance_cursor (w := w) hbody
    unfold readEscape
    rw [advance_cursor h]
    dsimp only
    rw [hnext]
    split
    · exact .inr rfl
    · refine .inr ?_
      rw [hadvance, takeUpTo_cursor (by decide)]
      generalize c.advance.advance.takeUpTo 2 isHexDigit = r
      obtain ⟨digits, after⟩ := r
      dsimp only
      split <;> rfl
    · refine .inr ?_
      rw [hadvance, readCodePoint_cursor]
      generalize readCodePoint c.advance.advance = r
      obtain ⟨value | complaint, after⟩ := r <;> rfl
    · rw [hadvance]
      by_cases hend : c.advance.advance.rest = []
      · refine .inl ?_
        have hnone : c.advance.advance.next? = none := by rw [Cursor.next?, hend]; rfl
        rw [hnone, if_neg (by simp)]
        exact hend
      · refine .inr ?_
        rw [next?_cursor hend, advance_cursor hend]
        split <;> rfl
    · refine .inr ?_
      rw [hadvance, any_next?_cursor (by decide)]
      repeat' split
      all_goals first | rfl | rw [takeUpTo_cursor (by decide)]; rfl

def word (w : Frame) (x : Word) : Word :=
  ⟨x.name, x.escaped, x.fault.map w.fault, x.remarks.map w.remark, w.cursor x.after⟩

theorem length_advance {c : Cursor} (h : c.rest ≠ []) :
    c.advance.rest.length + 1 = c.rest.length := by
  obtain ⟨_ | ⟨d, rest⟩, offset⟩ := c
  · exact absurd rfl h
  · rfl

/-- a word ends before a line end; `n` and `m` are enough for all that is left -/
theorem readWordFrom_cursor (start : Nat) {n m : Nat} (seen : List Char) (escaped : Bool)
    (remarks : List Remark) {c : Cursor} (hn : c.rest.length < n) (hm : c.rest.length < m) :
    readWordFrom (start + w.before) m seen escaped (remarks.map w.remark) (w.cursor c) =
      w.word (readWordFrom start n seen escaped remarks c) := by
  induction n generalizing m seen escaped remarks c with
  | zero => exact absurd hn (Nat.not_lt_zero _)
  | succ n ih =>
    cases m with
    | zero => exact absurd hm (Nat.not_lt_zero _)
    | succ m =>
      unfold readWordFrom
      by_cases hrest : c.rest = []
      · have hnone : c.next? = none := by rw [Cursor.next?, hrest]; rfl
        rw [hnone]
        cases hnext : (w.cursor c).next? with
        | none => rfl
        | some d =>
          obtain rfl := next?_cursor_of_nil hrest hnext
          rfl
      · have hlength := length_advance hrest
        rw [next?_cursor hrest, advance_cursor hrest]
        dsimp only
        split
        · by_cases hu : c.advance.next? = some 'u'
          · have hu' := (next?_cursor_eq_iff (w := w) (by decide) c.advance).mpr hu
            have hpoint := (reaches_readCodePoint c.advance.advance).length_le
            have hbody := length_advance (rest_ne_nil_of_next? hu)
            rw [if_pos hu, if_pos hu', advance_cursor (rest_ne_nil_of_next? hu),
              readCodePoint_cursor]
            generalize readCodePoint c.advance.advance = r at hpoint ⊢
            obtain ⟨complaint | value, after⟩ := r
            · rfl
            · dsimp only at hpoint ⊢
              rw [← ih _ _ _ (by omega) (by omega : after.rest.length < m)]
              rw [apply_ite (List.map w.remark), List.map_append]
              rfl
          · rw [if_neg hu, if_neg (mt (next?_cursor_eq_iff (by decide) c.advance).mp hu)]
            rfl
        · split
          · exact ih _ _ _ (by omega) (by omega)
          · rfl
        · rfl

theorem readWord_cursor (c : Cursor) : readWord (w.cursor c) = w.word (readWord c) := by
  have hlength : c.rest.length < (w.cursor c).rest.length + 1 := by
    show _ < (c.rest ++ w.behind).length + 1
    rw [List.length_append]
    omega
  exact readWordFrom_cursor c.offset [] false [] (Nat.lt_succ_self _) hlength

/-! ## numbers -/

def digits (w : Frame) (d : Digits) : Digits := ⟨d.taken, d.misplaced, w.cursor d.after⟩

theorem readDigits_append {isDigit isForbidden : Char → Bool} (hdigit : isDigit '\n' = false)
    (hforbidden : isForbidden '\n' = false) (last : Option Char) (seen : List Char)
    (misplaced : Bool) (offset : Nat) (rest : List Char) :
    readDigits isDigit isForbidden last seen misplaced (offset + w.before) (rest ++ w.behind) =
      w.digits (readDigits isDigit isForbidden last seen misplaced offset rest) := by
  induction rest generalizing last seen misplaced offset with
  | nil =>
    rw [List.nil_append, readDigits]
    rcases w.comment with hnil | ⟨words, hline, -⟩
    · rw [hnil]
      simp only [readDigits, digits, cursor, hnil, List.append_nil]
    · rw [hline, readDigits, if_neg (by decide), if_neg (by simp [hdigit])]
      simp only [digits, cursor, hline, List.nil_append]
  | cons c rest ih =>
    rw [List.cons_append, readDigits, readDigits, any_head?_append hdigit,
      any_head?_append hforbidden]
    split
    · rw [Nat.add_right_comm, ih]
    split
    · rw [Nat.add_right_comm, ih]
    · rfl

theorem digits_cursor {isDigit isForbidden : Char → Bool} (hdigit : isDigit '\n' = false)
    (hforbidden : isForbidden '\n' = false) (c : Cursor) :
    (w.cursor c).digits isDigit isForbidden = w.digits (c.digits isDigit isForbidden) :=
  readDigits_append hdigit hforbidden none [] false c.offset c.rest

theorem textUntil_cursor {c d : Cursor} (h : d.rest.length ≤ c.rest.length) :
    (w.cursor c).textUntil (w.cursor d) = c.textUntil d := by
  have hlength : (w.cursor c).rest.length - (w.cursor d).rest.length =
      c.rest.length - d.rest.length := by
    simp only [cursor, List.length_append]
    omega
  unfold Cursor.textUntil
  rw [hlength]
  congr 1
  exact List.take_append_of_le_length (Nat.sub_le _ _)

theorem endNumber_cursor {start after : Cursor} (h : start.Reaches after)
    (remarks : List Remark) :
    endNumber (w.cursor start) (w.cursor after) (remarks.map w.remark) =
      w.scanned (endNumber start after remarks) := by
  unfold endNumber
  rw [any_next?_cursor (by decide), textUntil_cursor h.length_le]
  split <;> rfl

theorem separatorRemark_cursor (d : Digits) (offset : Nat) :
    separatorRemark (w.digits d) (offset + w.before) = (separatorRemark d offset).map w.remark := by
  unfold separatorRemark digits
  dsimp only
  split <;> rfl

theorem readRadix_cursor {isDigit isForbidden : Char → Bool} (hdigit : isDigit '\n' = false)
    (hforbidden : isForbidden '\n' = false) (kind : String) {c : Cursor}
    (h : 2 ≤ c.rest.length) :
    readRadix (w.cursor c) isDigit isForbidden kind =
      w.scanned (readRadix c isDigit isForbidden kind) := by
  have hreaches := (Cursor.reaches_skip 2 c).trans (reaches_digits (c.skip 2) isDigit isForbidden)
  unfold readRadix
  rw [skip_cursor h]
  dsimp only
  rw [digits_cursor hdigit hforbidden]
  generalize (c.skip 2).digits isDigit isForbidden = d at hreaches ⊢
  rw [show (w.cursor (c.skip 2)).offset = (c.skip 2).offset + w.before from rfl,
    separatorRemark_cursor]
  show (if d.taken.isEmpty then _ else if (w.cursor d.after).next? = some 'n' then
    Scan.mk (.bigint ((w.cursor c).textUntil (w.cursor d.after).advance)) _
      (w.cursor d.after).advance else endNumber (w.cursor c) (w.cursor d.after) _) = _
  split
  · rfl
  by_cases hn : d.after.next? = some 'n'
  · have hafter := hreaches.trans (Cursor.reaches_advance d.after)
    rw [if_pos hn, if_pos ((next?_cursor_eq_iff (by decide) d.after).mpr hn),
      advance_cursor (rest_ne_nil_of_next? hn), textUntil_cursor hafter.length_le]
    rfl
  · rw [if_neg hn, if_neg (mt (next?_cursor_eq_iff (by decide) d.after).mp hn)]
    exact endNumber_cursor hreaches _

/-! ## what may run into the end -/

theorem wrong_invalid {complaint : Complaint} {offset : Nat} {after : Cursor}
    {remarks : List Remark} : (Scan.invalid complaint offset after remarks).Wrong :=
  .inl ⟨_, rfl⟩

theorem readExponent_cursor {start c : Cursor} (h : start.Reaches c) (remarks : List Remark) :
    (readExponent start c remarks).Wrong ∨
      readExponent (w.cursor start) (w.cursor c) (remarks.map w.remark) =
        w.scanned (readExponent start c remarks) := by
  have hsign := h.trans (Cursor.reaches_advance c)
  have hletter : (w.cursor c).next? = some 'e' ∨ (w.cursor c).next? = some 'E' ↔
      c.next? = some 'e' ∨ c.next? = some 'E' :=
    or_congr (next?_cursor_eq_iff (by decide) c) (next?_cursor_eq_iff (by decide) c)
  unfold readExponent
  dsimp only
  by_cases he : c.next? = some 'e' ∨ c.next? = some 'E'
  · have hrest : c.rest ≠ [] := by rcases he with he | he <;> exact rest_ne_nil_of_next? he
    rw [if_pos he, if_pos (hletter.mpr he), advance_cursor hrest]
    cases hnext : c.advance.next? with
    | none => exact .inl wrong_invalid
    | some d =>
      have hne := rest_ne_nil_of_next? hnext
      rw [next?_cursor hne, hnext]
      dsimp only
      have hbody :
          (if d = '+' ∨ d = '-' then (w.cursor c.advance).advance else w.cursor c.advance) =
            w.cursor (if d = '+' ∨ d = '-' then c.advance.advance else c.advance) := by
        rw [advance_cursor hne, apply_ite w.cursor]
      have hreaches :
          start.Reaches (if d = '+' ∨ d = '-' then c.advance.advance else c.advance) := by
        split
        · exact hsign.trans (Cursor.reaches_advance _)
        · exact hsign
      rw [hbody]
      generalize (if d = '+' ∨ d = '-' then c.advance.advance else c.advance) = body at hreaches ⊢
      have hdigits := hreaches.trans (reaches_digits body isDecimalDigit decimalForbidden)
      rw [digits_cursor (by decide) (by decide)]
      generalize body.digits isDecimalDigit decimalForbidden = digits at hdigits ⊢
      rw [show (w.cursor body).offset = body.offset + w.before from rfl, separatorRemark_cursor,
        ← List.map_append]
      refine .inr ?_
      show (if digits.taken.isEmpty then _ else
        endNumber (w.cursor start) (w.cursor digits.after) _) = _
      split
      · rfl
      · exact endNumber_cursor hdigits _
  · rw [if_neg he, if_neg (mt hletter.mp he)]
    exact .inr (endNumber_cursor h remarks)

theorem readFraction_cursor {start c : Cursor} (h : start.Reaches c) (remarks : List Remark) :
    (readFraction start c remarks).Wrong ∨
      readFraction (w.cursor start) (w.cursor c) (remarks.map w.remark) =
        w.scanned (readFraction start c remarks) := by
  unfold readFraction
  dsimp only
  by_cases hdot : c.next? = some '.'
  · have hdigits := (h.trans (Cursor.reaches_advance c)).trans
      (reaches_digits c.advance isDecimalDigit decimalForbidden)
    rw [if_pos hdot, if_pos ((next?_cursor_eq_iff (by decide) c).mpr hdot),
      advance_cursor (rest_ne_nil_of_next? hdot), digits_cursor (by decide) (by decide),
      show (w.cursor c.advance).offset = c.advance.offset + w.before from rfl,
      separatorRemark_cursor, ← List.map_append]
    exact readExponent_cursor hdigits _
  · rw [if_neg hdot, if_neg (mt (next?_cursor_eq_iff (by decide) c).mp hdot)]
    exact readExponent_cursor h remarks

theorem readDecimal_cursor (c : Cursor) :
    (readDecimal c).Wrong ∨ readDecimal (w.cursor c) = w.scanned (readDecimal c) := by
  have hdigits := reaches_digits c isDecimalDigit decimalForbidden
  have hzero : ((w.cursor c).next? = some '0') = (c.next? = some '0') :=
    propext (next?_cursor_eq_iff (by decide) c)
  unfold readDecimal
  dsimp only
  rw [digits_cursor (by decide) (by decide)]
  generalize c.digits isDecimalDigit decimalForbidden = d at hdigits ⊢
  have hn : ((w.cursor d.after).next? = some 'n') = (d.after.next? = some 'n') :=
    propext (next?_cursor_eq_iff (by decide) d.after)
  rw [show (w.cursor c).offset = c.offset + w.before from rfl, separatorRemark_cursor]
  simp only [hzero, hn, show (w.digits d).after = w.cursor d.after from rfl,
    show (w.digits d).taken = d.taken from rfl]
  split
  · rename_i hbig
    have hrest := rest_ne_nil_of_next? (of_decide_eq_true (Bool.and_eq_true_iff.mp hbig).2)
    have hafter := hdigits.trans (Cursor.reaches_advance d.after)
    rw [advance_cursor hrest, textUntil_cursor hafter.length_le]
    exact .inr rfl
  split
  · split
    · refine .inr ?_
      rw [← endNumber_cursor hdigits, List.map_append]
      rfl
    · have hfraction := readFraction_cursor (w := w) hdigits
        (separatorRemark d c.offset ++ [⟨.strict, ⟨.legacyDecimal, c.offset⟩⟩])
      rwa [List.map_append] at hfraction
  · exact readFraction_cursor hdigits _

theorem readNumber_of_ne {c : Cursor} (h : c.next? ≠ some '0') : readNumber c = readDecimal c := by
  unfold readNumber
  split
  · rename_i hrest
    rw [Cursor.next?, hrest] at h
    exact absurd rfl h
  · rfl

theorem readNumber_cursor {c : Cursor} (h : c.rest ≠ []) :
    (readNumber c).Wrong ∨ readNumber (w.cursor c) = w.scanned (readNumber c) := by
  by_cases hzero : c.next? = some '0'
  · obtain ⟨_ | ⟨d, _ | ⟨x, more⟩⟩, offset⟩ := c
    · exact absurd rfl h
    · -- what stands behind the source is no letter
      obtain rfl : d = '0' := Option.some.inj hzero
      have htext : readNumber (w.cursor ⟨['0'], offset⟩) =
          readDecimal (w.cursor ⟨['0'], offset⟩) := by
        unfold readNumber
        split
        · rename_i x more heq
          have hx : w.behind.head? = some x := by
            rw [show w.behind = x :: more from (List.cons.inj heq).2]
            rfl
          obtain rfl := head?_behind hx
          rfl
        · rfl
      rw [htext]
      exact readDecimal_cursor _
    · obtain rfl : d = '0' := Option.some.inj hzero
      have hlength : 2 ≤ (⟨'0' :: x :: more, offset⟩ : Cursor).rest.length := Nat.le_add_left 2 _
      have hunfold : ∀ c : Cursor, c.rest = '0' :: x :: (c.rest.drop 2) → readNumber c =
          if x = 'x' ∨ x = 'X' then readRadix c isHexDigit hexForbidden "a hexadecimal"
          else if x = 'o' ∨ x = 'O' then readRadix c isOctalDigit decimalForbidden "an octal"
          else if x = 'b' ∨ x = 'B' then
            readRadix c (fun d => d == '0' || d == '1') decimalForbidden "a binary"
          else readDecimal c := by
        intro c hc
        unfold readNumber
        rw [hc]
        rfl
      rw [hunfold _ rfl, hunfold (w.cursor _) rfl]
      repeat' split
      · exact .inr (readRadix_cursor (by decide) (by decide) _ hlength)
      · exact .inr (readRadix_cursor (by decide) (by decide) _ hlength)
      · exact .inr (readRadix_cursor (by decide) (by decide) _ hlength)
      · exact readDecimal_cursor _
  · rw [readNumber_of_ne hzero,
      readNumber_of_ne (mt (next?_cursor_eq_iff (by decide) c).mp hzero)]
    exact readDecimal_cursor c

/-! ## strings, templates, regular expressions -/

/-- a string that its text ends in is not closed -/
theorem wrong_readStringFrom_of_nil (start : Cursor) (quote : Char) (n : Nat)
    (remarks : List Remark) {c : Cursor} (h : c.rest = []) :
    (readStringFrom start quote (n + 1) remarks c).Wrong := by
  have hnone : c.next? = none := by rw [Cursor.next?, h]; rfl
  unfold readStringFrom
  rw [hnone]
  exact .inr ⟨_, List.mem_append_right _ (List.mem_singleton_self _), rfl⟩

theorem readStringFrom_cursor {start : Cursor} {quote : Char} {n m : Nat} (remarks : List Remark)
    {c : Cursor} (hn : c.rest.length < n) (hm : c.rest.length < m) (h : start.Reaches c) :
    (readStringFrom start quote n remarks c).Wrong ∨
      readStringFrom (w.cursor start) quote m (remarks.map w.remark) (w.cursor c) =
        w.scanned (readStringFrom start quote n remarks c) := by
  induction n generalizing m remarks c with
  | zero => exact absurd hn (Nat.not_lt_zero _)
  | succ n ih =>
    by_cases hrest : c.rest = []
    · exact .inl (wrong_readStringFrom_of_nil start quote n remarks hrest)
    cases m with
    | zero => exact absurd hm (Nat.not_lt_zero _)
    | succ m =>
      have hlength := length_advance hrest
      have hadvance := h.trans (Cursor.reaches_advance c)
      unfold readStringFrom
      rw [next?_cursor hrest]
      dsimp only
      split
      · have hescape := reaches_readEscape false c
        have hafter := hescape.length_le
        rcases readEscape_cursor (w := w) false hrest with hend | hsame
        · -- nothing is left behind the escape
          refine .inl ?_
          split
          · exact wrong_invalid
          · cases n with
            | zero =>
              have hnone := length_advance hrest
              omega
            | succ n => exact wrong_readStringFrom_of_nil start quote n _ hend
        · rw [hsame]
          generalize readEscape false c = e at hescape hafter ⊢
          obtain ⟨_ | complaint, octal, after⟩ := e
          · have hstep := ih (m := m)
              (if octal then remarks ++ [⟨.strict, ⟨.legacyOctal, c.offset⟩⟩] else remarks)
              (c := after) (by dsimp only at hafter; omega) (by dsimp only at hafter; omega)
              (hadvance.trans hescape)
            rwa [apply_ite (List.map w.remark), List.map_append] at hstep
          · exact .inl wrong_invalid
      · split
        · rw [advance_cursor hrest, textUntil_cursor hadvance.length_le]
          exact .inr rfl
        split
        · exact .inl (.inr ⟨_, List.mem_append_right _ (List.mem_singleton_self _), rfl⟩)
        · rw [advance_cursor hrest]
          exact ih remarks (by omega) (by omega) hadvance
      · exact .inl (.inr ⟨_, List.mem_append_right _ (List.mem_singleton_self _), rfl⟩)

theorem length_le_cursor (c : Cursor) : c.rest.length ≤ (w.cursor c).rest.length := by
  show c.rest.length ≤ (c.rest ++ w.behind).length
  rw [List.length_append]
  exact Nat.le_add_right _ _

theorem readString_cursor {c : Cursor} {quote : Char} (h : c.rest ≠ []) :
    (readString c quote).Wrong ∨
      readString (w.cursor c) quote = w.scanned (readString c quote) := by
  have hlength := length_advance h
  have hle := length_le_cursor (w := w) c
  unfold readString
  rw [advance_cursor h]
  exact readStringFrom_cursor [] (by omega) (by omega) (Cursor.reaches_advance c)

theorem wrong_readTemplateFrom_of_nil (start : Nat) (opening : Bool) (n : Nat) (bad : Option Fault)
    {c : Cursor} (h : c.rest = []) : (readTemplateFrom start opening n bad c).Wrong := by
  cases n with
  | zero => exact wrong_invalid
  | succ n =>
    unfold readTemplateFrom
    rw [h]
    exact wrong_invalid

/-- a character of a template's text that nothing begins with -/
theorem readTemplateFrom_plain (start : Nat) (opening : Bool) (n : Nat) (bad : Option Fault)
    {c : Cursor} {d : Char} {rest : List Char} (hc : c.rest = d :: rest) (hquote : d ≠ '\x60')
    (hescape : d ≠ '\\') (hbrace : d = '$' → rest.head? ≠ some '\x7b') :
    readTemplateFrom start opening (n + 1) bad c =
      readTemplateFrom start opening n bad c.advance := by
  rw [readTemplateFrom]
  split
  · rename_i h
    rw [hc] at h
    cases h
  · rename_i h
    rw [hc] at h
    exact absurd (List.cons.inj h).1 hquote
  · rename_i h
    rw [hc] at h
    obtain ⟨hd, hrest⟩ := List.cons.inj h
    exact absurd (congrArg List.head? hrest) (hbrace hd)
  · rename_i h
    rw [hc] at h
    exact absurd (List.cons.inj h).1 hescape
  · rfl

theorem readTemplateFrom_cursor {start : Nat} {opening : Bool} {n m : Nat} (bad : Option Fault)
    {c : Cursor} (hn : c.rest.length < n) (hm : c.rest.length < m) :
    (readTemplateFrom start opening n bad c).Wrong ∨
      readTemplateFrom (start + w.before) opening m (bad.map w.fault) (w.cursor c) =
        w.scanned (readTemplateFrom start opening n bad c) := by
  induction n generalizing m bad c with
  | zero => exact absurd hn (Nat.not_lt_zero _)
  | succ n ih =>
    by_cases hrest : c.rest = []
    · exact .inl (wrong_readTemplateFrom_of_nil start opening _ bad hrest)
    cases m with
    | zero => exact absurd hm (Nat.not_lt_zero _)
    | succ m =>
      have hlength := length_advance hrest
      have hadvance := advance_cursor (w := w) hrest
      have hescape := (reaches_readEscape true c).length_le
      have hsame := readEscape_cursor (w := w) true hrest
      obtain ⟨_ | ⟨d, rest⟩, offset⟩ := c
      · exact absurd rfl hrest
      by_cases hquote : d = '\x60'
      · subst hquote
        refine .inr ?_
        show Scan.mk _ _ (w.cursor ⟨'\x60' :: rest, offset⟩).advance = _
        rw [hadvance]
        cases opening <;> rfl
      by_cases hback : d = '\\'
      · subst hback
        show (readTemplateFrom start opening n _
            (readEscape true ⟨'\\' :: rest, offset⟩).after).Wrong ∨
          readTemplateFrom _ opening m _ (readEscape true (w.cursor ⟨'\\' :: rest, offset⟩)).after =
            w.scanned (readTemplateFrom start opening n _
              (readEscape true ⟨'\\' :: rest, offset⟩).after)
        rcases hsame with hend | hsame
        · exact .inl (wrong_readTemplateFrom_of_nil start opening n _ hend)
        · rw [hsame]
          generalize readEscape true ⟨'\\' :: rest, offset⟩ = e at hescape ⊢
          obtain ⟨complaint, octal, after⟩ := e
          have hafter : after.rest.length < n ∧ after.rest.length < m := by
            dsimp only at hescape
            omega
          cases complaint with
          | none => exact ih bad hafter.1 hafter.2
          | some complaint => exact ih _ hafter.1 hafter.2
      by_cases hdollar : d = '$' ∧ rest.head? = some '\x7b'
      · obtain ⟨rfl, hbrace⟩ := hdollar
        obtain ⟨more, rfl⟩ : ∃ more, rest = '\x7b' :: more := by
          cases rest with
          | nil => cases hbrace
          | cons x more =>
            obtain rfl := Option.some.inj hbrace
            exact ⟨more, rfl⟩
        have hskip : (w.cursor ⟨'$' :: '\x7b' :: more, offset⟩).skip 2 =
            w.cursor ((⟨'$' :: '\x7b' :: more, offset⟩ : Cursor).skip 2) :=
          skip_cursor (Nat.le_add_left 2 _)
        refine .inr ?_
        show Scan.mk _ _ ((w.cursor ⟨'$' :: '\x7b' :: more, offset⟩).skip 2) = _
        rw [hskip]
        cases opening <;> rfl
      · have hbrace : d = '$' → rest.head? ≠ some '\x7b' := fun hd h => hdollar ⟨hd, h⟩
        have hbrace' : d = '$' → (rest ++ w.behind).head? ≠ some '\x7b' := fun hd =>
          mt (head?_append_eq_iff (by decide) rest).mp (hbrace hd)
        rw [readTemplateFrom_plain _ _ _ _ rfl hquote hback hbrace,
          readTemplateFrom_plain (c := w.cursor ⟨d :: rest, offset⟩) _ _ _ _ rfl hquote hback
            hbrace', hadvance]
        exact ih bad (by omega) (by omega)

theorem readTemplate_cursor {c : Cursor} (h : c.rest ≠ []) (opening : Bool) :
    (readTemplate c opening).Wrong ∨
      readTemplate (w.cursor c) opening = w.scanned (readTemplate c opening) := by
  have hlength := length_advance h
  have hle := length_le_cursor (w := w) c
  unfold readTemplate
  rw [advance_cursor h]
  exact readTemplateFrom_cursor none (by omega) (by omega)

/-- the end of a line ends a regular expression that is not closed, and so does the end of the
source -/
theorem regexEnd?_append (inClass escaped : Bool) (offset : Nat) (rest : List Char) :
    regexEnd? inClass escaped (offset + w.before) (rest ++ w.behind) =
      (regexEnd? inClass escaped offset rest).map w.cursor := by
  induction rest generalizing inClass escaped offset with
  | nil =>
    rw [List.nil_append]
    rcases w.comment with hnil | ⟨words, hline, -⟩
    · rw [hnil]
      rfl
    · rw [hline]
      rfl
  | cons c rest ih =>
    rw [List.cons_append, regexEnd?, regexEnd?]
    split
    · rfl
    split
    · rw [Nat.add_right_comm, ih]
    split
    · rw [Nat.add_right_comm, ih]
    split
    · rw [Nat.add_right_comm, ih]
    split
    · rw [Nat.add_right_comm, ih]
    split
    · rw [Nat.add_right_comm]
      rfl
    · rw [Nat.add_right_comm, ih]

theorem readRegex_cursor {c : Cursor} (h : c.rest ≠ []) :
    (readRegex c).Wrong ∨ readRegex (w.cursor c) = w.scanned (readRegex c) := by
  have hend : regexEnd? false false ((w.cursor c).offset + 1) (w.cursor c).rest.tail =
      (regexEnd? false false (c.offset + 1) c.rest.tail).map w.cursor := by
    obtain ⟨_ | ⟨d, rest⟩, offset⟩ := c
    · exact absurd rfl h
    · rw [← regexEnd?_append, Nat.add_right_comm]
      rfl
  unfold readRegex
  rw [hend]
  cases regexEnd? false false (c.offset + 1) c.rest.tail with
  | none => exact .inl wrong_invalid
  | some after =>
    refine .inr ?_
    dsimp only [Option.map_some]
    rw [any_next?_cursor (by decide), readWord_cursor]
    split
    · generalize readWord after = x
      obtain ⟨name, escaped, _ | fault, remarks, after⟩ := x <;> rfl
    · rfl

/-! ## tokens -/

theorem isPrefixOf_append {p : List Char} (hp : '\n' ∉ p) (rest : List Char) :
    p.isPrefixOf (rest ++ w.behind) = p.isPrefixOf rest := by
  induction p generalizing rest with
  | nil => rfl
  | cons x p ih =>
    have hx : '\n' ≠ x := fun h => hp (h ▸ List.mem_cons_self)
    have hp : '\n' ∉ p := fun h => hp (List.mem_cons_of_mem x h)
    cases rest with
    | cons c rest =>
      rw [List.cons_append, List.isPrefixOf_cons_cons, List.isPrefixOf_cons_cons, ih hp]
    | nil =>
      rw [List.nil_append]
      rcases w.comment with hnil | ⟨words, hline, -⟩
      · rw [hnil]
      · rw [hline, List.isPrefixOf_cons_cons, beq_eq_false_iff_ne.mpr hx.symm, Bool.false_and]
        rfl

theorem find?_congr_left {α : Type} {p q : α → Bool} {l : List α} (h : ∀ a ∈ l, p a = q a) :
    l.find? p = l.find? q := by
  induction l with
  | nil => rfl
  | cons a l ih =>
    rw [List.find?_cons, List.find?_cons, h a List.mem_cons_self,
      ih fun b hb => h b (List.mem_cons_of_mem a hb)]

theorem read?_append (rest : List Char) :
    Symbol.read? (rest ++ w.behind) = Symbol.read? rest := by
  have hsymbol : ∀ s : Symbol, s.text.toList.isPrefixOf (rest ++ w.behind) =
      s.text.toList.isPrefixOf rest := by
    intro s
    exact isPrefixOf_append (by cases s <;> decide) rest
  unfold Symbol.read?
  simp only [hsymbol]
  refine find?_congr_left fun s hs => ?_
  by_cases hchain : s = .optionalChain
  · subst hchain
    have htext := List.isPrefixOf_iff_prefix.mp (List.mem_filter.mp hs).2
    have hlength : 2 ≤ rest.length := htext.length_le
    rw [List.drop_append_of_le_length hlength, any_head?_append (by decide)]
  · simp [hchain]

theorem scan_cursor {c : Cursor} (h : c.rest ≠ []) :
    (∀ r, (scan r c).Wrong) ∨ ∀ r, scan r (w.cursor c) = w.scanned (scan r c) := by
  obtain ⟨_ | ⟨d, more⟩, offset⟩ := c
  · exact absurd rfl h
  have hsymbol : Symbol.read? (d :: (more ++ w.behind)) = Symbol.read? (d :: more) :=
    read?_append (d :: more)
  unfold scan
  dsimp only [cursor, List.cons_append]
  by_cases hword : (startsName d || d == '\\') = true
  · simp only [hword, if_true]
    refine .inr fun r => ?_
    have hread := readWord_cursor (w := w) ⟨d :: more, offset⟩
    dsimp only [cursor, List.cons_append] at hread
    rw [hread]
    generalize readWord ⟨d :: more, offset⟩ = x
    obtain ⟨name, escaped, _ | fault, remarks, after⟩ := x
    · show (if (escaped && r.reserves (String.ofList name)) = true then
          Scan.invalid (.escapedReservedWord (String.ofList name)) (offset + w.before)
            (w.cursor after) (remarks.map w.remark)
        else ⟨.word (String.ofList name), remarks.map w.remark, w.cursor after⟩) =
          w.scanned (if (escaped && r.reserves (String.ofList name)) = true then _ else _)
      split <;> rfl
    · rfl
  simp only [hword, if_false, Bool.false_eq_true]
  by_cases hnumber : isDecimalDigit d = true
  · simp only [hnumber, if_true]
    exact (readNumber_cursor h).imp (fun hw _ => hw) fun hs _ => hs
  simp only [hnumber, if_false, Bool.false_eq_true]
  rw [any_head?_append (by decide)]
  by_cases hdot : (decide (d = '.') && Option.any isDecimalDigit more.head?) = true
  · simp only [hdot, if_true]
    exact (readFraction_cursor (.refl _) []).imp (fun hw _ => hw) fun hs _ => hs
  simp only [hdot, if_false, Bool.false_eq_true]
  by_cases hquote : (decide (d = '\'') || decide (d = '\x22')) = true
  · simp only [hquote, if_true]
    exact (readString_cursor h).imp (fun hw _ => hw) fun hs _ => hs
  simp only [hquote, if_false, Bool.false_eq_true]
  by_cases htemplate : d = '\x60'
  · simp only [htemplate, if_true]
    subst htemplate
    exact (readTemplate_cursor h true).imp (fun hw _ => hw) fun hs _ => hs
  simp only [htemplate, if_false]
  refine .inr fun r => ?_
  rw [hsymbol]
  cases hs : Symbol.read? (d :: more) with
  | none =>
    dsimp only
    show Scan.mk _ _ (w.cursor ⟨d :: more, offset⟩).advance = _
    rw [advance_cursor h]
    rfl
  | some s =>
    have hskip : (w.cursor ⟨d :: more, offset⟩).skip s.text.length =
        w.cursor ((⟨d :: more, offset⟩ : Cursor).skip s.text.length) := by
      refine skip_cursor ?_
      rw [← String.length_toList]
      exact (prefix_of_read? hs).length_le
    dsimp only
    show Scan.mk _ _ ((w.cursor ⟨d :: more, offset⟩).skip s.text.length) = _
    rw [hskip]
    rfl

/-! ## white space and comments -/

theorem skipBlanks_line (newline : Bool) (legacy : Option Nat) (remarks : List Remark)
    (offset : Nat) {words : List Char} (h : ∀ c ∈ words, isLineEnd c = false) :
    ∃ stop, skipBlanks .line newline legacy remarks offset words =
      ⟨⟨[], stop⟩, newline, legacy, remarks⟩ := by
  induction words generalizing offset with
  | nil =>
    refine ⟨offset, ?_⟩
    rw [skipBlanks, if_pos (.inr rfl), List.append_nil]
  | cons c words ih =>
    rw [skipBlanks, if_neg (by rw [h c List.mem_cons_self]; decide)]
    exact ih _ fun d hd => h d (List.mem_cons_of_mem c hd)

/-- the comment line behind the source is skipped -/
theorem skipBlanks_behind {mode : BlankMode} (hmode : mode = .plain ∨ mode = .line)
    (newline : Bool) (legacy : Option Nat) (remarks : List Remark) (offset : Nat) :
    ∃ stop line, skipBlanks mode newline legacy remarks offset w.behind =
      ⟨⟨[], stop⟩, line, legacy, remarks⟩ := by
  rcases w.comment with hnil | ⟨words, hline, hwords⟩
  · refine ⟨offset, newline, ?_⟩
    rw [hnil, skipBlanks, if_pos hmode, List.append_nil]
  · have hfirst : ∃ start, skipBlanks mode newline legacy remarks offset w.behind =
        skipBlanks .line true legacy remarks start words := by
      rw [hline]
      rcases hmode with rfl | rfl <;> exact ⟨_, rfl⟩
    obtain ⟨start, hfirst⟩ := hfirst
    obtain ⟨stop, hstop⟩ := skipBlanks_line true legacy remarks start hwords
    exact ⟨stop, true, hfirst.trans hstop⟩

/-- white space with a comment that is not closed, or the same white space in the text -/
structure SameBlanks (w : Frame) (b b' : Blanks) : Prop where
  legacyStart : b'.legacyStart = b.legacyStart.map (· + w.before)
  remarks : b'.remarks = b.remarks.map w.remark
  more : b.after.rest ≠ [] → b'.after = w.cursor b.after ∧ b'.newline = b.newline
  ended : b.after.rest = [] → b'.after.rest = []

theorem skipBlanks_cursor (mode : BlankMode) (newline : Bool) (legacy : Option Nat)
    (remarks : List Remark) (offset : Nat) (rest : List Char) :
    (∃ r ∈ (skipBlanks mode newline legacy remarks offset rest).remarks, r.condition = .always) ∨
      w.SameBlanks (skipBlanks mode newline legacy remarks offset rest)
        (skipBlanks mode newline (legacy.map (· + w.before)) (remarks.map w.remark)
          (offset + w.before) (rest ++ w.behind)) := by
  induction rest generalizing mode newline legacy remarks offset with
  | nil =>
    by_cases hmode : mode = .plain ∨ mode = .line
    · obtain ⟨stop, line, hbehind⟩ := skipBlanks_behind (w := w) hmode newline
        (legacy.map (· + w.before)) (remarks.map w.remark) (offset + w.before)
      rw [List.nil_append, hbehind, skipBlanks, if_pos hmode, List.append_nil]
      exact .inr ⟨rfl, rfl, fun h => absurd rfl h, fun _ => rfl⟩
    · rw [skipBlanks, if_neg hmode]
      exact .inl ⟨_, List.mem_append_right _ (List.mem_singleton_self _), rfl⟩
  | cons c rest ih =>
    have hslash : ((rest ++ w.behind).head? = some '/') = (rest.head? = some '/') :=
      propext (head?_append_eq_iff (by decide) rest)
    have hstar : ((rest ++ w.behind).head? = some '*') = (rest.head? = some '*') :=
      propext (head?_append_eq_iff (by decide) rest)
    have hopen := isPrefixOf_append (w := w) (p := ['!', '-', '-']) (by decide) rest
    have hclose := isPrefixOf_append (w := w) (p := ['-', '>']) (by decide) rest
    have hnext : offset + w.before + c.utf8Size = offset + c.utf8Size + w.before :=
      Nat.add_right_comm ..
    rw [List.cons_append]
    unfold skipBlanks
    cases mode with
    | line =>
      dsimp only
      rw [hnext]
      split <;> exact ih ..
    | opening =>
      dsimp only
      rw [hnext]
      exact ih ..
    | closing =>
      dsimp only
      rw [hnext]
      exact ih ..
    | block =>
      dsimp only
      simp only [hslash, hnext]
      split <;> exact ih ..
    | plain =>
      dsimp only
      simp only [hslash, hstar, hopen, hclose, hnext]
      split
      · exact ih ..
      split
      · exact ih ..
      split
      · exact ih ..
      split
      · exact ih ..
      split
      · have hstep := ih .line newline (legacy.or (some offset))
          (remarks ++ [⟨.inModule, ⟨.legacyComment, offset⟩⟩]) (offset + c.utf8Size)
        rw [List.map_append] at hstep
        cases legacy <;> exact hstep
      · exact .inr ⟨rfl, rfl, fun _ => ⟨rfl, rfl⟩, fun h => absurd h (List.cons_ne_nil c rest)⟩

/-! ## readings -/

/-- one token, read in the source and in the text around it; at the end of the source only the
place behind it may differ -/
structure SameReading (w : Frame) (r r' : Reading) : Prop where
  kind : r'.token.kind = w.kind r.token.kind
  start : r'.token.start = r.token.start + w.before
  newline : r'.token.newline = r.token.newline
  strictRemarks : r'.token.strictRemarks = r.token.strictRemarks.map w.fault
  remarks : r'.remarks = r.remarks.map w.remark
  behind : r.token.kind ≠ .eof →
    r'.token.stop = r.token.stop + w.before ∧ r'.after = w.cursor r.after
  length_le : r.after.rest.length ≤ r'.after.rest.length

theorem filter_remarks {p : Condition → Bool} (remarks : List Remark) :
    (remarks.map w.remark).filter (fun r => p r.condition) =
      (remarks.filter (fun r => p r.condition)).map w.remark := by
  rw [List.filter_map]
  rfl

theorem sameReading_toReading (s : Scan) (start : Nat) (newline : Bool) (remarks : List Remark) :
    w.SameReading (s.toReading start newline remarks)
      ((w.scanned s).toReading (start + w.before) newline (remarks.map w.remark)) where
  kind := rfl
  start := rfl
  newline := rfl
  strictRemarks := by
    show ((s.remarks.map w.remark).filter _).map _ = ((s.remarks.filter _).map _).map _
    rw [filter_remarks (p := fun c => decide (c = .strict)), List.map_map, List.map_map]
    rfl
  remarks := by
    show remarks.map w.remark ++ (s.remarks.map w.remark).filter _ = (remarks ++ _).map w.remark
    rw [filter_remarks (p := fun c => decide (c ≠ .strict)), List.map_append]
  behind _ := ⟨rfl, rfl⟩
  length_le := length_le_cursor s.after

theorem kind_scan_ne_eof {r : Reserving} {c : Cursor} (h : c.rest ≠ []) :
    (scan r c).kind ≠ .eof := by
  have hliteral : ∀ {kind : Token.Kind}, kind.isLiteral = true → kind ≠ .eof := by
    rintro _ hkind rfl
    exact absurd hkind Bool.false_ne_true
  unfold scan
  split
  · rename_i hrest
    exact absurd hrest h
  dsimp only
  split
  · split
    · simp
    · split <;> simp [Scan.invalid]
  split
  · exact hliteral (isLiteral_readNumber c)
  split
  · exact hliteral (isLiteral_readFraction ..)
  split
  · rcases kind_readStringFrom c _ (c.rest.length + 1) [] c.advance with
      ⟨raw, hraw⟩ | ⟨fault, hfault⟩
    · exact fun heof => absurd (hraw.symm.trans heof) (by simp)
    · exact fun heof => absurd (hfault.symm.trans heof) (by simp)
  split
  · exact hliteral (isLiteral_readTemplateFrom ..)
  split <;> simp [Scan.invalid]

theorem read_of_over {r : Reserving} {first : Bool} {c : Cursor}
    (h : (Token.blanks first c).after.rest = []) :
    Token.read r first c = (Scan.mk .eof [] (Token.blanks first c).after).toReading
      ((Token.blanks first c).legacyStart.getD c.offset) true (Token.blanks first c).remarks := by
  have hscan : scan r (Token.blanks first c).after = ⟨.eof, [], (Token.blanks first c).after⟩ := by
    unfold scan
    rw [h]
  unfold Token.read
  dsimp only
  rw [hscan]
  cases (Token.blanks first c).legacyStart <;> rfl

theorem read_of_more {r : Reserving} {first : Bool} {c : Cursor}
    (h : (Token.blanks first c).after.rest ≠ []) :
    Token.read r first c = (scan r (Token.blanks first c).after).toReading
      ((Token.blanks first c).legacyStart.getD (Token.blanks first c).after.offset)
      (Token.blanks first c).newline (Token.blanks first c).remarks := by
  have hkind := kind_scan_ne_eof (r := r) h
  unfold Token.read
  dsimp only
  cases hlegacy : (Token.blanks first c).legacyStart with
  | none =>
    split
    · exact absurd ‹_› hkind
    · exact absurd ‹_› hkind
    · rename_i heq _
      cases heq
    · rfl
  | some start =>
    split
    · exact absurd ‹_› hkind
    · exact absurd ‹_› hkind
    · rename_i heq _
      obtain rfl := Option.some.inj heq
      rfl
    · rename_i heq _
      cases heq

/-- **A token is read as it is in the source**, unless it or a comment before it runs into the end
of the source. -/
theorem read_cursor (first : Bool) (c : Cursor) :
    (∀ r, (Token.read r first c).Wrong) ∨
      ∀ r, w.SameReading (Token.read r first c) (Token.read r first (w.cursor c)) := by
  have hblanks : (∃ r ∈ (Token.blanks first c).remarks, r.condition = .always) ∨
      w.SameBlanks (Token.blanks first c) (Token.blanks first (w.cursor c)) :=
    skipBlanks_cursor (w := w) .plain first none [] c.offset c.rest
  rcases hblanks with ⟨remark, hmem, halways⟩ | hsame
  · refine .inl fun r => ?_
    obtain ⟨start, newline, hread, -⟩ := read_cases r first c
    rw [hread]
    exact .inr ⟨remark, List.mem_append_left _ hmem, halways⟩
  by_cases hrest : (Token.blanks first c).after.rest = []
  · refine .inr fun r => ?_
    rw [read_of_over hrest, read_of_over (hsame.ended hrest), hsame.remarks, hsame.legacyStart]
    exact {
      kind := rfl
      start := by cases (Token.blanks first c).legacyStart <;> rfl
      newline := rfl
      strictRemarks := rfl
      remarks := by
        show _ ++ [] = (_ ++ []).map w.remark
        rw [List.append_nil, List.append_nil]
      behind := fun h => absurd rfl h
      length_le := by
        show (Token.blanks first c).after.rest.length ≤ _
        rw [hrest]
        exact Nat.zero_le _ }
  rcases scan_cursor (w := w) hrest with hwrong | hscan
  · refine .inl fun r => ?_
    obtain ⟨start, newline, hread, -⟩ := read_cases r first c
    rw [hread]
    exact (hwrong r).toReading _ _ _
  · refine .inr fun r => ?_
    obtain ⟨hafter, hnewline⟩ := hsame.more hrest
    have hrest' : (Token.blanks first (w.cursor c)).after.rest ≠ [] := by
      rw [hafter]
      exact fun h => hrest (List.append_eq_nil_iff.mp h).1
    have hstart : (Token.blanks first (w.cursor c)).legacyStart.getD
        (Token.blanks first (w.cursor c)).after.offset =
          (Token.blanks first c).legacyStart.getD (Token.blanks first c).after.offset +
            w.before := by
      rw [hafter, hsame.legacyStart]
      cases (Token.blanks first c).legacyStart <;> rfl
    rw [read_of_more hrest, read_of_more hrest', hstart, hnewline, hsame.remarks, hafter, hscan r]
    exact sameReading_toReading ..

/-! ## the place behind a token -/

theorem continuesName_of_startsName {c : Char} (h : startsName c = true) :
    continuesName c = true := by
  unfold startsName at h
  unfold continuesName
  split
  · rw [if_pos ‹_›] at h
    simp only [Bool.or_eq_true] at h ⊢
    refine h.imp (fun h => h.imp (fun h => ?_) id) id
    rw [Char.isAlphanum, h, Bool.true_or]
  · rw [if_neg ‹_›] at h
    rw [h]
    simp

theorem offset_lt_advance {c : Cursor} (h : c.rest ≠ []) : c.offset < c.advance.offset := by
  obtain ⟨_ | ⟨d, rest⟩, offset⟩ := c
  · exact absurd rfl h
  · exact Nat.lt_add_of_pos_right (utf8Size_pos d)

theorem reaches_readWord_of_starts {c : Cursor} {d : Char} (hd : c.next? = some d)
    (h : (startsName d || d == '\\') = true) : c.advance.Reaches (readWord c).after := by
  unfold readWord readWordFrom
  rw [hd]
  dsimp only
  split
  · split
    · have hpoint := (Cursor.reaches_advance c.advance).trans
        (reaches_readCodePoint c.advance.advance)
      split <;> rename_i h <;> rw [h] at hpoint
      · exact hpoint
      · exact hpoint.trans (reaches_readWordFrom ..)
    · exact .refl _
  · rename_i hne heq
    obtain rfl := Option.some.inj heq
    have hstarts : startsName d = true := by
      rcases Bool.or_eq_true_iff.mp h with h | h
      · exact h
      · exact absurd (beq_iff_eq.mp h) hne
    rw [if_pos (continuesName_of_startsName hstarts)]
    exact reaches_readWordFrom ..
  · rename_i heq
    cases heq

theorem reaches_digits_of_starts {c : Cursor} {d : Char} {isForbidden : Char → Bool}
    (hd : c.next? = some d) (h : isDecimalDigit d = true) :
    c.advance.Reaches (c.digits isDecimalDigit isForbidden).after := by
  obtain ⟨_ | ⟨x, rest⟩, offset⟩ := c
  · cases hd
  · obtain rfl : x = d := Option.some.inj hd
    unfold Cursor.digits
    rw [readDigits, if_neg (by rintro rfl; exact absurd h (by decide)), if_pos h]
    exact reaches_readDigits ..

theorem reaches_readDecimal_of_digits (c : Cursor) :
    (c.digits isDecimalDigit decimalForbidden).after.Reaches (readDecimal c).after := by
  unfold readDecimal
  dsimp only
  split
  · exact Cursor.reaches_advance _
  split
  · split
    · rw [after_endNumber]
      exact .refl _
    · exact reaches_readFraction ..
  · exact reaches_readFraction ..

theorem reaches_readRadix_of_skip (c : Cursor) (isDigit isForbidden : Char → Bool)
    (kind : String) : (c.skip 2).Reaches (readRadix c isDigit isForbidden kind).after := by
  have hdigits := reaches_digits (c.skip 2) isDigit isForbidden
  unfold readRadix
  dsimp only
  split
  · exact hdigits
  split
  · exact hdigits.trans (Cursor.reaches_advance _)
  · rw [after_endNumber]
    exact hdigits

/-- a token takes at least its first character -/
theorem reaches_scan_of_ne_nil {r : Reserving} {c : Cursor} (h : c.rest ≠ []) :
    c.advance.Reaches (scan r c).after := by
  unfold scan
  split
  · rename_i hrest
    exact absurd hrest h
  rename_i d more hrest
  have hd : c.next? = some d := by rw [Cursor.next?, hrest]; rfl
  dsimp only
  split
  · have hword := reaches_readWord_of_starts hd ‹_›
    split
    · exact hword
    · split <;> exact hword
  split
  · have hskip : c.advance.Reaches (c.skip 2) := Cursor.reaches_advance c.advance
    unfold readNumber
    split
    · repeat' split
      all_goals first
        | exact hskip.trans (reaches_readRadix_of_skip ..)
        | exact (reaches_digits_of_starts hd ‹_›).trans (reaches_readDecimal_of_digits c)
    · exact (reaches_digits_of_starts hd ‹_›).trans (reaches_readDecimal_of_digits c)
  split
  · rename_i hdot
    obtain rfl := of_decide_eq_true (Bool.and_eq_true_iff.mp hdot).1
    unfold readFraction
    rw [if_pos hd]
    exact (reaches_digits ..).trans (reaches_readExponent ..)
  split
  · exact reaches_readStringFrom ..
  split
  · exact reaches_readTemplateFrom ..
  split
  · rename_i s hs
    have htext : 0 < s.text.length := by cases s <;> decide
    obtain ⟨n, hn⟩ := Nat.exists_eq_succ_of_ne_zero (Nat.ne_of_gt htext)
    rw [hn]
    exact Cursor.reaches_skip n c.advance
  · exact .refl _

/-- no token but the end of the text ends where the text begins -/
theorem stop_read_pos {r : Reserving} {first : Bool} {c : Cursor}
    (h : (Token.read r first c).token.kind ≠ .eof) :
    0 < (Token.read r first c).token.stop := by
  by_cases hrest : (Token.blanks first c).after.rest = []
  · rw [read_of_over hrest] at h
    exact absurd rfl h
  · rw [read_of_more hrest]
    have hlt := offset_lt_advance hrest
    have hle := (reaches_scan_of_ne_nil (r := r) hrest).offset_le
    exact Nat.lt_of_le_of_lt (Nat.zero_le _) (Nat.lt_of_lt_of_le hlt hle)

theorem pos_readRegex {c : Cursor} (h : ∀ fault, (readRegex c).kind ≠ .invalid fault) :
    0 < (readRegex c).after.offset := by
  unfold readRegex at h ⊢
  split
  · rename_i hend
    rw [hend] at h
    exact absurd rfl (h _)
  · rename_i after hend
    have hafter : 0 < after.offset :=
      Nat.lt_of_lt_of_le (Nat.succ_pos _) (reaches_regexEnd? hend).offset_le
    have hword := (reaches_readWord after).offset_le
    dsimp only
    repeat' split
    · exact Nat.lt_of_lt_of_le hafter hword
    · exact Nat.lt_of_lt_of_le hafter hword
    · exact hafter

theorem pos_readTemplate {c : Cursor} (h : c.rest ≠ []) (opening : Bool) :
    0 < (readTemplate c opening).after.offset := by
  have hlt := offset_lt_advance h
  have hreaches := reaches_readTemplateFrom c.offset opening (c.rest.length + 1) none c.advance
  have hle := hreaches.offset_le
  exact Nat.lt_of_le_of_lt (Nat.zero_le _) (Nat.lt_of_lt_of_le hlt hle)

end Frame

end Bindle.Script
