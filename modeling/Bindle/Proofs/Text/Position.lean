import Bindle.Cli.Context
import Bindle.Text.Position
import Mathlib.Order.Bounds.Basic

/-!
# Places point at characters

A place counts lines, columns and bytes by its own rules, and the lines of a text are cut by others:
a carriage return belongs to a line end only in front of a line feed.  Still they agree: the
character behind a place stands in the line and the column of the place, unless it is part of a line
end.

* `IsBoundary cs k`    byte `k` lies between two characters, or at an end;
* `p.NotAfter q`       `p` is `q` or stands before it, by bytes and by lines and columns;
* `p.down k n`         `p` in a text that begins `k` lines and `n` bytes later;
* `sinceBreak cs`      the characters behind the last line feed;
* `p.PointsAt s c`     the character `c` is at the line and the column of `p`, and shown there;
* `ofOffset_points`    what the places of a text are.
-/

namespace Bindle.Text

open Bindle.Cli

/-- byte `k` lies between two characters, or at an end -/
def IsBoundary (cs : List Char) (k : Nat) : Prop := ∃ a b, cs = a ++ b ∧ byteLength a = k

theorem IsBoundary.le {cs : List Char} {k : Nat} (h : IsBoundary cs k) : k ≤ byteLength cs := by
  obtain ⟨a, b, rfl, rfl⟩ := h
  rw [byteLength_append]
  exact Nat.le_add_right _ _

namespace Position

/-! ## the place behind a text -/

@[simp] theorem advanceAll_nil (p : Position) : p.advanceAll [] = p := rfl

@[simp] theorem advanceAll_cons (p : Position) (c : Char) (cs : List Char) :
    p.advanceAll (c :: cs) = (p.advance c).advanceAll cs := rfl

theorem advanceAll_append (p : Position) (a b : List Char) :
    p.advanceAll (a ++ b) = (p.advanceAll a).advanceAll b := List.foldl_append

theorem offset_advanceAll (p : Position) (cs : List Char) :
    (p.advanceAll cs).offset = p.offset + byteLength cs := by
  induction cs generalizing p with
  | nil => rfl
  | cons c cs ih => rw [advanceAll_cons, ih, advance_offset, byteLength_cons, Nat.add_assoc]

/-- `p` is `q` or stands before it -/
structure NotAfter (p q : Position) : Prop where
  offset : p.offset ≤ q.offset
  line : p.line < q.line ∨ p.line = q.line ∧ p.column ≤ q.column

theorem NotAfter.refl (p : Position) : p.NotAfter p := ⟨Nat.le_refl _, .inr ⟨rfl, Nat.le_refl _⟩⟩

theorem NotAfter.trans {p q r : Position} (hpq : p.NotAfter q) (hqr : q.NotAfter r) :
    p.NotAfter r := by
  obtain ⟨ho, hl⟩ := hpq
  obtain ⟨ho', hl'⟩ := hqr
  exact ⟨by omega, by omega⟩

theorem notAfter_advance (p : Position) (c : Char) : p.NotAfter (p.advance c) := by
  unfold advance
  split
  · exact ⟨Nat.le_add_right _ _, .inl (Nat.lt_succ_self _)⟩
  · exact ⟨Nat.le_add_right _ _, .inr ⟨rfl, Nat.le_succ _⟩⟩

theorem notAfter_advanceAll (p : Position) (cs : List Char) : p.NotAfter (p.advanceAll cs) := by
  induction cs generalizing p with
  | nil => exact .refl p
  | cons c cs ih => exact (p.notAfter_advance c).trans (ih _)

/-! ## the place of a byte -/

/-- going on as far as byte `n` allows: what has been passed, and that the next character is too
long -/
theorem exists_seek {p : Position} {n : Nat} (hp : p.offset ≤ n) (cs : List Char) :
    ∃ a b, cs = a ++ b ∧ p.seek n cs = p.advanceAll a ∧ (p.advanceAll a).offset ≤ n ∧
      ∀ c ∈ b.head?, n < (p.advanceAll a).offset + c.utf8Size := by
  induction cs generalizing p with
  | nil => exact ⟨[], [], rfl, rfl, hp, by simp⟩
  | cons c cs ih =>
    rw [seek]
    by_cases hn : p.offset + c.utf8Size > n
    · rw [if_pos hn]
      refine ⟨[], c :: cs, rfl, rfl, hp, fun d hd => ?_⟩
      obtain rfl : c = d := Option.some.inj hd
      exact hn
    · rw [if_neg hn]
      obtain ⟨a, b, rfl, hseek, hle, hnext⟩ := ih (p := p.advance c) (by
        rw [advance_offset]
        omega)
      exact ⟨c :: a, b, rfl, hseek, hle, hnext⟩

theorem exists_ofOffset (cs : List Char) (n : Nat) :
    ∃ a b, cs = a ++ b ∧ ofOffset cs n = start.advanceAll a ∧ byteLength a ≤ n ∧
      ∀ c ∈ b.head?, n < byteLength a + c.utf8Size := by
  obtain ⟨a, b, hcs, hseek, hle, hnext⟩ := exists_seek (p := start) (Nat.zero_le n) cs
  have hoffset : (start.advanceAll a).offset = byteLength a := by
    rw [offset_advanceAll]
    exact Nat.zero_add _
  rw [hoffset] at hle hnext
  exact ⟨a, b, hcs, hseek, hle, hnext⟩

theorem seek_append (p : Position) (a b : List Char) :
    p.seek (p.offset + byteLength a) (a ++ b) = p.advanceAll a := by
  induction a generalizing p with
  | nil =>
    cases b with
    | nil => rfl
    | cons c b =>
      have hc := utf8Size_pos c
      rw [List.nil_append, seek, if_pos (by rw [byteLength_nil]; omega)]
      rfl
  | cons c a ih =>
    rw [List.cons_append, seek, if_neg (by rw [byteLength_cons]; omega), byteLength_cons,
      ← Nat.add_assoc, ← advance_offset, ih, advanceAll_cons]

/-- the place of a boundary is reached through all that is before it -/
theorem ofOffset_append (a b : List Char) :
    ofOffset (a ++ b) (byteLength a) = start.advanceAll a := by
  have h := seek_append start a b
  rwa [show start.offset = 0 from rfl, Nat.zero_add] at h

/-- the last boundary that is not beyond byte `n` -/
theorem isGreatest_ofOffset (cs : List Char) (n : Nat) :
    IsGreatest {k | IsBoundary cs k ∧ k ≤ n ∧ k ≤ byteLength cs} (ofOffset cs n).offset := by
  obtain ⟨a, b, rfl, hplace, hle, hnext⟩ := exists_ofOffset cs n
  have hoffset : (ofOffset (a ++ b) n).offset = byteLength a := by
    rw [hplace, offset_advanceAll]
    exact Nat.zero_add _
  have hboundary : IsBoundary (a ++ b) (byteLength a) := ⟨a, b, rfl, rfl⟩
  rw [hoffset]
  refine ⟨⟨hboundary, hle, hboundary.le⟩, fun k ⟨⟨x, y, hxy, hk⟩, hkn, _⟩ => ?_⟩
  rw [← hk]
  rcases List.append_eq_append_iff.mp hxy with ⟨m, hx, hb⟩ | ⟨m, ha, -⟩
  · -- the boundary is behind `a`, and not at the end of the next character or later
    cases m with
    | nil => rw [hx, List.append_nil]
    | cons c m =>
      have hlt := hnext c (by rw [hb]; rfl)
      rw [hx, byteLength_append, byteLength_cons] at hk
      omega
  · rw [ha, byteLength_append]
    exact Nat.le_add_right _ _

theorem ofOffset_ofOffset (cs : List Char) (n : Nat) :
    ofOffset cs (ofOffset cs n).offset = ofOffset cs n := by
  obtain ⟨a, b, rfl, hplace, -, -⟩ := exists_ofOffset cs n
  rw [hplace, offset_advanceAll, show start.offset = 0 from rfl, Nat.zero_add, ofOffset_append]

theorem notAfter_ofOffset (cs : List Char) {n m : Nat} (h : n ≤ m) :
    (ofOffset cs n).NotAfter (ofOffset cs m) := by
  obtain ⟨a, b, hab, hplace, hle, -⟩ := exists_ofOffset cs n
  obtain ⟨x, y, hxy, hplace', -, hnext⟩ := exists_ofOffset cs m
  rw [hplace, hplace']
  rcases List.append_eq_append_iff.mp (hab.symm.trans hxy) with ⟨z, rfl, -⟩ | ⟨z, rfl, hy⟩
  · rw [advanceAll_append]
    exact notAfter_advanceAll _ z
  · cases z with
    | nil =>
      rw [List.append_nil]
      exact .refl _
    | cons c z =>
      have hlt := hnext c (by rw [hy]; rfl)
      rw [byteLength_append, byteLength_cons] at hle
      omega

/-! ## a text inside another one -/

/-- the place `lines` lines and `bytes` bytes further down, in the same column -/
def down (p : Position) (lines bytes : Nat) : Position :=
  ⟨p.line + lines, p.column, p.offset + bytes⟩

theorem advance_down (p : Position) (lines bytes : Nat) (c : Char) :
    (p.down lines bytes).advance c = (p.advance c).down lines bytes := by
  unfold advance
  split
  · show Position.mk (p.line + lines + 1) 1 (p.offset + bytes + _) = ⟨p.line + 1 + lines, 1, _⟩
    rw [Nat.add_right_comm, Nat.add_right_comm p.offset]
  · show Position.mk (p.line + lines) (p.column + 1) (p.offset + bytes + _) =
      ⟨p.line + lines, p.column + 1, _⟩
    rw [Nat.add_right_comm p.offset]

/-- a place of a text does not depend on what comes behind the text -/
theorem seek_down (p : Position) (lines bytes : Nat) {n : Nat} (cs more : List Char)
    (h : n ≤ p.offset + byteLength cs) :
    (p.down lines bytes).seek (n + bytes) (cs ++ more) = (p.seek n cs).down lines bytes := by
  induction cs generalizing p with
  | nil =>
    cases more with
    | nil => rfl
    | cons c more =>
      have hc := utf8Size_pos c
      rw [byteLength_nil] at h
      rw [List.nil_append, seek, seek, if_pos (by show p.offset + bytes + _ > _; omega)]
  | cons c cs ih =>
    rw [byteLength_cons] at h
    rw [List.cons_append, seek, seek]
    by_cases hn : p.offset + c.utf8Size > n
    · rw [if_pos hn, if_pos (by show p.offset + bytes + _ > _; omega)]
    · rw [if_neg hn, if_neg (by show ¬p.offset + bytes + _ > _; omega), advance_down]
      exact ih _ (by rw [advance_offset]; omega)

/-- all of a text is passed on the way to a place behind it -/
theorem seek_of_le (p : Position) {n : Nat} (front rest : List Char)
    (h : p.offset + byteLength front ≤ n) :
    p.seek n (front ++ rest) = (p.advanceAll front).seek n rest := by
  induction front generalizing p with
  | nil => rfl
  | cons c front ih =>
    rw [byteLength_cons] at h
    rw [List.cons_append, seek, if_neg (by omega), advanceAll_cons]
    exact ih _ (by rw [advance_offset]; omega)

end Position

/-! ## lines and columns -/

/-- how many characters stand behind the last line feed -/
def sinceBreak : List Char → Nat
  | [] => 0
  | c :: cs => if '\n' ∈ c :: cs then sinceBreak cs else sinceBreak cs + 1

theorem sinceBreak_of_mem {c : Char} {cs : List Char} (h : '\n' ∈ c :: cs) :
    sinceBreak (c :: cs) = sinceBreak cs := if_pos h

theorem sinceBreak_of_not_mem {c : Char} {cs : List Char} (h : '\n' ∉ c :: cs) :
    sinceBreak (c :: cs) = sinceBreak cs + 1 := if_neg h

namespace Position

theorem line_advanceAll (p : Position) (cs : List Char) :
    (p.advanceAll cs).line = p.line + cs.count '\n' := by
  induction cs generalizing p with
  | nil => rfl
  | cons c cs ih =>
    rw [advanceAll_cons, ih, List.count_cons]
    unfold advance
    by_cases hc : c = '\n'
    · simp only [hc, if_true, beq_self_eq_true]
      omega
    · simp only [hc, if_false, beq_iff_eq, Nat.add_zero]

theorem column_advanceAll (p : Position) (cs : List Char) :
    (p.advanceAll cs).column = (if '\n' ∈ cs then 1 else p.column) + sinceBreak cs := by
  induction cs generalizing p with
  | nil => rfl
  | cons c cs ih =>
    rw [advanceAll_cons, ih]
    by_cases hlater : '\n' ∈ cs
    · have hmem : '\n' ∈ c :: cs := List.mem_cons_of_mem _ hlater
      rw [if_pos hlater, if_pos hmem, sinceBreak_of_mem hmem]
    · by_cases hc : c = '\n'
      · have hmem : '\n' ∈ c :: cs := hc ▸ List.mem_cons_self
        rw [if_neg hlater, if_pos hmem, sinceBreak_of_mem hmem, advance, if_pos hc]
      · have hmem : '\n' ∉ c :: cs := by
          rw [List.mem_cons, not_or]
          exact ⟨fun h => hc h.symm, hlater⟩
        rw [if_neg hlater, if_neg hmem, sinceBreak_of_not_mem hmem, advance, if_neg hc,
          Nat.add_assoc, Nat.add_comm 1]

end Position

theorem linesOf_feed (cs : List Char) : linesOf ('\n' :: cs) = [] :: linesOf cs := by
  rw [linesOf]

theorem linesOf_return_feed (cs : List Char) :
    linesOf ('\r' :: '\n' :: cs) = [] :: linesOf cs := by
  rw [linesOf]

/-- a character that is not part of a line end begins the first line -/
theorem linesOf_cons {c : Char} {cs : List Char} (hc : c ≠ '\n')
    (hreturn : ¬ (c = '\r' ∧ cs.head? = some '\n')) :
    linesOf (c :: cs) = (c :: (linesOf cs).headD []) :: (linesOf cs).tail := by
  have hpair : ∀ ds, c = '\r' → cs = '\n' :: ds → False := by
    rintro ds rfl rfl
    exact hreturn ⟨rfl, rfl⟩
  cases cs with
  | nil => rw [linesOf.eq_4 c hc hpair, linesOf.eq_1, List.headD_nil, List.tail_nil]
  | cons d cs =>
    rw [linesOf.eq_5 c d cs hc hpair]
    cases linesOf (d :: cs) <;> rfl

/-- the character `c` stands in a line and a column of a text, both counted from 0 -/
def StandsAt (cs : List Char) (row column : Nat) (c : Char) : Prop :=
  ∃ l, (linesOf cs)[row]? = some l ∧ l[column]? = some c

namespace StandsAt

variable {cs : List Char} {row column : Nat} {c d : Char}

theorem feed (h : StandsAt cs row column c) : StandsAt ('\n' :: cs) (row + 1) column c := by
  unfold StandsAt
  rwa [linesOf_feed, List.getElem?_cons_succ]

theorem return_feed (h : StandsAt cs row column c) :
    StandsAt ('\r' :: '\n' :: cs) (row + 1) column c := by
  unfold StandsAt
  rwa [linesOf_return_feed, List.getElem?_cons_succ]

variable (hd : d ≠ '\n') (hreturn : ¬ (d = '\r' ∧ cs.head? = some '\n'))

include hd hreturn

theorem head : StandsAt (d :: cs) 0 0 d := by
  unfold StandsAt
  rw [linesOf_cons hd hreturn]
  exact ⟨_, rfl, rfl⟩

/-- a further character of the first line -/
theorem cons_first (h : StandsAt cs 0 column c) : StandsAt (d :: cs) 0 (column + 1) c := by
  obtain ⟨l, hl, hc⟩ := h
  unfold StandsAt
  rw [linesOf_cons hd hreturn]
  refine ⟨_, rfl, ?_⟩
  rwa [List.getElem?_cons_succ, List.headD_eq_head?_getD, List.head?_eq_getElem?, hl]

theorem cons_later (h : StandsAt cs (row + 1) column c) :
    StandsAt (d :: cs) (row + 1) column c := by
  unfold StandsAt
  rwa [linesOf_cons hd hreturn, List.getElem?_cons_succ, List.getElem?_tail]

end StandsAt

/-- the character behind a text is in the line and the column that the text comes to, unless it is
part of a line end -/
theorem standsAt_append (a : List Char) {c : Char} {b : List Char} (hc : c ≠ '\n')
    (hreturn : ¬ (c = '\r' ∧ b.head? = some '\n')) :
    StandsAt (a ++ c :: b) (a.count '\n') (sinceBreak a) c := by
  obtain ⟨n, hn⟩ : ∃ n, a.length = n := ⟨_, rfl⟩
  induction n using Nat.strong_induction_on generalizing a with
  | _ n ih =>
    cases a with
    | nil => exact .head hc hreturn
    | cons d a =>
      have hlater : StandsAt (a ++ c :: b) (a.count '\n') (sinceBreak a) c :=
        ih _ (by rw [← hn]; exact Nat.lt_succ_self _) a rfl
      by_cases hd : d = '\n'
      · subst hd
        rw [List.count_cons_self, sinceBreak_of_mem List.mem_cons_self]
        exact hlater.feed
      by_cases hpair : d = '\r' ∧ (a ++ c :: b).head? = some '\n'
      · -- a carriage return that belongs to a line feed is passed together with it
        obtain ⟨rfl, hhead⟩ := hpair
        cases a with
        | nil => exact absurd (Option.some.inj hhead) hc
        | cons e a =>
          obtain rfl : e = '\n' := Option.some.inj hhead
          rw [List.count_cons_of_ne hd, List.count_cons_self, sinceBreak_of_mem (by simp),
            sinceBreak_of_mem List.mem_cons_self]
          exact (ih _ (by rw [← hn, List.length_cons, List.length_cons]; omega) a rfl).return_feed
      · rw [List.count_cons_of_ne hd]
        by_cases hmem : '\n' ∈ a
        · obtain ⟨k, hk⟩ := Nat.exists_eq_succ_of_ne_zero (List.count_pos_iff.mpr hmem).ne'
          rw [sinceBreak_of_mem (List.mem_cons_of_mem _ hmem)]
          rw [hk] at hlater ⊢
          exact hlater.cons_later hd hpair
        · have hcons : '\n' ∉ d :: a := by
            rw [List.mem_cons, not_or]
            exact ⟨fun h => hd h.symm, hmem⟩
          rw [sinceBreak_of_not_mem hcons]
          rw [List.count_eq_zero_of_not_mem hmem] at hlater ⊢
          exact hlater.cons_first hd hpair

/-! ## the lines that are shown -/

/-- a line as it is shown, with the mark below one of its columns -/
def markedLine (width line column : Nat) (l : List Char) : String :=
  numberText width line ++ " | " ++ String.ofList l ++ "\n" ++ markLine width column

theorem exists_numberedLines {width line column n : Nat} {ls : List (List Char)} {l : List Char}
    (hn : n ≤ line) (h : ls[line - n]? = some l) :
    ∃ before after, numberedLines width line column n ls =
      before ++ markedLine width line column l ++ after := by
  induction ls generalizing n with
  | nil => simp at h
  | cons k ls ih =>
    rw [numberedLines]
    by_cases he : n = line
    · subst he
      rw [Nat.sub_self] at h
      obtain rfl : k = l := Option.some.inj h
      rw [if_pos rfl]
      refine ⟨"", numberedLines width n column (n + 1) ls, ?_⟩
      rw [String.empty_append]
      rfl
    · rw [if_neg he]
      obtain ⟨m, hm⟩ : ∃ m, line - n = m + 1 := ⟨line - n - 1, by omega⟩
      rw [hm, List.getElem?_cons_succ] at h
      obtain ⟨before, after, hrest⟩ := ih (n := n + 1) (by omega) (by
        rwa [show line - (n + 1) = m by omega])
      rw [hrest]
      refine ⟨numberText width n ++ " | " ++ String.ofList k ++ "\n" ++ "" ++ before, after, ?_⟩
      simp only [String.append_assoc]

/-- a line of a source is shown with its mark -/
theorem exists_contextText {source : String} {line column : Nat} {l : List Char}
    (hline : 0 < line) (h : (linesOf source.toList)[line - 1]? = some l) :
    ∃ width before after, contextText source line column =
      before ++ markedLine width line column l ++ after := by
  have hlt : line - 1 < (linesOf source.toList).length := (List.getElem?_eq_some_iff.mp h).1
  have hlast : line ≤ min (line + margin) (linesOf source.toList).length := by omega
  have hfirst : 0 < max (line - margin) 1 ∧ max (line - margin) 1 ≤ line := by omega
  unfold contextText
  dsimp only
  rw [if_neg (by omega)]
  generalize min (line + margin) (linesOf source.toList).length = last at hlast ⊢
  generalize max (line - margin) 1 = first at hfirst ⊢
  have hshown : (((linesOf source.toList).drop (first - 1)).take (last + 1 - first))[line - first]? =
      some l := by
    rw [List.getElem?_take_of_lt (by omega), List.getElem?_drop,
      show first - 1 + (line - first) = line - 1 by omega]
    exact h
  obtain ⟨before, after, hlines⟩ := exists_numberedLines hfirst.2 hshown
  rw [hlines]
  generalize String.ofList _ ++ "|--\n" = rule
  generalize (toString last).length = width
  exact ⟨width, rule ++ before, after ++ rule, by simp only [String.append_assoc]⟩

/-! ## places and characters -/

/-- `p` is the place of the character `c`: in the line and the column of `p`, both counted from 1,
stands `c`, and this line is shown with a mark below this column -/
structure Position.PointsAt (p : Position) (source : String) (c : Char) : Prop where
  line_pos : 0 < p.line
  column_pos : 0 < p.column
  stands : ∃ l, (linesOf source.toList)[p.line - 1]? = some l ∧ l[p.column - 1]? = some c ∧
    ∃ width before after, contextText source p.line p.column =
      before ++ markedLine width p.line p.column l ++ after

theorem pointsAt_ofOffset {source : String} {a b : List Char} {c : Char}
    (hsource : source.toList = a ++ c :: b) (hc : c ≠ '\n')
    (hreturn : ¬ (c = '\r' ∧ b.head? = some '\n')) :
    (Position.ofOffset source.toList (byteLength a)).PointsAt source c := by
  have hplace : Position.ofOffset source.toList (byteLength a) = Position.start.advanceAll a := by
    rw [hsource, Position.ofOffset_append]
  obtain ⟨l, hl, hchar⟩ := standsAt_append a hc hreturn
  rw [← hsource] at hl
  have hline : (Position.start.advanceAll a).line = a.count '\n' + 1 := by
    rw [Position.line_advanceAll]
    exact Nat.add_comm 1 _
  have hcolumn : (Position.start.advanceAll a).column = sinceBreak a + 1 := by
    rw [Position.column_advanceAll]
    show (if _ then 1 else 1) + _ = _
    rw [ite_self, Nat.add_comm]
  rw [hplace]
  refine ⟨by omega, by omega, l, ?_, ?_, ?_⟩
  · rw [hline]
    exact hl
  · rw [hcolumn]
    exact hchar
  · exact exists_contextText (by omega) (by rw [hline]; exact hl)

/-- **Places point at the text.**  The place of a byte is the last boundary that is not beyond it; it
does not move back for a later byte, and it is its own place; and the character behind a boundary
stands in the line and the column of its place, unless it is part of a line end. -/
theorem ofOffset_points (source : String) :
    (∀ n, IsGreatest {k | IsBoundary source.toList k ∧ k ≤ n ∧ k ≤ byteLength source.toList}
      (Position.ofOffset source.toList n).offset) ∧
    (∀ n m, n ≤ m →
      (Position.ofOffset source.toList n).NotAfter (Position.ofOffset source.toList m)) ∧
    (∀ n, Position.ofOffset source.toList (Position.ofOffset source.toList n).offset =
      Position.ofOffset source.toList n) ∧
    ∀ a c b, source.toList = a ++ c :: b → c ≠ '\n' → ¬ (c = '\r' ∧ b.head? = some '\n') →
      (Position.ofOffset source.toList (byteLength a)).offset = byteLength a ∧
      (Position.ofOffset source.toList (byteLength a)).PointsAt source c := by
  refine ⟨Position.isGreatest_ofOffset _, fun _ _ => Position.notAfter_ofOffset _,
    Position.ofOffset_ofOffset _, fun a c b hsource hc hreturn => ⟨?_, ?_⟩⟩
  · rw [hsource, Position.ofOffset_append, Position.offset_advanceAll]
    exact Nat.zero_add _
  · exact pointsAt_ofOffset hsource hc hreturn

/-- of two carriage returns only the first belongs to a line end; the other one is a character of
the second line -/
theorem ofOffset_points_return :
    (5 ≤ 6 ∧ (Position.ofOffset "ab\r\né\rx".toList 5).NotAfter
      (Position.ofOffset "ab\r\né\rx".toList 6)) ∧
    "ab\r\né\rx".toList = "ab\r\né".toList ++ '\r' :: "x".toList ∧ '\r' ≠ '\n' ∧
    ¬ ('\r' = '\r' ∧ "x".toList.head? = some '\n') ∧
    Position.ofOffset "ab\r\né\rx".toList 6 = ⟨2, 2, 6⟩ ∧
    (Position.ofOffset "ab\r\né\rx".toList 6).PointsAt "ab\r\né\rx" '\r' := by
  have hsource : "ab\r\né\rx".toList = "ab\r\né".toList ++ '\r' :: "x".toList := by decide +kernel
  have hreturn : ¬ ('\r' = '\r' ∧ "x".toList.head? = some '\n') := by decide +kernel
  have hlength : byteLength "ab\r\né".toList = 6 := by decide +kernel
  obtain ⟨-, hmove, -, hpoints⟩ := ofOffset_points "ab\r\né\rx"
  have hchar := (hpoints _ _ _ hsource (by decide) hreturn).2
  rw [hlength] at hchar
  exact ⟨⟨by decide, hmove 5 6 (by decide)⟩, hsource, by decide, hreturn, by decide +kernel, hchar⟩

end Bindle.Text
