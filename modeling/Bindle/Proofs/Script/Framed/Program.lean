import Bindle.Proofs.Script.Ahead
import Bindle.Proofs.Script.Framed.Module
import Bindle.Proofs.Script.Strings

/-!
# Whole scripts have twins

* `kind_of_program`          a script is read up to the end of its text;
* `Frame.exists_run`         a source that is accepted is accepted in the text around it, with the
                             same tree;
* `exists_readTree_behind`   so it is with a comment line behind it;
* `exists_readTree_front`    and with a comment before it.
-/

namespace Bindle.Script

open Bindle.Text Parse Grammar

/-! ## the end of a script -/

/-- what a part gave that ran with another context -/
theorem exists_of_within {α : Type} {change : Scope → Scope} {p : Parse α} {a : α} {s t : State}
    (h : within change p s = .ok a t) :
    ∃ u, p { s with scope := change s.scope } = .ok a u ∧ t = { u with scope := s.scope } := by
  unfold within at h
  cases hp : p { s with scope := change s.scope } with
  | error e u =>
    rw [hp] at h
    cases h
  | ok b u =>
    rw [hp] at h
    obtain ⟨rfl, rfl⟩ := EStateM.Result.ok.inj h
    exact ⟨u, rfl, rfl⟩

/-- what both parts of a sequence gave -/
theorem exists_of_bind {α β : Type} {p : Parse α} {q : α → Parse β} {b : β} {s t : State}
    (h : (p >>= q) s = .ok b t) : ∃ a u, p s = .ok a u ∧ q a u = .ok b t := by
  cases hp : p s with
  | error e u =>
    rw [bind_of_error hp] at h
    cases h
  | ok a u =>
    rw [bind_of_ok hp] at h
    exact ⟨a, u, rfl, h⟩

/-- the last step of a repetition -/
theorem exists_step_of_iterateN {α : Type} {step : α → Parse (Option α)} {n : Nat} {a b : α}
    {s t : State} (h : iterateN n step a s = .ok b t) : ∃ u, step b u = .ok none t := by
  induction n generalizing a s with
  | zero =>
    obtain ⟨e, fs, ms, hfail⟩ := Frame.Stops.failHere (α := α) (c := .nestedTooDeep) s
    exact absurd (h.symm.trans hfail) nofun
  | succ n ih =>
    rw [iterateN] at h
    cases hstep : step a s with
    | error e u =>
      rw [bind_of_error hstep] at h
      cases h
    | ok r u =>
      rw [bind_of_ok hstep] at h
      cases r with
      | none =>
        obtain ⟨rfl, rfl⟩ := EStateM.Result.ok.inj h
        exact ⟨s, hstep⟩
      | some c => exact ih h

/-- the statements of a script end where its text does -/
theorem kind_of_blockBody {item : Parse Node} {directives : Bool} {items : List Node}
    {s t : State} (h : blockBody item none directives s = .ok items t) : t.token.kind = .eof := by
  obtain ⟨u, hbody, rfl⟩ := exists_of_within h
  obtain ⟨found, v, hiterate, hpure⟩ := exists_of_bind hbody
  obtain ⟨-, rfl⟩ := EStateM.Result.ok.inj hpure
  obtain ⟨n, w, -, hiterateN⟩ := exists_of_bind hiterate
  obtain ⟨w', hstep⟩ := exists_step_of_iterateN hiterateN
  rw [bind_token] at hstep
  dsimp only at hstep
  by_cases heof : w'.token.kind = .eof
  · rw [if_pos (beq_iff_eq.mpr heof)] at hstep
    obtain ⟨-, rfl⟩ := EStateM.Result.ok.inj hstep
    exact heof
  · rw [if_neg (by rwa [beq_iff_eq])] at hstep
    obtain ⟨m, x, -, hrest⟩ := exists_of_bind hstep
    split at hrest
    · obtain ⟨_, y, -, hsome⟩ := exists_of_bind hrest
      exact absurd hsome nofun
    · exact absurd hrest nofun

theorem kind_of_program {g : Grammar} {tree : Node} {s t : State}
    (h : program g s = .ok tree t) : t.token.kind = .eof := by
  obtain ⟨items, u, hbody, hrest⟩ := exists_of_bind h
  rw [bind_get] at hrest
  dsimp only at hrest
  have heof := kind_of_blockBody hbody
  split at hrest
  · obtain ⟨_, v, hmodule, hnode⟩ := exists_of_bind hrest
    obtain ⟨-, rfl⟩ := EStateM.Result.ok.inj hmodule
    obtain ⟨-, rfl⟩ := EStateM.Result.ok.inj hnode
    exact heof
  · obtain ⟨-, rfl⟩ := EStateM.Result.ok.inj hrest
    exact heof

/-- a script without any token -/
theorem program_of_eof (g : Grammar) {s : State} (h : s.token.kind = .eof)
    (hmodule : s.isModule = false) :
    program g s = .ok (.mk .program 0 s.lastStop []) s := by
  have hbody : blockBody (moduleItem g) none true s = .ok [] s := by
    unfold blockBody
    refine within_of_ok (t := s) (bind_of_ok (a := []) (t := s) ?_)
    rw [iterate, bind_of_ok (p := remaining) (s := s) rfl]
    refine iterateN_of_none ?_
    rw [bind_token]
    dsimp only
    rw [if_pos (beq_iff_eq.mpr h)]
    rfl
  rw [program, bind_of_ok hbody, bind_get]
  dsimp only
  rw [if_neg (by rw [hmodule]; exact Bool.false_ne_true)]
  rfl
/-! ## runs -/

def firstReading (source : List Char) : Reading := Token.read {} true (firstCursor source)

namespace Frame

variable {w : Frame}

theorem sameContext_beginning (r r' : Reading) :
    w.SameContext (.beginning r) (.beginning r') where
  lastStart h := absurd h (Nat.lt_irrefl 0)
  lastStop := rfl
  faults _ := rfl
  moduleFaults _ := rfl
  scope := rfl
  labels := rfl
  isModule := rfl
  arrowStart := rfl
  trailingCommas := rfl

/-- **What is accepted is accepted in the text around it**, when the first token is the same. -/
theorem exists_run {text : List Char} (hlength : w.source.length ≤ text.length)
    (hfirst : (firstReading w.source).Wrong ∨
      w.SameReading (firstReading w.source) (firstReading text))
    {tree : Node} {t : State} (hrun : runProgram w.source = .ok tree t) (hfaults : t.faults = []) :
    ∃ tree' t', runProgram text = .ok tree' t' ∧ t'.faults = [] ∧
      ReadsProgram w 0 t.lastStop tree tree' := by
  have hfits : w.Fits (firstReading w.source) :=
    fits_read {} true (.inr (reaches_firstCursor _)) (mark_of_reaches (reaches_firstCursor _))
  obtain ⟨s, hplace, hfine, -, -, -, hgood⟩ := placed hfits hfirst
    (sameContext_beginning (w := w) (firstReading w.source) (firstReading text))
    ⟨[], w.source, rfl, rfl⟩ (Nat.zero_le _)
  have hgrammar : (ofDepth (depthOf w.source)).Twins w (ofDepth (depthOf text)) :=
    twins_ofDepth (Nat.add_le_add_right (Nat.mul_le_mul_left 4 hlength) 16)
  rw [runProgram_eq hplace] at hrun
  have ht : w.Good t := by
    have heof := kind_of_program hrun
    refine ⟨hfaults, fun fault hfault => ?_, fun name hname => ?_⟩
    · exact absurd (heof.symm.trans hfault) nofun
    · exact absurd (heof.symm.trans hname) nofun
  -- the run itself is its own twin, which tells that nothing is wrong with the first token
  have hs : w.Good s := by
    rcases (twin_program hgrammar).simAt s (w.state s)
      (Meets.mk hfine (twin_state s) (Nat.zero_le _) (Nat.zero_le _)) with
      ⟨e, u, herror, -⟩ | ⟨n, u, n', hok, -, -, -, hu⟩
    · exact absurd (herror.symm.trans hrun) nofun
    · obtain ⟨-, rfl⟩ := EStateM.Result.ok.inj (hok.symm.trans hrun)
      exact (hu ht).1
  obtain ⟨-, -, s', hplace', htwin⟩ := hgood hs
  rcases (twin_program hgrammar).simAt s s' (Meets.mk hfine htwin (Nat.zero_le _) (Nat.zero_le _))
    with ⟨e, u, herror, -⟩ | ⟨n, u, n', hok, -, -, hreads, hu⟩
  · exact absurd (herror.symm.trans hrun) nofun
  · obtain ⟨rfl, rfl⟩ := EStateM.Result.ok.inj (hok.symm.trans hrun)
    obtain ⟨-, t', hrun', htwin'⟩ := hu ht
    refine ⟨n', t', ?_, htwin'.faults hfaults, hreads⟩
    rw [runProgram_eq hplace']
    exact hrun'

end Frame

/-! ## the first token -/

/-- a comment of one line, with the line end -/
def IsLeadingComment (text : List Char) : Prop :=
  ∃ words, text = '/' :: '/' :: (words ++ ['\n']) ∧ ∀ c ∈ words, isLineEnd c = false

theorem skipBlanks_line_feed {words : List Char} (h : ∀ c ∈ words, isLineEnd c = false)
    (newline : Bool) (legacy : Option Nat) (remarks : List Remark) (offset : Nat)
    (rest : List Char) :
    skipBlanks .line newline legacy remarks offset (words ++ '\n' :: rest) =
      skipBlanks .plain true legacy remarks (offset + byteLength (words ++ ['\n'])) rest := by
  induction words generalizing offset with
  | nil =>
    rw [List.nil_append, skipBlanks, if_pos (by decide)]
    rfl
  | cons c words ih =>
    rw [List.cons_append, skipBlanks, if_neg (by rw [h c List.mem_cons_self]; decide),
      ih fun d hd => h d (List.mem_cons_of_mem c hd)]
    rw [List.cons_append, byteLength_cons, Nat.add_assoc]

/-- a leading comment is skipped -/
theorem blanks_leadingComment {front : List Char} (h : IsLeadingComment front)
    (source : List Char) :
    Token.blanks true ⟨front ++ source, 0⟩ = Token.blanks true ⟨source, byteLength front⟩ := by
  obtain ⟨words, rfl, hwords⟩ := h
  have hline : '/' :: '/' :: (words ++ ['\n']) ++ source =
      '/' :: '/' :: (words ++ '\n' :: source) := by
    simp
  have hlength : byteLength ('/' :: '/' :: (words ++ ['\n'])) =
      0 + '/'.utf8Size + '/'.utf8Size + byteLength (words ++ ['\n']) := by
    rw [byteLength_cons, byteLength_cons]
    omega
  have hstart : Token.blanks true ⟨'/' :: '/' :: (words ++ '\n' :: source), 0⟩ =
      skipBlanks .line true none [] (0 + '/'.utf8Size + '/'.utf8Size) (words ++ '\n' :: source) :=
    rfl
  rw [hline, hstart, skipBlanks_line_feed hwords, ← hlength]

/-- the first token behind a leading comment; at the end of the text its place is unlike -/
theorem read_leadingComment {front : List Char} (h : IsLeadingComment front)
    (source : List Char) (r : Reserving) :
    Token.read r true ⟨front ++ source, 0⟩ = Token.read r true ⟨source, byteLength front⟩ ∨
      (Token.read r true ⟨source, byteLength front⟩).token.kind = .eof ∧
      (Token.read r true ⟨front ++ source, 0⟩).token.kind = .eof ∧
      (Token.read r true ⟨front ++ source, 0⟩).remarks =
        (Token.read r true ⟨source, byteLength front⟩).remarks := by
  have hblanks := blanks_leadingComment h source
  by_cases hrest : (Token.blanks true ⟨source, byteLength front⟩).after.rest = []
  · rw [Frame.read_of_over hrest, Frame.read_of_over (by rwa [hblanks]), hblanks]
    exact .inr ⟨rfl, rfl, rfl⟩
  · rw [Frame.read_of_more hrest, Frame.read_of_more (by rwa [hblanks]), hblanks]
    exact .inl rfl

namespace Frame

variable {w : Frame}

theorem firstCursor_behind (h : w.before = 0) :
    firstCursor (w.source ++ w.behind) = w.cursor (firstCursor w.source) := by
  have hstart : (⟨w.source ++ w.behind, 0⟩ : Cursor) = w.cursor ⟨w.source, 0⟩ := by
    rw [cursor, h]
  unfold firstCursor
  dsimp only
  rw [isPrefixOf_append (by decide), hstart, takeWhile_cursor (by decide)]
  split <;> rfl

/-- behind the source there is nothing that its first token depends on -/
theorem firstReading_behind (h : w.before = 0) :
    (firstReading w.source).Wrong ∨
      w.SameReading (firstReading w.source) (firstReading (w.source ++ w.behind)) := by
  unfold firstReading
  rw [firstCursor_behind h]
  exact (read_cursor (w := w) true _).imp (fun h => h _) (fun h => h _)

/-- a leading comment changes nothing but the place of the first token, and that at the end of the
text not even by its length -/
theorem firstReading_front {front source : List Char} (h : IsLeadingComment front)
    (hsource : ['#', '!'].isPrefixOf source = false) :
    let w : Frame := ⟨source, byteLength front, [], .inl rfl⟩
    (firstReading source).Wrong ∨
      w.SameReading (firstReading source) (firstReading (front ++ source)) ∨
      (firstReading source).token.kind = .eof ∧ (firstReading (front ++ source)).token.kind = .eof ∧
      (firstReading (front ++ source)).remarks = (firstReading source).remarks.map w.remark := by
  intro w
  have hfront : firstCursor (front ++ source) = ⟨front ++ source, 0⟩ := by
    obtain ⟨words, rfl, -⟩ := h
    rfl
  have hplain : firstCursor source = ⟨source, 0⟩ := by
    unfold firstCursor
    dsimp only
    rw [hsource, if_neg Bool.false_ne_true]
  have hcursor : w.cursor ⟨source, 0⟩ = ⟨source, byteLength front⟩ := by
    rw [cursor, List.append_nil, Nat.zero_add]
  unfold firstReading
  rw [hfront, hplain]
  rcases read_cursor (w := w) true ⟨source, 0⟩ with hwrong | hsame
  · exact .inl (hwrong _)
  have hread := hsame {}
  rw [hcursor] at hread
  refine .inr ?_
  rcases read_leadingComment h source {} with heq | ⟨heof, heof', hremarks⟩
  · rw [heq]
    exact .inl hread
  · refine .inr ⟨?_, heof', hremarks.trans hread.remarks⟩
    rw [hread.kind] at heof
    exact kind_eq_eof_iff.mp heof

/-- a source without any token is an empty script, in the text around it as well -/
theorem exists_run_of_eof {text : List Char}
    (heof : (firstReading w.source).token.kind = .eof)
    (heof' : (firstReading text).token.kind = .eof)
    (hremarks : (firstReading text).remarks = (firstReading w.source).remarks.map w.remark)
    {tree : Node} {t : State} (hrun : runProgram w.source = .ok tree t) (hfaults : t.faults = []) :
    ∃ tree' t', runProgram text = .ok tree' t' ∧ t'.faults = [] ∧
      ReadsProgram w 0 t.lastStop tree tree' := by
  obtain ⟨fs, ms, hleft, -⟩ := exists_reportAll (firstReading w.source).remarks
    (.beginning (firstReading w.source))
  rw [runProgram_eq hleft, program_of_eof _ heof rfl] at hrun
  obtain ⟨rfl, rfl⟩ := EStateM.Result.ok.inj hrun
  have hcontext := sameContext_beginning (w := w) (firstReading w.source) (firstReading text)
  rcases (Notes.reportAll (w := w) (firstReading w.source).remarks).notesAt _ _ hcontext with
    ⟨e, gs, ns, hnotes⟩ | ⟨_, gs, ns, _, hnotes, -, hnoted⟩
  · exact absurd (hnotes.symm.trans hleft) nofun
  obtain ⟨-, hnoting⟩ := EStateM.Result.ok.inj (hnotes.symm.trans hleft)
  have hgs : gs = [] := (List.append_eq_nil_iff.mp
    ((congrArg State.faults hnoting).trans hfaults)).1
  obtain ⟨ms', hright, -⟩ := hnoted hgs
  rw [← hremarks] at hright
  refine ⟨_, _, (runProgram_eq hright).trans (program_of_eof _ heof' rfl), rfl, ⟨rfl, rfl⟩, rfl, ?_⟩
  exact .nil (Nat.le_refl 0)

end Frame

/-! ## trees -/

theorem exists_run_of_readTree {source : List Char} {tree : Node}
    (h : readTree source = .ok tree) :
    ∃ t, runProgram (withoutMark source) = .ok tree t ∧ t.faults = [] := by
  unfold readTree at h
  cases hrun : runProgram (withoutMark source) with
  | error e t =>
    rw [hrun] at h
    cases h
  | ok n t =>
    rw [hrun] at h
    dsimp only at h
    split at h
    · cases h
    · obtain rfl := Except.ok.inj h
      exact ⟨t, rfl, List.reverse_eq_nil_iff.mp ‹_›⟩

theorem readTree_of_run {source : List Char} {tree : Node} {t : State}
    (hrun : runProgram (withoutMark source) = .ok tree t) (hfaults : t.faults = []) :
    readTree source = .ok tree := by
  rw [readTree, hrun]
  dsimp only
  rw [hfaults]
  rfl

theorem withoutMark_append {source behind : List Char} (h : behind.head? ≠ some byteOrderMark) :
    withoutMark (source ++ behind) = withoutMark source ++ behind := by
  cases source with
  | nil =>
    cases behind with
    | nil => rfl
    | cons c behind => exact if_neg fun heq => h (congrArg some heq)
  | cons c source =>
    rw [List.cons_append, withoutMark, withoutMark]
    split <;> rfl

/-- **A source with a comment line behind it has the same tree.** -/
theorem exists_readTree_behind {source : List Char} {tree : Node} (h : readTree source = .ok tree)
    {behind : List Char} (hbehind : IsCommentLine behind) :
    ∃ tree' hi, readTree (source ++ behind) = .ok tree' ∧
      ReadsProgram ⟨withoutMark source, 0, behind, hbehind⟩ 0 hi tree tree' := by
  obtain ⟨t, hrun, hfaults⟩ := exists_run_of_readTree h
  let w : Frame := ⟨withoutMark source, 0, behind, hbehind⟩
  have hmark : withoutMark (source ++ behind) = w.source ++ w.behind := by
    refine withoutMark_append ?_
    rcases hbehind with rfl | ⟨words, rfl, -⟩ <;> exact nofun
  have hlength : w.source.length ≤ (w.source ++ w.behind).length := by
    rw [List.length_append]
    exact Nat.le_add_right _ _
  obtain ⟨tree', t', hrun', hfaults', hreads⟩ := Frame.exists_run (w := w) hlength
    (Frame.firstReading_behind rfl) hrun hfaults
  rw [← hmark] at hrun'
  exact ⟨tree', _, readTree_of_run hrun' hfaults', hreads⟩

/-- **A source with a comment before it has the same tree**, but that all stands further back. -/
theorem exists_readTree_front {source : List Char} {tree : Node} (h : readTree source = .ok tree)
    (hmark : withoutMark source = source) (hplain : ['#', '!'].isPrefixOf source = false)
    {front : List Char} (hfront : IsLeadingComment front) :
    ∃ tree' hi, readTree (front ++ source) = .ok tree' ∧
      ReadsProgram ⟨source, byteLength front, [], .inl rfl⟩ 0 hi tree tree' := by
  obtain ⟨t, hrun, hfaults⟩ := exists_run_of_readTree h
  rw [hmark] at hrun
  let w : Frame := ⟨source, byteLength front, [], .inl rfl⟩
  have hmark' : withoutMark (front ++ source) = front ++ source := by
    obtain ⟨words, rfl, -⟩ := hfront
    rfl
  have hlength : w.source.length ≤ (front ++ source).length := by
    rw [List.length_append]
    exact Nat.le_add_left _ _
  have hexists : ∃ tree' t', runProgram (front ++ source) = .ok tree' t' ∧ t'.faults = [] ∧
      ReadsProgram w 0 t.lastStop tree tree' := by
    rcases Frame.firstReading_front hfront hplain with hwrong | hsame | ⟨heof, heof', hremarks⟩
    · exact Frame.exists_run (w := w) hlength (.inl hwrong) hrun hfaults
    · exact Frame.exists_run (w := w) hlength (.inr hsame) hrun hfaults
    · exact Frame.exists_run_of_eof (w := w) heof heof' hremarks hrun hfaults
  obtain ⟨tree', t', hrun', hfaults', hreads⟩ := hexists
  rw [← hmark'] at hrun'
  exact ⟨tree', _, readTree_of_run hrun' hfaults', hreads⟩

end Bindle.Script
