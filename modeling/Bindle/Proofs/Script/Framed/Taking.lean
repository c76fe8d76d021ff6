import Bindle.Proofs.Script.Framed.Twins

/-!
# Twin runs take tokens

* `Frame.Fits`            what a reading gives has its places in the source;
* `Frame.placed`          the found token becomes the current one on both sides;
* `Frame.SimAt.advance`   a token that is no end of the source and could be read is taken;
* `Frame.SimAt.rescan`    a punctuator is put back and read in another way;
* `Frame.SimAt.peek`      a look behind a word;
* `Frame.Sim.ifEat`, `Frame.Sim.expect`, …   tokens that the grammar asks for.
-/

namespace Bindle.Script

open Bindle.Text

/-- tokens that can be taken: not the end of the text, and not one that could not be read -/
def Token.Kind.isProper : Token.Kind → Bool
  | .eof | .invalid _ => false
  | _ => true

namespace Frame

variable {w : Frame} {α α' β β' : Type}
variable {lo l : Nat} {R : Nat → α → α' → Prop} {S : Nat → β → β' → Prop} {s s' : State}

/-! ## readings in the source -/

structure Fits (w : Frame) (r : Reading) : Prop where
  right : (⟨w.source, 0⟩ : Probe).Right r
  start : w.Mark r.token.start
  after : w.Mark r.after.offset
  stop_pos : r.token.kind ≠ .eof → (∀ fault, r.token.kind ≠ .invalid fault) → 0 < r.token.stop

theorem Mark.of_reaches {c d : Cursor} (hmark : w.Mark c.offset)
    (hc : (⟨w.source, 0⟩ : Probe).Within c) (h : c.Reaches d) : w.Mark d.offset := by
  rcases hc with hrest | hc
  · obtain ⟨taken, hsplit, hoffset⟩ := h
    rw [hrest] at hsplit
    obtain ⟨rfl, -⟩ := List.append_eq_nil_iff.mp hsplit.symm
    rw [hoffset]
    exact hmark
  · exact mark_of_reaches (hc.trans h)

theorem fits_read (r : Reserving) (first : Bool) {c : Cursor}
    (hc : (⟨w.source, 0⟩ : Probe).Within c) (hmark : w.Mark c.offset) :
    w.Fits (Token.read r first c) where
  right := Probe.right_read r first hc
  start := by
    obtain ⟨start, newline, hread, hstart⟩ := read_cases r first c
    rw [hread]
    show w.Mark start
    rcases hstart with hlegacy | rfl | ⟨-, rfl⟩
    · obtain ⟨d, hd, rfl, -⟩ := marks_skipBlanks _ _ _ _ _ _ hlegacy
      exact hmark.of_reaches hc hd
    · exact hmark.of_reaches hc (reaches_blanks first c)
    · exact hmark
  after := hmark.of_reaches hc (reaches_read r first c)
  stop_pos h _ := stop_read_pos h

/-! ## the current token -/

open Parse

/-- **The found token becomes the current one.**  If nothing is wrong then, it is the same one on
both sides. -/
theorem placed {r r' : Reading} (hr : w.Fits r) (hsame : r.Wrong ∨ w.SameReading r r')
    (hcontext : w.SameContext s s') (hmark : w.Mark s.lastStop)
    (hstart : s.lastStop ≤ r.token.start) :
    ∃ t, place r s = .ok () t ∧ w.Fine t ∧ t.token = r.token ∧ t.lastStop = s.lastStop ∧
      (t.faults = [] → s.faults = []) ∧
      (w.Good t → ¬r.Wrong ∧ w.SameReading r r' ∧
        ∃ t', place r' s' = .ok () t' ∧ w.Twin t t') := by
  obtain ⟨fs, ms, hleft, halways⟩ :=
    exists_reportAll r.remarks { s with token := r.token, cursor := r.after }
  obtain ⟨t, hplace, hsound, hstop, hfaults⟩ := Probe.place_spec hr.right s hstart
  obtain ⟨-, rfl⟩ := EStateM.Result.ok.inj (hplace.symm.trans hleft)
  refine ⟨_, hplace, ⟨hsound, hr.after, hr.start, hmark, hr.stop_pos⟩, rfl, rfl, hfaults,
    fun hgood => ?_⟩
  obtain ⟨rfl, -⟩ := List.append_eq_nil_iff.mp hgood.faults
  have hright : ¬r.Wrong := by
    rintro (⟨fault, hfault⟩ | ⟨remark, hmem, hcondition⟩)
    · exact hgood.valid fault hfault
    · exact halways rfl remark hmem hcondition
  have hread : w.SameReading r r' := hsame.resolve_left hright
  -- the remarks are noted in the text too, and none of them counts
  have hmoved : w.SameContext { s with token := r.token, cursor := r.after }
      { s' with token := r'.token, cursor := r'.after } := { hcontext with }
  rcases (Notes.reportAll (w := w) r.remarks).notesAt _ _ hmoved with
    ⟨e, gs, ns, hnotes⟩ | ⟨_, gs, ns, _, hnotes, -, hnoted⟩
  · exact absurd (hnotes.symm.trans hleft) nofun
  obtain ⟨-, hnoting⟩ := EStateM.Result.ok.inj (hnotes.symm.trans hleft)
  have hgs : gs = [] := (List.append_eq_nil_iff.mp
    ((congrArg State.faults hnoting).trans hgood.faults)).1
  subst hgs
  obtain ⟨ms', hplace', hms⟩ := hnoted rfl
  rw [← hread.remarks] at hplace'
  refine ⟨hright, hread, _, hplace', ?_⟩
  rw [← hnoting]
  exact { hmoved.noting hms with
    kind := hread.kind
    start := hread.start
    newline := hread.newline
    strictRemarks := hread.strictRemarks
    behind := hread.behind
    length_le := hread.length_le }

/-- the state in which the current token is behind and the next one not yet read -/
def taken (s : State) : State := { s with lastStart := s.token.start, lastStop := s.token.stop }

/-- makes the token behind the current one the current one -/
def take : Parse Unit := fun s => place (Token.read s.scope.toReserving false s.cursor) (taken s)

theorem advance_eq : advance = (Parse.token >>= fun t =>
    reportStrictAll t.strictRemarks >>= fun _ => take >>= fun _ => pure t) := by
  funext s
  obtain ⟨fs, ms, hstrict⟩ := exists_reportStrictAll s.token.strictRemarks s
  show EStateM.bind (reportStrictAll s.token.strictRemarks) _ s =
    EStateM.bind (reportStrictAll s.token.strictRemarks) _ s
  rw [EStateM.bind, hstrict, EStateM.bind, hstrict]
  rfl

/-- the reading behind the current token -/
theorem fits_next (hs : w.Fine s) : w.Fits (Token.read s.scope.toReserving false s.cursor) ∧
    w.Mark s.token.stop ∧
    s.token.stop ≤ (Token.read s.scope.toReserving false s.cursor).token.start := by
  rw [hs.sound.stop_eq]
  exact ⟨fits_read _ false hs.sound.cursor hs.cursor, hs.cursor, (start_read ..).1⟩

theorem Later.of_taken {t : State} (hs : w.Fine s)
    (htoken : t.token = (Token.read s.scope.toReserving false s.cursor).token)
    (hlast : t.lastStop = s.token.stop) (hfaults : t.faults = [] → s.faults = []) :
    Later s t := by
  have hbehind := (fits_next hs).2.2
  refine ⟨?_, ?_, hfaults⟩
  · rw [htoken]
    exact Nat.le_trans hs.sound.start_le hbehind
  · rw [hlast]
    exact Nat.le_trans hs.sound.lastStop_le hs.sound.start_le

theorem simAt_take (hs : w.Meets lo l s s') (heof : s.token.kind ≠ .eof)
    (hvalid : ∀ fault, s.token.kind ≠ .invalid fault) :
    w.SimAt (fun hi _ _ => hi = s.token.stop) s s' take take := by
  obtain ⟨hstop, hcursor⟩ := hs.twin.behind heof
  have hpos : 0 < s.token.stop := hs.fine.stop_pos heof hvalid
  have hcontext : w.SameContext (taken s) (taken s') := { hs.twin.toSameContext with
    lastStart := fun _ => hs.twin.start
    lastStop := hstop.trans (Frame.stop_of_pos hpos).symm }
  have hnext := read_cursor (w := w) false s.cursor
  have hsame : (Token.read s.scope.toReserving false s.cursor).Wrong ∨
      w.SameReading (Token.read s.scope.toReserving false s.cursor)
        (Token.read s'.scope.toReserving false s'.cursor) := by
    rw [hs.twin.scope, hcursor]
    exact hnext.imp (fun h => h _) (fun h => h _)
  obtain ⟨hfits, hmark, hbehind⟩ := fits_next hs.fine
  obtain ⟨t, hplace, hfine, htoken, hlast, hfaults, hgood⟩ :=
    placed hfits hsame hcontext hmark hbehind
  refine .inr ⟨(), t, (), hplace, hfine, .of_taken hs.fine htoken hlast hfaults, hlast,
    fun ht => ?_⟩
  obtain ⟨hright, -, t', hplace', htwin⟩ := hgood ht
  refine ⟨⟨hfaults ht.faults, hvalid, fun _ _ => ?_⟩, t', hplace', htwin⟩
  -- the token behind could be read, so it is read alike however the words are reserved
  exact hnext.resolve_left fun hwrong => hright (hwrong _)

/-- any token is taken in a run of its own -/
theorem fine_advance (hs : w.Fine s) :
    ∃ t, advance s = .ok s.token t ∧ w.Fine t ∧ Later s t := by
  obtain ⟨fs, ms, hstrict⟩ := exists_reportStrictAll s.token.strictRemarks s
  have hnoted : w.Fine (s.noting fs ms) := hs.noting fs ms
  obtain ⟨hfits, hmark, hbehind⟩ := fits_next hnoted
  obtain ⟨t, hplace, hfine, htoken, hlast, hfaults, -⟩ := placed hfits
    ((read_cursor (w := w) false s.cursor).imp (fun h => h _) (fun h => h _))
    (twin_state (taken (s.noting fs ms))).toSameContext hmark hbehind
  refine ⟨t, ?_, hfine, (Later.noting s fs ms).trans (.of_taken hnoted htoken hlast hfaults)⟩
  have htake : take (s.noting fs ms) = .ok () t := hplace
  rw [advance_eq, token_bind, bind_of_ok hstrict, bind_of_ok htake]
  rfl

/-- **A token is taken, and the next one is read.** -/
theorem simAt_advance (hs : w.Meets lo l s s') (heof : s.token.kind ≠ .eof)
    (hvalid : ∀ fault, s.token.kind ≠ .invalid fault) :
    w.SimAt (fun hi t t' => hi = s.token.stop ∧ t = s.token ∧ t' = s'.token) s s'
      advance advance := by
  rw [advance_eq]
  refine .tokens ?_
  rw [hs.twin.strictRemarks]
  refine SimAt.notesThen hs (.reportStrictAll s.token.strictRemarks) ?_
  intro _ _ fs ms t' _ ht
  refine (simAt_take ht heof hvalid).bind fun _ _ u u' hfine htwin _ hu => ?_
  exact .pure ⟨hfine, htwin, Nat.zero_le _, Nat.zero_le _⟩ ⟨hu, rfl, rfl⟩

namespace SimAt

/-- what comes behind a token that was taken -/
theorem advance {q : Token → Parse β} {q' : Token → Parse β'} (hs : w.Meets lo l s s')
    (hproper : s.token.kind.isProper)
    (hq : ∀ h, h = s.token.stop → s.token.start ≤ h → lo ≤ h → l ≤ h → 0 < h → w.Mark h →
      w.Sim h h S (q s.token) (q' s'.token)) :
    w.SimAt S s s' (Parse.advance >>= q) (Parse.advance >>= q') := by
  have heof : s.token.kind ≠ .eof := by
    intro h
    rw [h] at hproper
    exact Bool.false_ne_true hproper
  have hvalid : ∀ fault, s.token.kind ≠ .invalid fault := by
    intro fault h
    rw [h] at hproper
    exact Bool.false_ne_true hproper
  have hsound := hs.fine.sound
  have hlo : lo ≤ s.token.stop := Nat.le_trans hs.lo_le hsound.start_le
  have hl : l ≤ s.token.stop :=
    Nat.le_trans hs.l_le (Nat.le_trans hsound.lastStop_le hsound.start_le)
  have hmark : w.Mark s.token.stop := by
    rw [hsound.stop_eq]
    exact hs.fine.cursor
  refine (simAt_advance hs heof hvalid).bind ?_
  rintro _ _ t t' hfine htwin - ⟨hstop, rfl, rfl⟩
  exact (hq _ rfl hsound.start_le hlo hl (hs.fine.stop_pos heof hvalid) hmark).simAt t t'
    ⟨hfine, htwin, hstop ▸ hfine.sound.lastStop_le, Nat.le_of_eq hstop.symm⟩

/-- the token that was taken is known already -/
theorem advanceThen {q : Parse β} {q' : Parse β'} (hs : w.Meets lo l s s')
    (hproper : s.token.kind.isProper)
    (hq : ∀ h, s.token.start ≤ h → l ≤ h → 0 < h → w.Sim h h S q q') :
    w.SimAt S s s' (Parse.advance >>= fun _ => q) (Parse.advance >>= fun _ => q') :=
  .advance hs hproper fun h _ hstart _ hl hpos _ => hq h hstart hl hpos

end SimAt

/-! ## tokens that the grammar asks for -/

theorem eat_bind (x : Symbol) (q : Bool → Parse α) : (eat x >>= q) = (atSymbol x >>= fun yes =>
    if yes then advance >>= fun _ => q true else q false) := by
  unfold eat
  rw [bind_assoc]
  congr 1
  funext yes
  cases yes with
  | true => rw [if_pos rfl, if_pos rfl, bind_assoc]; rfl
  | false => rfl

theorem eatWord_bind (name : String) (q : Bool → Parse α) :
    (eatWord name >>= q) = (atWord name >>= fun yes =>
      if yes then advance >>= fun _ => q true else q false) := by
  unfold eatWord
  rw [bind_assoc]
  congr 1
  funext yes
  cases yes with
  | true => rw [if_pos rfl, if_pos rfl, bind_assoc]; rfl
  | false => rfl

namespace SimAt

theorem eat {x : Symbol} {q : Bool → Parse β} {q' : Bool → Parse β'} (hs : w.Meets lo l s s')
    (hyes : ∀ h, s.token.start ≤ h → l ≤ h → 0 < h → w.Sim h h S (q true) (q' true))
    (hno : w.SimAt S s s' (q false) (q' false)) :
    w.SimAt S s s' (Parse.eat x >>= q) (Parse.eat x >>= q') := by
  rw [eat_bind, eat_bind]
  refine .atSymbol hs (fun hkind => ?_) hno
  exact .advanceThen hs (by rw [hkind]; rfl) hyes

theorem eatWord {name : String} {q : Bool → Parse β} {q' : Bool → Parse β'}
    (hs : w.Meets lo l s s')
    (hyes : ∀ h, s.token.start ≤ h → l ≤ h → 0 < h → w.Sim h h S (q true) (q' true))
    (hno : w.SimAt S s s' (q false) (q' false)) :
    w.SimAt S s s' (Parse.eatWord name >>= q) (Parse.eatWord name >>= q') := by
  rw [eatWord_bind, eatWord_bind]
  refine .atWord hs (fun hkind => ?_) hno
  exact .advanceThen hs (by rw [hkind]; rfl) hyes

end SimAt

instance (x : Symbol) : w.Steps (eat x) (eat x) := by
  refine ⟨fun lo l => ⟨fun s s' hs => ?_⟩⟩
  rw [← bind_pure (eat x)]
  exact .eat hs (fun h _ _ _ => .pure fun _ _ => rfl) (.pure hs rfl)

instance (name : String) : w.Steps (eatWord name) (eatWord name) := by
  refine ⟨fun lo l => ⟨fun s s' hs => ?_⟩⟩
  rw [← bind_pure (eatWord name)]
  exact .eatWord hs (fun h _ _ _ => .pure fun _ _ => rfl) (.pure hs rfl)

instance : w.Steps eatEnd eatEnd := by
  refine ⟨fun lo l => .andThen fun yes => .ite (.pure fun _ _ => rfl) ?_⟩
  exact Steps.sim lo l

namespace Sim

variable {p : Parse β} {p' : Parse β'} {q : Parse β} {q' : Parse β'}

/-- behind a token that was eaten, or as before -/
theorem ifEat {x : Symbol} (hyes : ∀ h, lo ≤ h → l ≤ h → 0 < h → w.Sim h h S p p')
    (hno : w.Sim lo l S q q') :
    w.Sim lo l S (Parse.eat x >>= fun yes => if yes = true then p else q)
      (Parse.eat x >>= fun yes => if yes = true then p' else q') :=
  ⟨fun s s' hs => .eat hs (fun h hstart => hyes h (Nat.le_trans hs.lo_le hstart))
    (hno.simAt s s' hs)⟩

theorem ifEatWord {name : String} (hyes : ∀ h, lo ≤ h → l ≤ h → 0 < h → w.Sim h h S p p')
    (hno : w.Sim lo l S q q') :
    w.Sim lo l S (Parse.eatWord name >>= fun yes => if yes = true then p else q)
      (Parse.eatWord name >>= fun yes => if yes = true then p' else q') :=
  ⟨fun s s' hs => .eatWord hs (fun h hstart => hyes h (Nat.le_trans hs.lo_le hstart))
    (hno.simAt s s' hs)⟩

theorem expect {x : Symbol} {q : Unit → Parse β} {q' : Unit → Parse β'}
    (hq : ∀ h, lo ≤ h → l ≤ h → 0 < h → w.Sim h h S (q ()) (q' ())) :
    w.Sim lo l S (Parse.expect x >>= q) (Parse.expect x >>= q') := by
  unfold Parse.expect
  rw [bind_assoc, bind_assoc]
  refine ⟨fun s s' hs => .eat hs (fun h hstart hl hpos => ?_) ?_⟩
  · exact hq h (Nat.le_trans hs.lo_le hstart) hl hpos
  · exact .of_stops hs (.bind (.token fun t => .failHere))

theorem expectWord {name : String} {q : Unit → Parse β} {q' : Unit → Parse β'}
    (hq : ∀ h, lo ≤ h → l ≤ h → 0 < h → w.Sim h h S (q ()) (q' ())) :
    w.Sim lo l S (Parse.expectWord name >>= q) (Parse.expectWord name >>= q') := by
  unfold Parse.expectWord
  rw [bind_assoc, bind_assoc]
  refine ⟨fun s s' hs => .eatWord hs (fun h hstart hl hpos => ?_) ?_⟩
  · exact hq h (Nat.le_trans hs.lo_le hstart) hl hpos
  · exact .of_stops hs (.bind (.token fun t => .failHere))

end Sim

instance (x : Symbol) : w.Steps (expect x) (expect x) := by
  refine ⟨fun lo l => .andThen fun yes => ?_⟩
  exact .ite (.of_stops (.token fun t => .failHere)) (.pure fun _ _ => rfl)

instance (name : String) : w.Steps (expectWord name) (expectWord name) := by
  refine ⟨fun lo l => .andThen fun yes => ?_⟩
  exact .ite (.of_stops (.token fun t => .failHere)) (.pure fun _ _ => rfl)

instance : w.Steps expectEnd expectEnd := by
  refine ⟨fun lo l => .andThen fun yes => ?_⟩
  exact .ite (.of_stops .failHere) (.pure fun _ _ => rfl)

/-! ## tokens that could not be read -/

/-- behind this step the token could be read; otherwise the script is refused -/
theorem SimAt.refuseInvalid {q : Unit → Parse β} {q' : Unit → Parse β'} (hs : w.Meets lo l s s')
    (hq : (∀ fault, s.token.kind ≠ .invalid fault) → w.SimAt S s s' (q ()) (q' ())) :
    w.SimAt S s s' (Parse.refuseInvalid >>= q) (Parse.refuseInvalid >>= q') := by
  by_cases hinvalid : ∃ fault, s.token.kind = .invalid fault
  · obtain ⟨fault, hfault⟩ := hinvalid
    obtain ⟨t, hadvance, hfine, hlater⟩ := fine_advance hs.fine
    refine .inl ⟨fault, t, bind_of_error ?_, hfine, hlater⟩
    rw [Parse.refuseInvalid, token_bind, hfault]
    exact bind_of_ok hadvance
  · have hvalid : ∀ fault, s.token.kind ≠ .invalid fault := not_exists.mp hinvalid
    have hstays : ∀ u : State, (∀ fault, u.token.kind ≠ .invalid fault) →
        Parse.refuseInvalid u = .ok () u := by
      intro u hu
      rw [Parse.refuseInvalid, token_bind]
      cases hkind : u.token.kind with
      | invalid fault => exact absurd hkind (hu fault)
      | _ => rfl
    have hright : ∀ fault, s'.token.kind ≠ .invalid fault := by
      intro fault hfault
      rw [hs.twin.kind] at hfault
      cases hkind : s.token.kind with
      | invalid f => exact hvalid f hkind
      | _ => rw [hkind] at hfault; cases hfault
    have hboth : ∀ {γ : Type} (q : Unit → Parse γ) (u : State),
        (∀ fault, u.token.kind ≠ .invalid fault) → (Parse.refuseInvalid >>= q) u = q () u :=
      fun q u hu => bind_of_ok (hstays u hu)
    rw [SimAt, hboth q s hvalid, hboth q' s' hright]
    exact hq hvalid

theorem Sim.refuseInvalid {q : Unit → Parse β} {q' : Unit → Parse β'}
    (hq : w.Sim lo l S (q ()) (q' ())) :
    w.Sim lo l S (Parse.refuseInvalid >>= q) (Parse.refuseInvalid >>= q') :=
  ⟨fun s s' hs => .refuseInvalid hs fun _ => hq.simAt s s' hs⟩

/-! ## looking behind a word -/

/-- behind a word the same token follows on both sides -/
theorem SimAt.peek {q : Token → Parse β} {q' : Token → Parse β'} (hs : w.Meets lo l s s')
    (hq : ∀ t t',
      (∀ name, s.token.kind = .word name → ∃ stop remarks, t' = w.token t stop remarks) →
        w.SimAt S s s' (q t) (q' t')) :
    w.SimAt S s s' (Parse.peek >>= q) (Parse.peek >>= q') := by
  let r := Token.read s.scope.toReserving false s.cursor
  let r' := Token.read s'.scope.toReserving false s'.cursor
  show w.SimAt S s s' (q r.token) (q' r'.token)
  by_cases hword : ∃ name, s.token.kind = .word name
  · obtain ⟨name, hname⟩ := hword
    by_cases hgood : w.Good s
    · have hsame : w.SameReading r r' := by
        have heof : s.token.kind ≠ .eof := by rw [hname]; exact nofun
        have hread := hgood.ahead name hname s.scope.toReserving
        show w.SameReading _ (Token.read s'.scope.toReserving false s'.cursor)
        rwa [(hs.twin.behind heof).2, hs.twin.scope]
      refine hq _ _ fun _ _ => ⟨r'.token.stop, r'.token.strictRemarks, ?_⟩
      rw [Frame.token, ← hsame.kind, ← hsame.start, ← hsame.newline]
    · -- something is wrong, and nothing is asked of the text
      rcases hq r.token (w.token r.token 0 []) fun _ _ => ⟨0, [], rfl⟩ with
        herror | ⟨b, t, b', hqt, hfine, hlater, hS, hleft⟩
      · exact .inl herror
      · exact .inr ⟨b, t, b', hqt, hfine, hlater, hS, fun ht => absurd (hleft ht).1 hgood⟩
  · exact hq _ _ fun name hname => absurd ⟨name, hname⟩ hword

theorem Sim.atWordPeek {name : String} {q : Bool → Token → Parse β} {q' : Bool → Token → Parse β'}
    (hq : ∀ yes t t', (yes = true → ∃ stop remarks, t' = w.token t stop remarks) →
      w.Sim lo l S (q yes t) (q' yes t')) :
    w.Sim lo l S (atWord name >>= fun yes => peek >>= q yes)
      (atWord name >>= fun yes => peek >>= q' yes) := by
  refine ⟨fun s s' hs => .atWord hs (fun hkind => ?_) ?_⟩
  · exact .peek hs fun t t' h => (hq true t t' fun _ => h name hkind).simAt s s' hs
  · exact .peek hs fun t t' _ => (hq false t t' fun h => absurd h Bool.false_ne_true).simAt s s' hs

/-! ## reading a token again -/

/-- a punctuator is put back and read in another way, alike on both sides -/
theorem simAt_rescan {x : Symbol} {read : Cursor → Scan} (hs : w.Meets lo l s s')
    (hkind : s.token.kind = .symbol x) (hascii : x.text.toList.length = byteLength x.text.toList)
    (hread : ∀ c more, c.rest = x.text.toList ++ more → (read c).kind.isOther ∧
      (c.Reaches (read c).after ∨ (read c).after = ⟨[], c.offset⟩))
    (hsame : ∀ c more, c.rest = x.text.toList ++ more →
      ((read c).Wrong ∨ read (w.cursor c) = w.scanned (read c)) ∧
      ((∀ fault, (read c).kind ≠ .invalid fault) → 0 < (read c).after.offset)) :
    w.SimAt (fun _ _ _ => True) s s' (Grammar.rescan x.text read) (Grammar.rescan x.text read) := by
  have heof : s.token.kind ≠ .eof := by rw [hkind]; exact nofun
  have hcursor := (hs.twin.behind heof).2
  obtain ⟨e, hback, hlength, hreach, hrest, hright⟩ :=
    Probe.right_rescan hs.fine.sound hkind hascii hread
  obtain ⟨hwrong, hpos⟩ := hsame e s.cursor.rest hrest
  have hback' : (⟨x.text.toList ++ s'.cursor.rest, s'.cursor.offset - x.text.toList.length⟩ :
      Cursor) = w.cursor e := by
    rw [hcursor, ← hback]
    show Cursor.mk (_ ++ (_ ++ _)) _ = Cursor.mk ((_ ++ _) ++ _) _
    rw [List.append_assoc]
    congr 1
    exact Nat.sub_add_comm hlength
  have hfits : w.Fits ((read e).toReading s.token.start s.token.newline []) := {
    right := hright
    start := hs.fine.start
    after := by
      rcases (hread e _ hrest).2 with h | h
      · exact mark_of_reaches (hreach.trans h)
      · show w.Mark (read e).after.offset
        rw [h]
        exact mark_of_reaches (c := e) hreach
    stop_pos := fun _ => hpos }
  have hreading : ((read e).toReading s.token.start s.token.newline []).Wrong ∨
      w.SameReading ((read e).toReading s.token.start s.token.newline [])
        ((read (w.cursor e)).toReading s'.token.start s'.token.newline []) := by
    rcases hwrong with h | h
    · exact .inl (h.toReading _ _ _)
    · rw [h, hs.twin.start, hs.twin.newline]
      exact .inr (sameReading_toReading (read e) s.token.start s.token.newline [])
  obtain ⟨t, hplace, hfine, htoken, hlast, hfaults, hgood⟩ := placed hfits hreading
    hs.twin.toSameContext hs.fine.lastStop hs.fine.sound.lastStop_le
  have hleft : Grammar.rescan x.text read s = .ok () t := by
    rw [← hplace, ← hback]
    rfl
  have hlater : Later s t := by
    refine ⟨?_, Nat.le_of_eq hlast.symm, hfaults⟩
    rw [htoken]
    exact Nat.le_refl s.token.start
  refine .inr ⟨(), t, (), hleft, hfine, hlater, trivial, fun ht => ?_⟩
  obtain ⟨-, -, t', hplace', htwin⟩ := hgood ht
  refine ⟨⟨hfaults ht.faults, ?_, ?_⟩, t', ?_, htwin⟩
  · rw [hkind]
    exact nofun
  · rw [hkind]
    exact nofun
  · rw [← hplace', ← hback']
    rfl

/-- what the token was read as -/
theorem token_rescan {x : Symbol} {read : Cursor → Scan} {t : State} {u : Unit}
    (h : Grammar.rescan x.text read s = .ok u t) :
    ∃ c : Cursor, t.token.kind = (read c).kind ∧ t.token.start = s.token.start := by
  let c : Cursor := ⟨x.text.toList ++ s.cursor.rest, s.cursor.offset - x.text.toList.length⟩
  let r := (read c).toReading s.token.start s.token.newline []
  obtain ⟨fs, ms, hplace, -⟩ :=
    exists_reportAll r.remarks { s with token := r.token, cursor := r.after }
  have hrescan : Grammar.rescan x.text read s =
      .ok () (State.noting { s with token := r.token, cursor := r.after } fs ms) := hplace
  obtain ⟨-, rfl⟩ := EStateM.Result.ok.inj (h.symm.trans hrescan)
  exact ⟨c, rfl, rfl⟩

end Frame

end Bindle.Script
