import Bindle.Proofs.Script.Reads
import Bindle.Proofs.Script.Taking
import Bindle.Script.Grammar.Expression

/-!
# The steps of the parser keep the account

* `quiet_…`              questions, reports, tokens taken: no strings come of them;
* `readsAt_string`       the one way in which a string comes into a tree;
* `readsAt_rescan`       a token that is read again in another way;
* `Reads.iterate`        a repetition keeps what its step keeps.
-/

namespace Bindle.Script

open Bindle.Text

namespace Probe

variable {v : Probe} {α β : Type} {given : Nat}

/-! ## steps that leave the tokens alone -/

/-- the state after noting some faults; only what the account looks at counts -/
structure Notes (s t : State) : Prop where
  cursor : t.cursor = s.cursor
  token : t.token = s.token
  lastStop : t.lastStop = s.lastStop
  faults : t.faults = [] → s.faults = []

theorem Notes.refl (s : State) : Notes s s := ⟨rfl, rfl, rfl, id⟩

theorem Notes.trans {s t u : State} (h : Notes s t) (h' : Notes t u) : Notes s u where
  cursor := h'.cursor.trans h.cursor
  token := h'.token.trans h.token
  lastStop := h'.lastStop.trans h.lastStop
  faults hu := h.faults (h'.faults hu)

theorem Notes.noting (s : State) (fs ms : List Fault) : Notes s (s.noting fs ms) :=
  ⟨rfl, rfl, rfl, fun h => (List.append_eq_nil_iff.mp h).2⟩

theorem Sound.notes {s t : State} (h : v.Sound s) (hn : Notes s t) : v.Sound t where
  cursor := by rw [hn.cursor]; exact h.cursor
  lastStop_le := by rw [hn.lastStop, hn.token]; exact h.lastStop_le
  start_le := by rw [hn.token]; exact h.start_le
  stop_eq := by rw [hn.token, hn.cursor]; exact h.stop_eq
  string := by
    rw [hn.token]
    exact fun raw hkind ht => h.string raw hkind (hn.faults ht)
  symbol := by
    rw [hn.token, hn.cursor]
    exact h.symbol

theorem Notes.keeps {s t : State} (hn : Notes s t) (h : v.Sound s) (k : Nat) :
    v.Keeps s k t k := by
  refine ⟨h.notes hn, fun rest hs ht => ?_⟩
  rw [hn.lastStop]
  exact hs (hn.faults ht)

theorem Quiet.of_notes {p : Parse α} (h : ∀ s, ∃ a t, p s = .ok a t ∧ Notes s t) :
    v.Quiet p := by
  refine ⟨⟨fun s hs => ?_⟩⟩
  obtain ⟨a, t, hp, hn⟩ := h s
  rw [hp]
  exact hn.keeps hs 0

/-- a change of what the account does not look at -/
theorem quiet_modify {change : State → State} (h : ∀ s, Notes s (change s)) :
    v.Quiet (modify change : Parse PUnit) :=
  .of_notes fun s => ⟨_, _, rfl, h s⟩

theorem Reads.modifyThen {change : State → State} {q : PUnit → Parse α} {f : α → Nat}
    (h : ∀ s, Notes s (change s)) (hq : ∀ u, v.Reads given (q u) f) :
    v.Reads given (modify change >>= q) f :=
  have := quiet_modify (v := v) h
  .andThen hq

section

open Parse

instance : v.Quiet scope := .of_notes fun s => ⟨_, s, rfl, .refl s⟩

instance : v.Quiet token := .of_notes fun s => ⟨_, s, rfl, .refl s⟩

instance : v.Quiet lastStop := .of_notes fun s => ⟨_, s, rfl, .refl s⟩

instance : v.Quiet lastStart := .of_notes fun s => ⟨_, s, rfl, .refl s⟩

instance : v.Quiet remaining := .of_notes fun s => ⟨_, s, rfl, .refl s⟩

instance : v.Quiet (get : Parse State) := .of_notes fun s => ⟨_, s, rfl, .refl s⟩

instance : v.Quiet peek := .of_notes fun s => ⟨_, s, rfl, .refl s⟩

theorem Quiet.of_noting {p : Parse Unit} (h : ∀ s, ∃ fs ms, p s = .ok () (s.noting fs ms)) :
    v.Quiet p := by
  refine .of_notes fun s => ?_
  obtain ⟨fs, ms, hp⟩ := h s
  exact ⟨(), _, hp, .noting s fs ms⟩

instance (c : Complaint) (offset : Nat) : v.Quiet (report c offset) :=
  .of_noting fun _ => ⟨[⟨c, offset⟩], [], rfl⟩

instance (c : Complaint) (offset : Nat) : v.Quiet (reportModule c offset) :=
  .of_noting (exists_reportModule c offset)

instance (c : Complaint) (offset : Nat) : v.Quiet (reportStrict c offset) :=
  .of_noting (exists_reportStrict c offset)

instance (faults : List Fault) : v.Quiet (reportStrictAll faults) :=
  .of_noting (exists_reportStrictAll faults)

instance : v.Quiet becomeModule :=
  quiet_modify fun _ => ⟨rfl, rfl, rfl, fun h => (List.append_eq_nil_iff.mp h).2⟩

instance : v.Quiet becomeStrict := quiet_modify fun _ => ⟨rfl, rfl, rfl, id⟩

instance : v.Quiet sawModule := quiet_modify fun _ => ⟨rfl, rfl, rfl, id⟩

end

/-! ## composed steps -/

namespace Quiet

instance (a : α) : v.Quiet (Pure.pure a) := ⟨.pure (Nat.le_refl _)⟩

instance (p : Parse α) (q : α → Parse β) [v.Quiet p] [hq : ∀ a, v.Quiet (q a)] :
    v.Quiet (p >>= q) :=
  ⟨.andThen fun a => (hq a).reads⟩

instance (c : Prop) [Decidable c] (p q : Parse α) [hp : v.Quiet p] [hq : v.Quiet q] :
    v.Quiet (if c then p else q) :=
  ⟨.ite hp.reads hq.reads⟩

instance (f : α → β) (p : Parse α) [hp : v.Quiet p] : v.Quiet (f <$> p) :=
  inferInstanceAs (v.Quiet (p >>= fun a => Pure.pure (f a)))

instance (l : List α) (init : β) (step : α → β → Parse (ForInStep β))
    [h : ∀ a b, v.Quiet (step a b)] : v.Quiet (forIn l init step) := by
  induction l generalizing init with
  | nil =>
    rw [List.forIn_nil]
    infer_instance
  | cons a l ih =>
    rw [List.forIn_cons]
    refine ⟨.andThen fun r => ?_⟩
    cases r with
    | done b => exact .pure (Nat.le_refl _)
    | yield b => exact (ih b).reads

end Quiet

theorem Reads.forInThen {l : List α} {init : β} {step : α → β → Parse (ForInStep β)} {γ : Type}
    {q : β → Parse γ} {f : γ → Nat} (hstep : ∀ a b, v.Quiet (step a b))
    (hq : ∀ b, v.Reads given (q b) f) : v.Reads given (forIn l init step >>= q) f :=
  .andThen hq

section

open Parse

/-! ## steps that stop -/

theorem Reads.throw {fault : Fault} {f : α → Nat} : v.Reads given (throw fault) f :=
  ⟨fun _ hs => ⟨hs, fun _ hrest => hrest.mono (Nat.le_add_right _ _)⟩⟩

theorem Reads.fail {c : Complaint} {offset : Nat} {f : α → Nat} :
    v.Reads given (fail c offset) f := by
  refine ⟨fun s hs => ?_⟩
  unfold Parse.fail
  split
  · rename_i fault _
    exact ((Notes.noting s [fault] []).keeps hs 0).mono (Nat.zero_le _) (Nat.le_refl _)
  · exact ⟨hs, fun _ hrest => hrest.mono (Nat.le_add_right _ _)⟩

theorem Reads.failHere {c : Complaint} {f : α → Nat} : v.Reads given (failHere c) f :=
  .andThen fun _ => .fail

theorem Reads.unexpected {wanted : String} {f : α → Nat} : v.Reads given (unexpected wanted) f :=
  .andThen fun _ => .failHere

instance (c : Complaint) (offset : Nat) : v.Quiet (fail c offset : Parse α) := ⟨.fail⟩

instance (c : Complaint) : v.Quiet (failHere c : Parse α) := ⟨.failHere⟩

instance (fault : Fault) : v.Quiet (throw fault : Parse α) := ⟨.throw⟩

instance (wanted : String) : v.Quiet (unexpected wanted : Parse α) := ⟨.unexpected⟩

/-- nothing comes after a step that stops -/
theorem Reads.unexpectedThen {wanted : String} {q : α → Parse β} {f : β → Nat} :
    v.Reads given (Parse.unexpected wanted >>= q) f := by
  have hbind : (Parse.unexpected wanted >>= q) = Parse.unexpected wanted := by
    funext s
    show EStateM.bind (Parse.fail _ s.token.start) q s = Parse.fail _ s.token.start s
    unfold EStateM.bind Parse.fail
    cases s.token.kind <;> rfl
  rw [hbind]
  exact .unexpected

end

/-! ## taking tokens -/

/-- what a reading gives stands in the source -/
structure Right (v : Probe) (r : Reading) : Prop where
  after : v.Within r.after
  start_le : r.token.start ≤ r.token.stop
  stop_eq : r.token.stop = r.after.offset
  string : ∀ raw, r.token.kind = .string raw →
    (∀ remark ∈ r.remarks, remark.condition ≠ .always) →
    Stands v.source r.token.start r.token.stop raw
  symbol : ∀ x, r.token.kind = .symbol x → ∃ e, Cursor.Reaches ⟨v.source, 0⟩ e ∧
    r.token.start ≤ e.offset ∧ e.rest = x.text.toList ++ r.after.rest ∧
    r.after.offset = e.offset + byteLength x.text.toList

/-- a cursor with nothing to read behind it finds the end of the text -/
theorem read_of_nil (r : Reserving) (first : Bool) (offset : Nat) :
    (Token.read r first ⟨[], offset⟩).token.kind = .eof := rfl

theorem right_read (r : Reserving) (first : Bool) {c : Cursor} (hc : v.Within c) :
    v.Right (Token.read r first c) where
  after := hc.of_reaches (reaches_read r first c)
  start_le := start_le_stop_read r first c
  stop_eq := stop_read r first c
  string raw hkind hremarks := by
    rcases hc with hrest | hc
    · obtain ⟨rest, offset⟩ := c
      obtain rfl : rest = [] := hrest
      exact absurd hkind (by rw [read_of_nil]; exact nofun)
    · obtain ⟨d, e, hd, hstart, hde, hlegacy, hstring⟩ := stringAt_read hkind hremarks
      exact ⟨d, e, _, hc.trans hd, hstart, hde, hlegacy, hstring, (stop_read r first c).symm⟩
  symbol x hkind := by
    rcases hc with hrest | hc
    · obtain ⟨rest, offset⟩ := c
      obtain rfl : rest = [] := hrest
      exact absurd hkind (by rw [read_of_nil]; exact nofun)
    · obtain ⟨e, he, htext⟩ := text_read hkind
      exact ⟨e, hc.trans he, htext⟩

section

open Parse

/-- the found token becomes the current one -/
theorem place_spec {r : Reading} (hr : v.Right r) (s : State) (hstart : s.lastStop ≤ r.token.start) :
    ∃ t, place r s = .ok () t ∧ v.Sound t ∧ t.lastStop = s.lastStop ∧
      (t.faults = [] → s.faults = []) := by
  obtain ⟨fs, ms, hplace, hremarks⟩ :=
    exists_reportAll r.remarks { s with token := r.token, cursor := r.after }
  refine ⟨_, hplace, ?_, rfl, fun h => (List.append_eq_nil_iff.mp h).2⟩
  exact {
    cursor := hr.after
    lastStop_le := hstart
    start_le := hr.start_le
    stop_eq := hr.stop_eq
    string := fun raw hkind hfaults =>
      hr.string raw hkind (hremarks (List.append_eq_nil_iff.mp hfaults).1)
    symbol := hr.symbol }

/-- the current token is behind, and the next one is read -/
theorem advance_spec {s : State} (hs : v.Sound s) :
    ∃ t, advance s = .ok s.token t ∧ v.Sound t ∧ t.lastStop = s.token.stop ∧
      (t.faults = [] → s.faults = []) := by
  obtain ⟨fs, ms, hstrict⟩ := exists_reportStrictAll s.token.strictRemarks s
  obtain ⟨t, hplace, hsound, hstop, hfaults⟩ :=
    place_spec (right_read s.scope.toReserving false hs.cursor)
      { s.noting fs ms with lastStart := s.token.start, lastStop := s.token.stop }
      (by rw [hs.stop_eq]; exact (start_read ..).1)
  refine ⟨t, ?_, hsound, hstop, fun h => (List.append_eq_nil_iff.mp (hfaults h)).2⟩
  show EStateM.bind (reportStrictAll s.token.strictRemarks) _ s = _
  rw [EStateM.bind, hstrict]
  show EStateM.bind (place (Token.read s.scope.toReserving false s.cursor)) _ _ = _
  rw [EStateM.bind, hplace]
  rfl

instance : v.Quiet advance := by
  refine ⟨⟨fun s hs => ?_⟩⟩
  obtain ⟨t, ht, hsound, hstop, hfaults⟩ := advance_spec hs
  rw [ht]
  refine ⟨hsound, fun rest hrest h => ?_⟩
  have hrest := hrest (hfaults h)
  have hle := hs.lastStop_le
  have hle' := hs.start_le
  rw [hstop]
  show rest + 0 ≤ _
  split at hrest <;> split <;> omega

/-- a taken string comes into a tree -/
theorem readsAt_string {s : State} {raw : String} (hkind : s.token.kind = .string raw) :
    v.ReadsAt s 0 (do let _ ← advance; node (.string raw) s.token.start []) v.weigh := by
  intro hs
  obtain ⟨t, ht, hsound, hstop, hfaults⟩ := advance_spec hs
  have hnode : (do let _ ← advance; node (.string raw) s.token.start []) s =
      .ok (.mk (.string raw) s.token.start s.token.stop []) t := by
    show EStateM.bind advance _ s = _
    rw [EStateM.bind, ht, ← hstop]
    rfl
  rw [hnode]
  refine ⟨hsound, fun rest hrest h => ?_⟩
  have hrest := hrest (hfaults h)
  have hstands := hs.string raw hkind (hfaults h)
  have hle := hs.lastStop_le
  have hle' := hs.start_le
  rw [hstop, weigh_string, weighAll_nil, Nat.add_zero, load, if_pos hstands]
  show rest + (if s.token.start ≤ v.byte ∧ v.byte < s.token.stop then 1 else 0) ≤ _
  split at hrest <;> repeat' split
  all_goals omega

instance : v.Quiet refuseInvalid := by
  refine ⟨.andThen fun t => ?_⟩
  split
  · exact .andThen fun _ => .throw
  · exact .pure (Nat.le_refl _)

theorem ReadsAt.token {s : State} {q : Token → Parse α} {f : α → Nat}
    (h : v.ReadsAt s given (q s.token) f) : v.ReadsAt s given (token >>= q) f := h

theorem ReadsAt.get {s : State} {q : State → Parse α} {f : α → Nat}
    (h : v.ReadsAt s given (q s) f) : v.ReadsAt s given (MonadState.get >>= q) f := h

theorem ReadsAt.atSymbol {s : State} {x : Symbol} {q : Bool → Parse α} {f : α → Nat}
    (hyes : s.token.kind = .symbol x → v.ReadsAt s given (q true) f)
    (hno : v.ReadsAt s given (q false) f) : v.ReadsAt s given (atSymbol x >>= q) f := by
  show v.ReadsAt s given (q (s.token.kind == .symbol x)) f
  by_cases hkind : s.token.kind = .symbol x
  · rw [beq_iff_eq.mpr hkind]
    exact hyes hkind
  · rw [beq_eq_false_iff_ne.mpr hkind]
    exact hno

/-- a token that could not be read stops the script, any other one stays -/
theorem refuseInvalid_cases (s : State) :
    refuseInvalid s = .ok () s ∨ ∃ e t, refuseInvalid s = .error e t := by
  have hbind : ∀ q : Token → Parse Unit, (token >>= q) s = q s.token s := fun _ => rfl
  rw [refuseInvalid, hbind]
  cases hkind : s.token.kind with
  | invalid fault =>
    refine .inr ?_
    show ∃ e t, EStateM.bind advance _ s = .error e t
    unfold EStateM.bind
    cases advance s with
    | ok a t => exact ⟨fault, t, rfl⟩
    | error e t => exact ⟨e, t, rfl⟩
  | _ => exact .inl rfl

theorem ReadsAt.refuseInvalid {s : State} {q : Unit → Parse α} {f : α → Nat}
    (h : v.ReadsAt s given (q ()) f) : v.ReadsAt s given (Parse.refuseInvalid >>= q) f := by
  intro hs
  have hquiet := ((Quiet.reads (v := v) (p := Parse.refuseInvalid)).readsAt s).mono
    (Nat.zero_le given) (f := fun _ => 0) (fun _ => Nat.le_refl _) hs
  show v.Ends s given f (EStateM.bind Parse.refuseInvalid q s)
  unfold EStateM.bind
  rcases refuseInvalid_cases s with hp | ⟨e, t, hp⟩
  · rw [hp]
    exact h hs
  · rw [hp] at hquiet ⊢
    exact hquiet

instance (x : Symbol) : v.Quiet (atSymbol x) := by unfold atSymbol; infer_instance

instance (w : String) : v.Quiet (atWord w) := by unfold atWord; infer_instance

instance : v.Quiet atAnyWord := by
  refine ⟨.andThen fun t => ?_⟩
  split <;> exact .pure (Nat.le_refl _)

instance : v.Quiet atString := by
  refine ⟨.andThen fun t => ?_⟩
  split <;> exact .pure (Nat.le_refl _)

instance : v.Quiet atName := by
  refine ⟨.andThen fun t => ?_⟩
  split
  · exact Quiet.reads
  · exact .pure (Nat.le_refl _)

instance : v.Quiet afterNewline := by unfold afterNewline; infer_instance

instance (x : Symbol) : v.Quiet (eat x) := by unfold eat; infer_instance

instance (w : String) : v.Quiet (eatWord w) := by unfold eatWord; infer_instance

instance (x : Symbol) : v.Quiet (expect x) := by unfold expect; infer_instance

instance (w : String) : v.Quiet (expectWord w) := by unfold expectWord; infer_instance

instance : v.Quiet atEnd := by unfold atEnd; infer_instance

instance : v.Quiet eatEnd := by unfold eatEnd; infer_instance

instance : v.Quiet expectEnd := by unfold expectEnd; infer_instance

end

/-! ## parts of a script -/

namespace Reads

open Parse

variable {f : α → Nat}

/-- a node has the strings of its parts -/
theorem node {kind : Kind} {start : Nat} {parts : List Node}
    (h : v.weighAll parts ≤ given) (hkind : kind.isString = false) :
    v.Reads given (Parse.node kind start parts) v.weigh :=
  .andThen fun stop => .pure (by rw [weigh_mk hkind]; exact h)

/-- a node on the way is worth its parts -/
theorem nodeThen {kind : Kind} {start : Nat} {parts : List Node} {q : Node → Parse α}
    (hkind : kind.isString = false)
    (hq : ∀ n, v.weigh n = v.weighAll parts → v.Reads given (q n) f) :
    v.Reads given (Parse.node kind start parts >>= q) f := by
  refine ⟨fun s hs => ?_⟩
  exact (hq _ (weigh_mk hkind start s.lastStop parts)).readsAt s hs

/-- a step in a state that differs in nothing that the account looks at -/
theorem around {p q : Parse α} (hp : v.Reads given p f)
    (h : ∀ s, ∃ u, Notes s u ∧
      ((∃ a t t', p u = .ok a t ∧ q s = .ok a t' ∧ Notes t t') ∨
        ∃ e t t', p u = .error e t ∧ q s = .error e t' ∧ Notes t t')) :
    v.Reads given q f := by
  refine ⟨fun s hs => ?_⟩
  obtain ⟨u, hsu, hout⟩ := h s
  have hread := hp.readsAt u (hs.notes hsu)
  rcases hout with ⟨a, t, t', hpu, hq, htt⟩ | ⟨e, t, t', hpu, hq, htt⟩
  all_goals
    rw [hpu] at hread
    rw [hq]
    have hkeeps := (hsu.keeps hs given).trans hread
    exact hkeeps.trans (htt.keeps hkeeps.1 _)

theorem within {change : Scope → Scope} {p : Parse α} (hp : v.Reads given p f) :
    v.Reads given (within change p) f := by
  refine hp.around fun s => ⟨{ s with scope := change s.scope }, ⟨rfl, rfl, rfl, id⟩, ?_⟩
  unfold Parse.within
  cases p { s with scope := change s.scope } with
  | ok a t => exact .inl ⟨a, t, _, rfl, rfl, ⟨rfl, rfl, rfl, id⟩⟩
  | error e t => exact .inr ⟨e, t, _, rfl, rfl, ⟨rfl, rfl, rfl, id⟩⟩

theorem includingIn {yes : Bool} {p : Parse α} (hp : v.Reads given p f) :
    v.Reads given (includingIn yes p) f :=
  hp.within

theorem apart {p : Parse α} (hp : v.Reads given p f) : v.Reads given (apart p) f := by
  refine hp.around fun s => ⟨{ s with labels := [] }, ⟨rfl, rfl, rfl, id⟩, ?_⟩
  unfold Parse.apart
  cases p { s with labels := [] } with
  | ok a t => exact .inl ⟨a, t, _, rfl, rfl, ⟨rfl, rfl, rfl, id⟩⟩
  | error e t => exact .inr ⟨e, t, _, rfl, rfl, ⟨rfl, rfl, rfl, id⟩⟩

theorem attempt {p : Parse α} (hp : v.Reads given p f) :
    v.Reads given (attempt p) (fun r => match r with | .ok a => f a | .error _ => 0) := by
  refine ⟨fun s hs => ?_⟩
  have hread := hp.readsAt s hs
  unfold Parse.attempt
  cases hps : p s with
  | ok a t =>
    rw [hps] at hread
    exact hread
  | error e t =>
    rw [hps] at hread
    exact hread

theorem iterateN {n : Nat} {step : α → Parse (Option α)} {a : α}
    (h : ∀ a, v.Reads (f a) (step a) fun r => f (r.getD a)) :
    v.Reads (f a) (iterateN n step a) f := by
  induction n generalizing a with
  | zero => exact .failHere
  | succ n ih =>
    refine .bindOn (h a) 0 (by omega) fun r => ?_
    cases r with
    | none => exact .pure (by grind)
    | some b => exact ih.mono (by grind)

/-- a repetition keeps what its step keeps; the last step leaves the value as it is -/
theorem iterate {step : α → Parse (Option α)} {a : α} (ha : f a ≤ given)
    (h : ∀ a, v.Reads (f a) (step a) fun r => f (r.getD a)) :
    v.Reads given (iterate step a) f :=
  .andThen fun _ => (iterateN h).mono ha

end Reads

/-! ## reading a token again -/

/-- the current token is a punctuator: the cursor before it, and what may be read there instead -/
theorem right_rescan {s : State} {x : Symbol} {read : Cursor → Scan} (hs : v.Sound s)
    (hkind : s.token.kind = .symbol x) (hascii : x.text.toList.length = byteLength x.text.toList)
    (hread : ∀ c more, c.rest = x.text.toList ++ more → (read c).kind.isOther ∧
      (c.Reaches (read c).after ∨ (read c).after = ⟨[], c.offset⟩)) :
    ∃ e : Cursor, ⟨x.text.toList ++ s.cursor.rest, s.cursor.offset - x.text.toList.length⟩ = e ∧
      x.text.toList.length ≤ s.cursor.offset ∧ Cursor.Reaches ⟨v.source, 0⟩ e ∧
      e.rest = x.text.toList ++ s.cursor.rest ∧
      v.Right ((read e).toReading s.token.start s.token.newline []) := by
  obtain ⟨e, he, hstart, hrest, hoffset⟩ := hs.symbol x hkind
  have hback : (⟨x.text.toList ++ s.cursor.rest, s.cursor.offset - x.text.toList.length⟩ : Cursor)
      = e := by
    rw [hascii, hoffset, Nat.add_sub_cancel, ← hrest]
  have hlength : x.text.toList.length ≤ s.cursor.offset := by
    rw [hascii, hoffset]
    exact Nat.le_add_left _ _
  obtain ⟨hother, hafter⟩ := hread e s.cursor.rest hrest
  have hwithin : v.Within (read e).after := by
    rcases hafter with h | h
    · exact .inr (he.trans h)
    · exact .inl (by rw [h])
  have hle : e.offset ≤ (read e).after.offset := by
    rcases hafter with h | h
    · exact h.offset_le
    · exact Nat.le_of_eq (congrArg Cursor.offset h).symm
  refine ⟨e, hback, hlength, he, hrest, ?_⟩
  exact {
    after := hwithin
    start_le := Nat.le_trans hstart hle
    stop_eq := rfl
    string := by
      intro raw hraw
      change (read e).kind = .string raw at hraw
      rw [hraw] at hother
      exact absurd hother Bool.false_ne_true
    symbol := by
      intro y hy
      change (read e).kind = .symbol y at hy
      rw [hy] at hother
      exact absurd hother Bool.false_ne_true }

/-- a punctuator is put back and read in another way -/
theorem readsAt_rescan {s : State} {x : Symbol} {read : Cursor → Scan}
    (hkind : s.token.kind = .symbol x) (hascii : x.text.toList.length = byteLength x.text.toList)
    (hread : ∀ c more, c.rest = x.text.toList ++ more → (read c).kind.isOther ∧
      (c.Reaches (read c).after ∨ (read c).after = ⟨[], c.offset⟩)) :
    v.ReadsAt s 0 (Grammar.rescan x.text read) (fun _ => 0) := by
  intro hs
  obtain ⟨e, hback, -, -, -, hright⟩ := right_rescan hs hkind hascii hread
  obtain ⟨t, ht, hsound, hstop, hfaults⟩ := place_spec hright s hs.lastStop_le
  have hrescan : Grammar.rescan x.text read s = .ok () t := by
    rw [← ht, ← hback]
    rfl
  rw [hrescan]
  refine ⟨hsound, fun rest hrest h => ?_⟩
  rw [hstop]
  exact hrest (hfaults h)

end Probe

/-! ## grammars -/

/-- every rule of a grammar keeps the account -/
structure Grammar.Reads (v : Probe) (g : Grammar) : Prop where
  assignment : v.Reads 0 g.assignment v.weigh
  unary : v.Reads 0 g.unary v.weigh
  member : v.Reads 0 g.member v.weigh
  leftHand : v.Reads 0 g.leftHand v.weigh
  binary : ∀ left least, v.Reads (v.weigh left) (g.binary left least) v.weigh
  binding : ∀ refuseLet, v.Reads 0 (g.binding refuseLet) v.weigh
  statement : ∀ declarations, v.Reads 0 (g.statement declarations) v.weigh

end Bindle.Script
