import Bindle.Proofs.Script.Framed.Places
import Bindle.Proofs.Script.Steps

/-!
# Twin runs

A script is read in a source and in the text around it.  As long as nothing is wrong, the two runs
are twins: the same steps, at places that differ by the bytes before the source.  When something is
wrong on the side of the source, the script is refused there, and nothing is said of the other side.

* `Frame.Fine`     a state of the source with its places between characters;
* `Frame.Good`     a state in which nothing is wrong so far;
* `Frame.Twin`     a state of the source and one of the text;
* `Frame.Sim`      twin steps: from twin states they give related values, and a good outcome comes
                   of a good beginning and has its twin;
* `Frame.Steps`    twin steps that give the same value;
* `Frame.Falls`    a step that goes on where something is wrong already.

A relation between values may depend on where the last token ends: it is followed up to there.
-/

namespace Bindle.Script

open Bindle.Text

namespace Frame

variable {w : Frame} {α α' β β' : Type}

/-! ## states -/

/-- a token as it is in the text; what stands behind the end of the source may differ -/
def token (w : Frame) (t : Token) (stop : Nat) (strictRemarks : List Fault) : Token :=
  ⟨w.kind t.kind, t.start + w.before, stop, t.newline, strictRemarks⟩

@[simp]
theorem kind_token (t : Token) (stop : Nat) (strictRemarks : List Fault) :
    (w.token t stop strictRemarks).kind = w.kind t.kind := rfl

@[simp]
theorem start_token (t : Token) (stop : Nat) (strictRemarks : List Fault) :
    (w.token t stop strictRemarks).start = t.start + w.before := rfl

/-- states that are alike but for the current token -/
structure SameContext (w : Frame) (s s' : State) : Prop where
  lastStart : 0 < s.lastStop → s'.lastStart = s.lastStart + w.before
  lastStop : s'.lastStop = w.stop s.lastStop
  faults : s.faults = [] → s'.faults = []
  moduleFaults : s.moduleFaults = [] → s'.moduleFaults = []
  scope : s'.scope = s.scope
  labels : s'.labels = s.labels
  isModule : s'.isModule = s.isModule
  arrowStart : s'.arrowStart = s.arrowStart.map (· + w.before)
  trailingCommas : s'.trailingCommas.map Prod.fst =
    s.trailingCommas.map fun comma => comma.1 + w.before

structure Twin (w : Frame) (s s' : State) : Prop extends w.SameContext s s' where
  kind : s'.token.kind = w.kind s.token.kind
  start : s'.token.start = s.token.start + w.before
  newline : s'.token.newline = s.token.newline
  strictRemarks : s'.token.strictRemarks = s.token.strictRemarks.map w.fault
  behind : s.token.kind ≠ .eof →
    s'.token.stop = s.token.stop + w.before ∧ s'.cursor = w.cursor s.cursor
  length_le : s.cursor.rest.length ≤ s'.cursor.rest.length

/-- the twin of a state in which nothing is wrong -/
def state (w : Frame) (s : State) : State where
  cursor := w.cursor s.cursor
  token := w.token s.token (s.token.stop + w.before) (s.token.strictRemarks.map w.fault)
  lastStart := s.lastStart + w.before
  lastStop := w.stop s.lastStop
  scope := s.scope
  labels := s.labels
  isModule := s.isModule
  arrowStart := s.arrowStart.map (· + w.before)
  trailingCommas := s.trailingCommas.map fun comma => (comma.1 + w.before, comma.2)

theorem twin_state (s : State) : w.Twin s (w.state s) where
  kind := rfl
  start := rfl
  newline := rfl
  strictRemarks := rfl
  behind _ := ⟨rfl, rfl⟩
  length_le := length_le_cursor s.cursor
  lastStart _ := rfl
  lastStop := rfl
  faults _ := rfl
  moduleFaults _ := rfl
  scope := rfl
  labels := rfl
  isModule := rfl
  arrowStart := rfl
  trailingCommas := List.map_map

/-- the account of strings is kept, and all places are places of the source -/
structure Fine (w : Frame) (s : State) : Prop where
  sound : (⟨w.source, 0⟩ : Probe).Sound s
  cursor : w.Mark s.cursor.offset
  start : w.Mark s.token.start
  lastStop : w.Mark s.lastStop
  stop_pos : s.token.kind ≠ .eof → (∀ fault, s.token.kind ≠ .invalid fault) → 0 < s.token.stop

/-- what is behind the cursor is read in the text as it is in the source -/
def Agrees (w : Frame) (c : Cursor) : Prop :=
  ∀ r, w.SameReading (Token.read r false c) (Token.read r false (w.cursor c))

/-- no fault so far, and the token could be read; one may look behind a word -/
structure Good (w : Frame) (s : State) : Prop where
  faults : s.faults = []
  valid : ∀ fault, s.token.kind ≠ .invalid fault
  ahead : ∀ name, s.token.kind = .word name → w.Agrees s.cursor

/-- a later state of one run -/
structure Later (s t : State) : Prop where
  start_le : s.token.start ≤ t.token.start
  lastStop_le : s.lastStop ≤ t.lastStop
  faults : t.faults = [] → s.faults = []

theorem Later.refl (s : State) : Later s s := ⟨Nat.le_refl _, Nat.le_refl _, id⟩

theorem Later.trans {s t u : State} (h : Later s t) (h' : Later t u) : Later s u :=
  ⟨Nat.le_trans h.start_le h'.start_le, Nat.le_trans h.lastStop_le h'.lastStop_le,
    fun hu => h.faults (h'.faults hu)⟩

/-! ## twin steps -/

/-- two runs from twin states -/
def SimAt (w : Frame) (R : Nat → α → α' → Prop) (s s' : State) (p : Parse α) (p' : Parse α') :
    Prop :=
  (∃ e t, p s = .error e t ∧ w.Fine t ∧ Later s t) ∨
    ∃ a t a', p s = .ok a t ∧ w.Fine t ∧ Later s t ∧ R t.lastStop a a' ∧
      (w.Good t → w.Good s ∧ ∃ t', p' s' = .ok a' t' ∧ w.Twin t t')

/-- twin states; the token begins behind `lo`, and the last one ended behind `l` -/
structure Meets (w : Frame) (lo l : Nat) (s s' : State) : Prop where
  fine : w.Fine s
  twin : w.Twin s s'
  lo_le : lo ≤ s.token.start
  l_le : l ≤ s.lastStop

/-- twin steps from all states behind `lo` and `l` -/
structure Sim (w : Frame) (lo l : Nat) (R : Nat → α → α' → Prop) (p : Parse α) (p' : Parse α') :
    Prop where
  simAt : ∀ s s', w.Meets lo l s s' → w.SimAt R s s' p p'

/-- twin steps that give the same value -/
class Steps (w : Frame) (p p' : Parse α) : Prop where
  sim : ∀ lo l, w.Sim lo l (fun _ a a' => a = a') p p'

/-- an outcome of a run in which something was wrong -/
def EndsBadly (w : Frame) (R : Nat → α → α' → Prop) (s : State) (p : Parse α) : Prop :=
  (∃ e t, p s = .error e t ∧ w.Fine t ∧ Later s t) ∨
    ∃ a t a', p s = .ok a t ∧ w.Fine t ∧ Later s t ∧ R t.lastStop a a' ∧ t.faults ≠ []

/-- a step that goes on where something is wrong already -/
structure Falls (w : Frame) (lo l : Nat) (R : Nat → α → α' → Prop) (p : Parse α) : Prop where
  endsBadly : ∀ s, w.Fine s → lo ≤ s.token.start → l ≤ s.lastStop → s.faults ≠ [] →
    w.EndsBadly R s p

variable {lo l : Nat} {R : Nat → α → α' → Prop} {S : Nat → β → β' → Prop} {s s' : State}

namespace Meets

/-- all that comes stands behind the last token -/
theorem here (h : w.Meets lo l s s') : w.Meets s.lastStop s.lastStop s s' :=
  ⟨h.fine, h.twin, h.fine.sound.lastStop_le, Nat.le_refl _⟩

theorem l_le_start (h : w.Meets lo l s s') : l ≤ s.token.start :=
  Nat.le_trans h.l_le h.fine.sound.lastStop_le

theorem start (h : w.Meets lo l s s') : w.Meets s.token.start l s s' :=
  ⟨h.fine, h.twin, Nat.le_refl _, h.l_le⟩

/-- the token begins behind the last one -/
theorem behind (h : w.Meets lo l s s') : w.Meets l l s s' :=
  ⟨h.fine, h.twin, h.l_le_start, h.l_le⟩

end Meets

namespace SimAt

/-- the second step is taken in the state that the first one gave -/
theorem bindOf {p : Parse α} {p' : Parse α'} {q : α → Parse β} {q' : α' → Parse β'}
    (hp : w.SimAt R s s' p p')
    (hq : ∀ a a' t t', p s = .ok a t → w.Fine t → w.Twin t t' → Later s t → R t.lastStop a a' →
      w.SimAt S t t' (q a) (q' a')) : w.SimAt S s s' (p >>= q) (p' >>= q') := by
  rcases hp with ⟨e, t, hpt, hfine, hlater⟩ | ⟨a, t, a', hpt, hfine, hlater, hR, hgood⟩
  · exact .inl ⟨e, t, Parse.bind_of_error hpt, hfine, hlater⟩
  -- whether the state between is good is known from its own twin first
  rcases hq a a' t (w.state t) hpt hfine (twin_state t) hlater hR with
    ⟨e, u, hqu, hfineu, hlateru⟩ | ⟨b, u, b', hqu, hfineu, hlateru, hS, hgoodu⟩
  · exact .inl ⟨e, u, (Parse.bind_of_ok hpt).trans hqu, hfineu, hlater.trans hlateru⟩
  have hrun : (p >>= q) s = .ok b u := (Parse.bind_of_ok hpt).trans hqu
  by_cases hu : w.Good u
  · obtain ⟨hs, t', hpt', htwin⟩ := hgood (hgoodu hu).1
    rcases hq a a' t t' hpt hfine htwin hlater hR with
      ⟨e, v, hqv, -⟩ | ⟨c, v, c', hqv, hfinev, hlaterv, hS, hgoodv⟩
    · exact absurd (hqu.symm.trans hqv) nofun
    · obtain ⟨rfl, rfl⟩ := EStateM.Result.ok.inj (hqu.symm.trans hqv)
      obtain ⟨-, u', hqu', htwin'⟩ := hgoodv hu
      exact .inr ⟨b, u, c', hrun, hfineu, hlater.trans hlateru, hS, fun _ =>
        ⟨hs, u', (Parse.bind_of_ok hpt').trans hqu', htwin'⟩⟩
  · exact .inr ⟨b, u, b', hrun, hfineu, hlater.trans hlateru, hS, fun h => absurd h hu⟩

theorem bind {p : Parse α} {p' : Parse α'} {q : α → Parse β} {q' : α' → Parse β'}
    (hp : w.SimAt R s s' p p')
    (hq : ∀ a a' t t', w.Fine t → w.Twin t t' → Later s t → R t.lastStop a a' →
      w.SimAt S t t' (q a) (q' a')) : w.SimAt S s s' (p >>= q) (p' >>= q') :=
  hp.bindOf fun a a' t t' _ => hq a a' t t'

theorem iteOf {c c' : Prop} [Decidable c] [Decidable c'] {p q : Parse α} {p' q' : Parse α'}
    (hc : c' ↔ c) (hp : c → w.SimAt R s s' p p') (hq : ¬c → w.SimAt R s s' q q') :
    w.SimAt R s s' (if c then p else q) (if c' then p' else q') := by
  by_cases h : c
  · rw [if_pos h, if_pos (hc.mpr h)]
    exact hp h
  · rw [if_neg h, if_neg (mt hc.mp h)]
    exact hq h

theorem ite {c : Prop} [Decidable c] {p q : Parse α} {p' q' : Parse α'}
    (hp : c → w.SimAt R s s' p p') (hq : ¬c → w.SimAt R s s' q q') :
    w.SimAt R s s' (if c then p else q) (if c then p' else q') :=
  .iteOf Iff.rfl hp hq

theorem pure {a : α} {a' : α'} (hs : w.Meets lo l s s') (h : R s.lastStop a a') :
    w.SimAt R s s' (Pure.pure a) (Pure.pure a') :=
  .inr ⟨a, s, a', rfl, hs.fine, .refl s, h, fun hgood => ⟨hgood, s', rfl, hs.twin⟩⟩

theorem mono {R' : Nat → α → α' → Prop} {p : Parse α} {p' : Parse α'} (h : w.SimAt R s s' p p')
    (hR : ∀ t a a', Later s t → R t.lastStop a a' → R' t.lastStop a a') :
    w.SimAt R' s s' p p' := by
  rcases h with h | ⟨a, t, a', hpt, hfine, hlater, h, hgood⟩
  · exact .inl h
  · exact .inr ⟨a, t, a', hpt, hfine, hlater, hR t a a' hlater h, hgood⟩

end SimAt

namespace Sim

theorem mono {R' : Nat → α → α' → Prop} {p : Parse α} {p' : Parse α'} (h : w.Sim lo l R p p')
    (hR : ∀ hi a a', l ≤ hi → R hi a a' → R' hi a a') : w.Sim lo l R' p p' :=
  ⟨fun s s' hs => (h.simAt s s' hs).mono fun t a a' hlater =>
    hR t.lastStop a a' (Nat.le_trans hs.l_le hlater.lastStop_le)⟩

theorem pure {a : α} {a' : α'} (h : ∀ hi, l ≤ hi → R hi a a') :
    w.Sim lo l R (Pure.pure a) (Pure.pure a') :=
  ⟨fun s _ hs => .pure hs (h s.lastStop hs.l_le)⟩

/-- what comes after a value is followed from the end of the last token -/
theorem bind {p : Parse α} {p' : Parse α'} {q : α → Parse β} {q' : α' → Parse β'}
    (hp : w.Sim lo l R p p')
    (hq : ∀ h a a', l ≤ h → R h a a' → w.Sim h h S (q a) (q' a')) :
    w.Sim lo l S (p >>= q) (p' >>= q') :=
  ⟨fun s s' hs => (hp.simAt s s' hs).bind fun a a' t t' hfine htwin hlater hR =>
    (hq t.lastStop a a' (Nat.le_trans hs.l_le hlater.lastStop_le) hR).simAt t t'
      ⟨hfine, htwin, hfine.sound.lastStop_le, Nat.le_refl _⟩⟩

/-- a step whose value is the same on both sides -/
theorem andThen {p p' : Parse α} {q : α → Parse β} {q' : α → Parse β'} [hp : w.Steps p p']
    (hq : ∀ a, w.Sim lo l S (q a) (q' a)) : w.Sim lo l S (p >>= q) (p' >>= q') := by
  refine ⟨fun s s' hs => ((hp.sim lo l).simAt s s' hs).bind ?_⟩
  rintro a a' t t' hfine htwin hlater rfl
  exact (hq a).simAt t t' ⟨hfine, htwin, Nat.le_trans hs.lo_le hlater.start_le,
    Nat.le_trans hs.l_le hlater.lastStop_le⟩

theorem iteOf {c c' : Prop} [Decidable c] [Decidable c'] {p q : Parse α} {p' q' : Parse α'}
    (hc : c' ↔ c) (hp : w.Sim lo l R p p') (hq : w.Sim lo l R q q') :
    w.Sim lo l R (if c then p else q) (if c' then p' else q') := by
  by_cases h : c
  · rwa [if_pos h, if_pos (hc.mpr h)]
  · rwa [if_neg h, if_neg (mt hc.mp h)]

theorem ite {c : Prop} [Decidable c] {p q : Parse α} {p' q' : Parse α'}
    (hp : w.Sim lo l R p p') (hq : w.Sim lo l R q q') :
    w.Sim lo l R (if c then p else q) (if c then p' else q') :=
  .iteOf Iff.rfl hp hq

theorem pureThen {a : α} {a' : α'} {q : α → Parse β} {q' : α' → Parse β'}
    (h : w.Sim lo l S (q a) (q' a')) :
    w.Sim lo l S (Pure.pure a >>= q) (Pure.pure a' >>= q') := by
  rw [pure_bind, pure_bind]
  exact h

end Sim

/-! ## notes -/

/-- steps that look at the context only and note faults; when they note one, nothing is said of the
other side -/
structure Notes (w : Frame) (R : α → α' → Prop) (p : Parse α) (p' : Parse α') : Prop where
  notesAt : ∀ s s', w.SameContext s s' →
    (∃ e fs ms, p s = .error e (s.noting fs ms)) ∨
    ∃ a fs ms a', p s = .ok a (s.noting fs ms) ∧ R a a' ∧
      (fs = [] → ∃ ms', p' s' = .ok a' (s'.noting [] ms') ∧ (ms = [] → ms' = []))

theorem Fine.noting (h : w.Fine s) (fs ms : List Fault) : w.Fine (s.noting fs ms) :=
  ⟨h.sound.notes (.noting s fs ms), h.cursor, h.start, h.lastStop, h.stop_pos⟩

theorem Good.of_noting {fs ms : List Fault} (h : w.Good (s.noting fs ms)) : w.Good s :=
  ⟨(List.append_eq_nil_iff.mp h.faults).2, h.valid, h.ahead⟩

theorem Later.noting (s : State) (fs ms : List Fault) : Later s (s.noting fs ms) :=
  ⟨Nat.le_refl _, Nat.le_refl _, fun h => (List.append_eq_nil_iff.mp h).2⟩

theorem SameContext.noting {ms ms' : List Fault} (h : w.SameContext s s')
    (hms : ms = [] → ms' = []) : w.SameContext (s.noting [] ms) (s'.noting [] ms') :=
  { h with
    moduleFaults := fun hnil => by
      obtain ⟨hleft, hs⟩ := List.append_eq_nil_iff.mp hnil
      exact List.append_eq_nil_iff.mpr ⟨hms hleft, h.moduleFaults hs⟩ }

theorem Twin.noting {ms ms' : List Fault} (h : w.Twin s s') (hms : ms = [] → ms' = []) :
    w.Twin (s.noting [] ms) (s'.noting [] ms') :=
  { h with toSameContext := h.toSameContext.noting hms }

theorem Meets.noting {ms ms' : List Fault} (h : w.Meets lo l s s') (hms : ms = [] → ms' = []) :
    w.Meets lo l (s.noting [] ms) (s'.noting [] ms') :=
  ⟨h.fine.noting [] ms, h.twin.noting hms, h.lo_le, h.l_le⟩

namespace Notes

variable {p : Parse α} {p' : Parse α'} {T : α → α' → Prop}

theorem pure {a : α} {a' : α'} (h : T a a') : w.Notes T (Pure.pure a) (Pure.pure a') :=
  ⟨fun _ _ _ => .inr ⟨a, [], [], a', rfl, h, fun _ => ⟨[], rfl, id⟩⟩⟩

theorem mono {T' : α → α' → Prop} (h : w.Notes T p p') (hT : ∀ a a', T a a' → T' a a') :
    w.Notes T' p p' := by
  refine ⟨fun s s' hs => ?_⟩
  rcases h.notesAt s s' hs with hfail | ⟨a, fs, ms, a', hps, ha, hright⟩
  · exact .inl hfail
  · exact .inr ⟨a, fs, ms, a', hps, hT a a' ha, hright⟩

theorem bind {T' : β → β' → Prop} {q : α → Parse β} {q' : α' → Parse β'} (hp : w.Notes T p p')
    (hq : ∀ a a', T a a' → w.Notes T' (q a) (q' a')) : w.Notes T' (p >>= q) (p' >>= q') := by
  refine ⟨fun s s' hs => ?_⟩
  rcases hp.notesAt s s' hs with ⟨e, fs, ms, hps⟩ | ⟨a, fs, ms, a', hps, ha, hright⟩
  · exact .inl ⟨e, fs, ms, Parse.bind_of_error hps⟩
  have hrun : ∀ {r}, q a (s.noting fs ms) = r → (p >>= q) s = r :=
    fun h => (Parse.bind_of_ok hps).trans h
  cases fs with
  | nil =>
    obtain ⟨ms', hps', hms⟩ := hright rfl
    rcases (hq a a' ha).notesAt _ _ (hs.noting hms) with
      ⟨e, gs, ns, hqs⟩ | ⟨b, gs, ns, b', hqs, hb, hright'⟩
    · rw [State.noting_noting] at hqs
      exact .inl ⟨e, _, _, hrun hqs⟩
    · rw [State.noting_noting] at hqs
      refine .inr ⟨b, _, _, b', hrun hqs, hb, fun hnil => ?_⟩
      obtain ⟨ns', hqs', hns⟩ := hright' (List.append_eq_nil_iff.mp hnil).1
      rw [State.noting_noting] at hqs'
      refine ⟨ns' ++ ms', (Parse.bind_of_ok hps').trans hqs', fun h => ?_⟩
      obtain ⟨hn, hm⟩ := List.append_eq_nil_iff.mp h
      rw [hns hn, hms hm, List.append_nil]
  | cons f fs =>
    rcases (hq a a' ha).notesAt _ _ (twin_state _).toSameContext with
      ⟨e, gs, ns, hqs⟩ | ⟨b, gs, ns, b', hqs, hb, -⟩
    · rw [State.noting_noting] at hqs
      exact .inl ⟨e, _, _, hrun hqs⟩
    · rw [State.noting_noting] at hqs
      refine .inr ⟨b, _, _, b', hrun hqs, hb, fun hnil => ?_⟩
      exact absurd (List.append_eq_nil_iff.mp hnil).2 (List.cons_ne_nil f fs)

theorem iteOf {c c' : Prop} [Decidable c] [Decidable c'] {q : Parse α} {q' : Parse α'}
    (hc : c' ↔ c) (hp : w.Notes T p p') (hq : w.Notes T q q') :
    w.Notes T (if c then p else q) (if c' then p' else q') := by
  by_cases h : c
  · rwa [if_pos h, if_pos (hc.mpr h)]
  · rwa [if_neg h, if_neg (mt hc.mp h)]

theorem ite {c : Prop} [Decidable c] {q : Parse α} {q' : Parse α'}
    (hp : w.Notes T p p') (hq : w.Notes T q q') :
    w.Notes T (if c then p else q) (if c then p' else q') :=
  .iteOf Iff.rfl hp hq

/-- a step for every member of a list, that gives nothing -/
theorem forEach {γ γ' : Type} {f : γ → γ'} {step : γ → PUnit → Parse (ForInStep PUnit)}
    {step' : γ' → PUnit → Parse (ForInStep PUnit)} (members : List γ)
    (hstep : ∀ a u, w.Notes Eq (step a u) (step' (f a) u)) (u : PUnit) :
    w.Notes Eq (forIn members u step) (forIn (members.map f) u step') := by
  induction members generalizing u with
  | nil => exact pure rfl
  | cons a members ih =>
    rw [List.map_cons, List.forIn_cons, List.forIn_cons]
    refine (hstep a u).bind ?_
    rintro r _ rfl
    cases r with
    | done u => exact pure rfl
    | yield u => exact ih u

theorem report (c c' : Complaint) (i i' : Nat) :
    w.Notes Eq (Parse.report c i) (Parse.report c' i') :=
  ⟨fun _ _ _ => .inr ⟨(), [⟨c, i⟩], [], (), rfl, rfl, fun h => absurd h (List.cons_ne_nil _ _)⟩⟩

theorem reportModule (c c' : Complaint) (i i' : Nat) :
    w.Notes Eq (Parse.reportModule c i) (Parse.reportModule c' i') := by
  refine ⟨fun s s' hs => ?_⟩
  by_cases h : s.scope.inModule = true
  · exact .inr ⟨(), [⟨c, i⟩], [], (), if_pos h, rfl, fun hnil => absurd hnil (List.cons_ne_nil _ _)⟩
  · have h' : ¬s'.scope.inModule = true := by rwa [hs.scope]
    exact .inr ⟨(), [], [⟨c, i⟩], (), if_neg h, rfl, fun _ =>
      ⟨[⟨c', i'⟩], if_neg h', fun hnil => absurd hnil (List.cons_ne_nil _ _)⟩⟩

theorem scope : w.Notes Eq Parse.scope Parse.scope :=
  ⟨fun s s' hs => .inr ⟨s.scope, [], [], s.scope, rfl, rfl, fun _ =>
    ⟨[], by rw [← hs.scope]; rfl, id⟩⟩⟩

theorem reportStrict (c c' : Complaint) (i i' : Nat) :
    w.Notes Eq (Parse.reportStrict c i) (Parse.reportStrict c' i') := by
  refine scope.bind ?_
  rintro context _ rfl
  exact .ite (report c c' i i') (reportModule c c' i i')

/-- a step that gives nothing -/
theorem andThen {q : α → Parse β} {q' : α → Parse β'} {p' : Parse α} {T' : β → β' → Prop}
    (hp : w.Notes Eq p p') (hq : ∀ a, w.Notes T' (q a) (q' a)) :
    w.Notes T' (p >>= q) (p' >>= q') := by
  refine hp.bind ?_
  rintro a _ rfl
  exact hq a

theorem reportAll (remarks : List Remark) :
    w.Notes Eq (Parse.reportAll remarks) (Parse.reportAll (remarks.map w.remark)) := by
  induction remarks with
  | nil => exact pure rfl
  | cons r remarks ih =>
    obtain ⟨condition, fault⟩ := r
    cases condition with
    | always => exact (report ..).andThen fun _ => ih
    | strict => exact (reportStrict ..).andThen fun _ => ih
    | inModule => exact (reportModule ..).andThen fun _ => ih

theorem reportStrictAll (faults : List Fault) :
    w.Notes Eq (Parse.reportStrictAll faults) (Parse.reportStrictAll (faults.map w.fault)) := by
  induction faults with
  | nil => exact pure rfl
  | cons f faults ih => exact (reportStrict ..).andThen fun _ => ih

end Notes

/-- notes leave the token as it is -/
theorem SimAt.notesThen {T : α → α' → Prop} {p : Parse α} {p' : Parse α'} {q : α → Parse β}
    {q' : α' → Parse β'} (hs : w.Meets lo l s s') (hp : w.Notes T p p')
    (hq : ∀ a a' fs ms t', T a a' → w.Meets lo l (s.noting fs ms) t' →
      w.SimAt S (s.noting fs ms) t' (q a) (q' a')) : w.SimAt S s s' (p >>= q) (p' >>= q') := by
  rcases hp.notesAt s s' hs.twin.toSameContext with
    ⟨e, fs, ms, hps⟩ | ⟨a, fs, ms, a', hps, ha, hright⟩
  · exact .inl ⟨e, _, Parse.bind_of_error hps, hs.fine.noting fs ms, .noting s fs ms⟩
  have hmeets : w.Meets lo l (s.noting fs ms) (w.state (s.noting fs ms)) :=
    ⟨hs.fine.noting fs ms, twin_state _, hs.lo_le, hs.l_le⟩
  have hrun : (p >>= q) s = q a (s.noting fs ms) := Parse.bind_of_ok hps
  cases fs with
  | nil =>
    obtain ⟨ms', hps', hms⟩ := hright rfl
    rcases hq a a' [] ms _ ha (hs.noting hms) with
      ⟨e, t, hqt, hfine, hlater⟩ | ⟨b, t, b', hqt, hfine, hlater, hS, hgood⟩
    · exact .inl ⟨e, t, hrun.trans hqt, hfine, (Later.noting s [] ms).trans hlater⟩
    · refine .inr ⟨b, t, b', hrun.trans hqt, hfine, (Later.noting s [] ms).trans hlater, hS,
        fun ht => ?_⟩
      obtain ⟨hnoted, t', hqt', htwin⟩ := hgood ht
      exact ⟨hnoted.of_noting, t', (Parse.bind_of_ok hps').trans hqt', htwin⟩
  | cons f fs =>
    rcases hq a a' (f :: fs) ms _ ha hmeets with
      ⟨e, t, hqt, hfine, hlater⟩ | ⟨b, t, b', hqt, hfine, hlater, hS, hgood⟩
    · exact .inl ⟨e, t, hrun.trans hqt, hfine, (Later.noting s _ ms).trans hlater⟩
    · refine .inr ⟨b, t, b', hrun.trans hqt, hfine, (Later.noting s _ ms).trans hlater, hS,
        fun ht => ?_⟩
      exact absurd (hgood ht).1.faults (List.cons_ne_nil f _)

theorem Sim.of_notes {T : α → α' → Prop} {p : Parse α} {p' : Parse α'} (hp : w.Notes T p p') :
    w.Sim lo l (fun _ => T) p p' := by
  refine ⟨fun s s' hs => ?_⟩
  rw [← bind_pure p, ← bind_pure p']
  exact SimAt.notesThen hs hp fun a a' fs ms t' ha ht => .pure ht ha

theorem Steps.of_notes {p p' : Parse α} (h : w.Notes Eq p p') : w.Steps p p' :=
  ⟨fun _ _ => .of_notes h⟩

section

open Parse

instance (c c' : Complaint) (i i' : Nat) : w.Steps (report c i) (report c' i') :=
  .of_notes (.report c c' i i')

instance (c c' : Complaint) (i i' : Nat) : w.Steps (reportStrict c i) (reportStrict c' i') :=
  .of_notes (.reportStrict c c' i i')

instance : w.Steps scope scope := .of_notes .scope

end

/-! ## steps that stop -/

/-- the step stops, whatever it stops with -/
def Stops (p : Parse α) : Prop := ∀ s, ∃ e fs ms, p s = .error e (s.noting fs ms)

namespace Stops

theorem fail {c : Complaint} {i : Nat} : Stops (Parse.fail c i : Parse α) := by
  intro s
  unfold Parse.fail
  split
  · rename_i fault _
    exact ⟨_, [fault], [], rfl⟩
  · exact ⟨_, [], [], rfl⟩

theorem throw {fault : Fault} : Stops (MonadExcept.throw fault : Parse α) :=
  fun _ => ⟨fault, [], [], rfl⟩

theorem bind {p : Parse α} {q : α → Parse β} (h : Stops p) : Stops (p >>= q) := by
  intro s
  obtain ⟨e, fs, ms, hp⟩ := h s
  exact ⟨e, fs, ms, Parse.bind_of_error hp⟩

theorem token {q : Token → Parse α} (h : ∀ t, Stops (q t)) : Stops (Parse.token >>= q) :=
  fun s => h s.token s

theorem failHere {c : Complaint} : Stops (Parse.failHere c : Parse α) := token fun _ => fail

theorem unexpected {wanted : String} : Stops (Parse.unexpected wanted : Parse α) :=
  token fun _ => failHere

end Stops

/-- nothing is said of the other side of a step that stops -/
theorem SimAt.of_stops {p : Parse α} {p' : Parse α'} (hs : w.Meets lo l s s') (h : Stops p) :
    w.SimAt R s s' p p' := by
  obtain ⟨e, fs, ms, hp⟩ := h s
  exact .inl ⟨e, _, hp, hs.fine.noting fs ms, .noting s fs ms⟩

theorem Sim.of_stops {p : Parse α} {p' : Parse α'} (h : Stops p) : w.Sim lo l R p p' :=
  ⟨fun _ _ hs => .of_stops hs h⟩

theorem Notes.of_stops {T : α → α' → Prop} {p : Parse α} {p' : Parse α'} (h : Stops p) :
    w.Notes T p p' :=
  ⟨fun s _ _ => .inl (h s)⟩

theorem Steps.of_stops {p p' : Parse α} (h : Stops p) : w.Steps p p' :=
  ⟨fun _ _ => .of_stops h⟩

section

open Parse

instance (c c' : Complaint) (i i' : Nat) : w.Steps (fail c i : Parse α) (fail c' i') :=
  .of_stops .fail

end

section

open Parse

/-! ## looking -/

/-- a step that looks at the state and leaves it as it is -/
theorem Steps.of_look {p p' : Parse α}
    (h : ∀ s s', w.Twin s s' → ∃ a, p s = .ok a s ∧ p' s' = .ok a s') : w.Steps p p' := by
  refine ⟨fun lo l => ⟨fun s s' hs => ?_⟩⟩
  obtain ⟨a, hp, hp'⟩ := h s s' hs.twin
  exact .inr ⟨a, s, a, hp, hs.fine, .refl s, rfl, fun hgood => ⟨hgood, s', hp', hs.twin⟩⟩

theorem kind_eq_symbol_iff {k : Token.Kind} {x : Symbol} :
    w.kind k = .symbol x ↔ k = .symbol x := by
  cases k <;> simp [kind]

theorem kind_eq_word_iff {k : Token.Kind} {name : String} :
    w.kind k = .word name ↔ k = .word name := by
  cases k <;> simp [kind]

theorem kind_eq_eof_iff {k : Token.Kind} : w.kind k = .eof ↔ k = .eof := by
  cases k <;> simp [kind]

/-- all kinds but these two are the same on both sides -/
theorem kind_cases (k : Token.Kind) : w.kind k = k ∨ (∃ part bad, k = .template part bad) ∨
    ∃ fault, k = .invalid fault := by
  cases k with
  | template part bad => exact .inr (.inl ⟨part, bad, rfl⟩)
  | invalid fault => exact .inr (.inr ⟨fault, rfl⟩)
  | _ => exact .inl rfl

@[simp]
theorem kind_beq_symbol (k : Token.Kind) (x : Symbol) :
    (w.kind k == .symbol x) = (k == .symbol x) := by
  rw [Bool.eq_iff_iff, beq_iff_eq, beq_iff_eq]
  exact kind_eq_symbol_iff

@[simp]
theorem kind_beq_word (k : Token.Kind) (name : String) :
    (w.kind k == .word name) = (k == .word name) := by
  rw [Bool.eq_iff_iff, beq_iff_eq, beq_iff_eq]
  exact kind_eq_word_iff

@[simp]
theorem kind_bne_word (k : Token.Kind) (name : String) :
    (w.kind k != .word name) = (k != .word name) := by
  rw [bne, bne, kind_beq_word]

@[simp]
theorem kind_beq_eof (k : Token.Kind) : (w.kind k == .eof) = (k == .eof) := by
  rw [Bool.eq_iff_iff, beq_iff_eq, beq_iff_eq]
  exact kind_eq_eof_iff

instance (x : Symbol) : w.Steps (atSymbol x) (atSymbol x) := by
  refine .of_look fun s s' h => ⟨s.token.kind == .symbol x, rfl, ?_⟩
  rw [← kind_beq_symbol (w := w), ← h.kind]
  rfl

instance (name : String) : w.Steps (atWord name) (atWord name) := by
  refine .of_look fun s s' h => ⟨s.token.kind == .word name, rfl, ?_⟩
  rw [← kind_beq_word (w := w), ← h.kind]
  rfl

instance : w.Steps afterNewline afterNewline :=
  .of_look fun s s' h => ⟨s.token.newline, rfl, by rw [← h.newline]; rfl⟩

instance : w.Steps atEnd atEnd := by
  refine .of_look fun s s' h => ⟨s.token.kind == .symbol .semicolon ||
    s.token.kind == .symbol .rbrace || s.token.kind == .eof || s.token.newline, rfl, ?_⟩
  rw [← kind_beq_symbol (w := w) s.token.kind .semicolon,
    ← kind_beq_symbol (w := w) s.token.kind .rbrace, ← kind_beq_eof (w := w), ← h.kind,
    ← h.newline]
  rfl

theorem Steps.of_token {q q' : Token → Parse α}
    (h : ∀ t t', t'.kind = w.kind t.kind → ∃ a, q t = Pure.pure a ∧ q' t' = Pure.pure a) :
    w.Steps (Parse.token >>= q) (Parse.token >>= q') := by
  refine .of_look fun s s' hs => ?_
  obtain ⟨a, hq, hq'⟩ := h s.token s'.token hs.kind
  exact ⟨a, congrFun hq s, congrFun hq' s'⟩

end

theorem token_bind (q : Token → Parse α) (s : State) : (Parse.token >>= q) s = q s.token s := rfl

/-- the current tokens of both sides -/
theorem SimAt.tokens {q : Token → Parse α} {q' : Token → Parse α'}
    (h : w.SimAt R s s' (q s.token) (q' s'.token)) :
    w.SimAt R s s' (Parse.token >>= q) (Parse.token >>= q') := h

/-- the current token is the same one on the other side -/
theorem SimAt.token {q : Token → Parse α} {q' : Token → Parse α'} (hs : w.Meets lo l s s')
    (h : ∀ stop remarks, w.SimAt R s s' (q s.token) (q' (w.token s.token stop remarks))) :
    w.SimAt R s s' (Parse.token >>= q) (Parse.token >>= q') := by
  have htoken : s'.token = w.token s.token s'.token.stop s'.token.strictRemarks := by
    rw [Frame.token, ← hs.twin.kind, ← hs.twin.start, ← hs.twin.newline]
  refine .tokens ?_
  rw [htoken]
  exact h ..

theorem SimAt.scope {q : Scope → Parse α} {q' : Scope → Parse α'} (hs : w.Twin s s')
    (h : w.SimAt R s s' (q s.scope) (q' s.scope)) :
    w.SimAt R s s' (Parse.scope >>= q) (Parse.scope >>= q') := by
  show w.SimAt R s s' (q s.scope) (q' s'.scope)
  rw [hs.scope]
  exact h

theorem SimAt.get {q : State → Parse α} {q' : State → Parse α'}
    (h : w.SimAt R s s' (q s) (q' s')) : w.SimAt R s s' (MonadState.get >>= q)
      (MonadState.get >>= q') := h

/-- a question is asked and the token stays -/
theorem SimAt.atSymbol {x : Symbol} {q : Bool → Parse α} {q' : Bool → Parse α'}
    (hs : w.Meets lo l s s') (hyes : s.token.kind = .symbol x → w.SimAt R s s' (q true) (q' true))
    (hno : w.SimAt R s s' (q false) (q' false)) :
    w.SimAt R s s' (Parse.atSymbol x >>= q) (Parse.atSymbol x >>= q') := by
  have hright : (s'.token.kind == .symbol x) = (s.token.kind == .symbol x) := by
    rw [hs.twin.kind, kind_beq_symbol]
  show w.SimAt R s s' (q (s.token.kind == .symbol x)) (q' (s'.token.kind == .symbol x))
  rw [hright]
  by_cases hkind : s.token.kind = .symbol x
  · rw [beq_iff_eq.mpr hkind]
    exact hyes hkind
  · rw [beq_eq_false_iff_ne.mpr hkind]
    exact hno

theorem SimAt.atWord {name : String} {q : Bool → Parse α} {q' : Bool → Parse α'}
    (hs : w.Meets lo l s s') (hyes : s.token.kind = .word name → w.SimAt R s s' (q true) (q' true))
    (hno : w.SimAt R s s' (q false) (q' false)) :
    w.SimAt R s s' (Parse.atWord name >>= q) (Parse.atWord name >>= q') := by
  have hright : (s'.token.kind == .word name) = (s.token.kind == .word name) := by
    rw [hs.twin.kind, kind_beq_word]
  show w.SimAt R s s' (q (s.token.kind == .word name)) (q' (s'.token.kind == .word name))
  rw [hright]
  by_cases hkind : s.token.kind = .word name
  · rw [beq_iff_eq.mpr hkind]
    exact hyes hkind
  · rw [beq_eq_false_iff_ne.mpr hkind]
    exact hno

theorem SimAt.atString {q : Bool → Parse α} {q' : Bool → Parse α'} (hs : w.Meets lo l s s')
    (hyes : ∀ raw, s.token.kind = .string raw → w.SimAt R s s' (q true) (q' true))
    (hno : w.SimAt R s s' (q false) (q' false)) :
    w.SimAt R s s' (Parse.atString >>= q) (Parse.atString >>= q') := by
  unfold Parse.atString
  rw [bind_assoc, bind_assoc]
  refine .token hs fun stop remarks => ?_
  rw [kind_token]
  cases hkind : s.token.kind with
  | string raw => exact hyes raw hkind
  | _ => exact hno

theorem SimAt.afterNewline {q : Bool → Parse α} {q' : Bool → Parse α'} (hs : w.Meets lo l s s')
    (h : ∀ newline, w.SimAt R s s' (q newline) (q' newline)) :
    w.SimAt R s s' (Parse.afterNewline >>= q) (Parse.afterNewline >>= q') := by
  show w.SimAt R s s' (q s.token.newline) (q' s'.token.newline)
  rw [hs.twin.newline]
  exact h _

namespace Sim

/-- the token is looked at; it begins where nothing has been read yet -/
theorem token {q : Token → Parse α} {q' : Token → Parse α'}
    (h : ∀ t stop remarks, lo ≤ t.start → l ≤ t.start → w.Mark t.start →
      w.Sim t.start l R (q t) (q' (w.token t stop remarks))) :
    w.Sim lo l R (Parse.token >>= q) (Parse.token >>= q') := by
  refine ⟨fun s s' hs => .token hs fun stop remarks => ?_⟩
  have hl : l ≤ s.token.start := Nat.le_trans hs.l_le hs.fine.sound.lastStop_le
  exact (h s.token stop remarks hs.lo_le hl hs.fine.start).simAt s s' hs.start

theorem lastStop {q : Nat → Parse α} {q' : Nat → Parse α'}
    (h : ∀ i, l ≤ i → w.Sim i i R (q i) (q' (w.stop i))) :
    w.Sim lo l R (Parse.lastStop >>= q) (Parse.lastStop >>= q') := by
  refine ⟨fun s s' hs => ?_⟩
  show w.SimAt R s s' (q s.lastStop) (q' s'.lastStop)
  rw [hs.twin.lastStop]
  exact (h s.lastStop hs.l_le).simAt s s' hs.here

/-- after a token was taken -/
theorem lastStart {q : Nat → Parse α} {q' : Nat → Parse α'} (hl : 0 < l)
    (h : ∀ i, w.Sim lo l R (q i) (q' (i + w.before))) :
    w.Sim lo l R (Parse.lastStart >>= q) (Parse.lastStart >>= q') := by
  refine ⟨fun s s' hs => ?_⟩
  show w.SimAt R s s' (q s.lastStart) (q' s'.lastStart)
  rw [hs.twin.lastStart (Nat.lt_of_lt_of_le hl hs.l_le)]
  exact (h s.lastStart).simAt s s' hs

/-- for a report, it does not matter which place -/
theorem lastStartAny {q : Nat → Parse α} {q' : Nat → Parse α'}
    (h : ∀ i i', w.Sim lo l R (q i) (q' i')) :
    w.Sim lo l R (Parse.lastStart >>= q) (Parse.lastStart >>= q') :=
  ⟨fun s s' hs => (h s.lastStart s'.lastStart).simAt s s' hs⟩

end Sim

section

open Parse

instance : w.Steps atName atName := by
  refine ⟨fun lo l => .token fun t stop remarks _ _ _ => ?_⟩
  rw [kind_token]
  cases t.kind with
  | word name => exact .andThen fun c => .pure fun _ _ => rfl
  | _ => exact .pure fun _ _ => rfl

end

end Frame

end Bindle.Script
