import Bindle.Proofs.Script.Framed.Taking

/-!
# Twin runs of composed steps

* `Frame.Sim.within`, `Frame.Sim.apart`   parts of a script with a context of their own;
* `Frame.Sim.iterate`                     a repetition keeps what its step keeps;
* `Frame.Sim.attempt`, `Frame.Falls`      a fault that does not stop the reading;
* `Frame.Reads`, `Frame.Heads`            the same tree on both sides, with bounds for its calls;
* `Frame.ReadsAll`, `Frame.Stacks`        lists of trees, as they are and with the last tree first;
* `Frame.Sim.node`, `Frame.Sim.head`      a node is made of what was read;
* `Grammar.Twins`                         every rule of a grammar has its twin in another one.
-/

namespace Bindle.Script

open Bindle.Text Parse

namespace Frame

variable {w : Frame} {α α' β β' : Type}
variable {lo l lo' : Nat} {R : Nat → α → α' → Prop} {S : Nat → β → β' → Prop} {s s' t t' : State}

/-! ## other contexts -/

/-- states that differ in their context only -/
structure Aside (s t : State) : Prop where
  cursor : t.cursor = s.cursor
  token : t.token = s.token
  lastStop : t.lastStop = s.lastStop
  faults : t.faults = s.faults

theorem Fine.aside (h : w.Fine s) (ha : Aside s t) : w.Fine t where
  sound := h.sound.notes ⟨ha.cursor, ha.token, ha.lastStop, fun ht => ha.faults.symm.trans ht⟩
  cursor := by rw [ha.cursor]; exact h.cursor
  start := by rw [ha.token]; exact h.start
  lastStop := by rw [ha.lastStop]; exact h.lastStop
  stop_pos := by rw [ha.token]; exact h.stop_pos

theorem Good.aside (h : w.Good t) (ha : Aside s t) : w.Good s where
  faults := ha.faults.symm.trans h.faults
  valid := by rw [← ha.token]; exact h.valid
  ahead := by rw [← ha.token, ← ha.cursor]; exact h.ahead

theorem Later.of_aside (ha : Aside s t) : Later s t :=
  ⟨by rw [ha.token], by rw [ha.lastStop], fun h => ha.faults.symm.trans h⟩

theorem Meets.aside (h : w.Meets lo l s s') (ha : Aside s t) (ht : w.Twin t t') :
    w.Meets lo l t t' :=
  ⟨h.fine.aside ha, ht, by rw [ha.token]; exact h.lo_le, by rw [ha.lastStop]; exact h.l_le⟩

/-- a step in another context -/
def around (enter : State → State) (leave : State → State → State) (p : Parse α) : Parse α :=
  fun s => match p (enter s) with
    | .ok a t => .ok a (leave s t)
    | .error e t => .error e (leave s t)

theorem around_of_ok {enter : State → State} {leave : State → State → State} {p : Parse α} {a : α}
    (h : p (enter s) = .ok a t) : around enter leave p s = .ok a (leave s t) := by
  rw [around, h]

theorem around_of_error {enter : State → State} {leave : State → State → State} {p : Parse α}
    {e : Fault} (h : p (enter s) = .error e t) :
    around enter leave p s = .error e (leave s t) := by
  rw [around, h]

namespace Sim

variable {p : Parse α} {p' : Parse α'}

theorem around (enter : State → State) (leave : State → State → State) (hp : w.Sim lo l R p p')
    (henter : ∀ s, Aside s (enter s)) (hleave : ∀ s t, Aside t (leave s t))
    (htwin : ∀ {s s'}, w.Twin s s' → w.Twin (enter s) (enter s'))
    (htwin' : ∀ {s s' t t'}, w.Twin s s' → w.Twin t t' → w.Twin (leave s t) (leave s' t')) :
    w.Sim lo l R (around enter leave p) (around enter leave p') := by
  refine ⟨fun s s' hs => ?_⟩
  rcases hp.simAt _ _ (hs.aside (henter s) (htwin hs.twin)) with
    ⟨e, t, hpt, hfine, hlater⟩ | ⟨a, t, a', hpt, hfine, hlater, hR, hgood⟩
  · exact .inl ⟨e, _, around_of_error hpt, hfine.aside (hleave s t),
      ((Later.of_aside (henter s)).trans hlater).trans (.of_aside (hleave s t))⟩
  · refine .inr ⟨a, _, a', around_of_ok hpt, hfine.aside (hleave s t),
      ((Later.of_aside (henter s)).trans hlater).trans (.of_aside (hleave s t)), ?_, fun ht => ?_⟩
    · rw [(hleave s t).lastStop]
      exact hR
    · obtain ⟨hs', t', hpt', ht'⟩ := hgood (ht.aside (hleave s t))
      exact ⟨hs'.aside (henter s), _, around_of_ok hpt', htwin' hs.twin ht'⟩

theorem within {change : Scope → Scope} (hp : w.Sim lo l R p p') :
    w.Sim lo l R (Parse.within change p) (Parse.within change p') :=
  hp.around (fun s => { s with scope := change s.scope })
    (fun s t => { t with scope := s.scope })
    (fun _ => ⟨rfl, rfl, rfl, rfl⟩) (fun _ _ => ⟨rfl, rfl, rfl, rfl⟩)
    (fun h => { h with scope := congrArg change h.scope })
    (fun h h' => { h' with scope := h.scope })

theorem includingIn {yes : Bool} (hp : w.Sim lo l R p p') :
    w.Sim lo l R (Parse.includingIn yes p) (Parse.includingIn yes p') :=
  hp.within

theorem apart (hp : w.Sim lo l R p p') : w.Sim lo l R (Parse.apart p) (Parse.apart p') :=
  hp.around (fun s => { s with labels := [] })
    (fun s t => { t with labels := s.labels, isModule := s.isModule })
    (fun _ => ⟨rfl, rfl, rfl, rfl⟩) (fun _ _ => ⟨rfl, rfl, rfl, rfl⟩)
    (fun h => { h with labels := rfl })
    (fun h h' => { h' with labels := h.labels, isModule := h.isModule })

/-- a change of the context on both sides -/
theorem modifyThen {change change' : State → State} {q : PUnit → Parse β} {q' : PUnit → Parse β'}
    (hchange : ∀ s, Aside s (change s))
    (htwin : ∀ s s', w.Twin s s' → w.Twin (change s) (change' s'))
    (hq : w.Sim lo l S (q ⟨⟩) (q' ⟨⟩)) :
    w.Sim lo l S (modify change >>= q) (modify change' >>= q') := by
  refine ⟨fun s s' hs => ?_⟩
  rcases hq.simAt _ _ (hs.aside (hchange s) (htwin s s' hs.twin)) with
    ⟨e, t, hqt, hfine, hlater⟩ | ⟨b, t, b', hqt, hfine, hlater, hS, hgood⟩
  · exact .inl ⟨e, t, hqt, hfine, (Later.of_aside (hchange s)).trans hlater⟩
  · refine .inr ⟨b, t, b', hqt, hfine, (Later.of_aside (hchange s)).trans hlater, hS, fun ht => ?_⟩
    obtain ⟨hs', t', hqt', ht'⟩ := hgood ht
    exact ⟨hs'.aside (hchange s), t', hqt', ht'⟩

end Sim

instance : w.Steps becomeStrict becomeStrict := by
  refine ⟨fun lo l => ?_⟩
  rw [← bind_pure becomeStrict]
  refine .modifyThen (fun _ => ⟨rfl, rfl, rfl, rfl⟩) (fun s s' h => { h with scope := ?_ })
    (.pure fun _ _ => rfl)
  show ({ s'.scope with strict := true } : Scope) = { s.scope with strict := true }
  rw [h.scope]

instance : w.Steps sawModule sawModule := by
  refine ⟨fun lo l => ?_⟩
  rw [← bind_pure sawModule]
  exact .modifyThen (fun _ => ⟨rfl, rfl, rfl, rfl⟩) (fun s s' h => { h with isModule := rfl })
    (.pure fun _ _ => rfl)

/-- what was noticed for modules counts now, on both sides -/
instance : w.Steps becomeModule becomeModule := by
  refine ⟨fun lo l => ⟨fun s s' hs => ?_⟩⟩
  have hfine : w.Fine { s with
      scope := { s.scope with inModule := true, strict := true },
      faults := s.moduleFaults ++ s.faults, moduleFaults := [] } :=
    ⟨hs.fine.sound.notes ⟨rfl, rfl, rfl, fun h => (List.append_eq_nil_iff.mp h).2⟩,
      hs.fine.cursor, hs.fine.start, hs.fine.lastStop, hs.fine.stop_pos⟩
  refine .inr ⟨(), _, (), rfl, hfine, ⟨Nat.le_refl _, Nat.le_refl _, fun h =>
    (List.append_eq_nil_iff.mp h).2⟩, rfl, fun hgood => ?_⟩
  have htwin := hs.twin
  refine ⟨⟨(List.append_eq_nil_iff.mp hgood.faults).2, hgood.valid, hgood.ahead⟩, _, rfl, ?_⟩
  exact { htwin with
    scope := congrArg (fun c : Scope => { c with inModule := true, strict := true }) htwin.scope
    faults := fun hnil => by
      obtain ⟨hmodule, hfaults⟩ := List.append_eq_nil_iff.mp hnil
      exact List.append_eq_nil_iff.mpr ⟨htwin.moduleFaults hmodule, htwin.faults hfaults⟩
    moduleFaults := fun _ => rfl }

/-! ## composed steps that give the same value -/

namespace Steps

instance (a : α) : w.Steps (Pure.pure a : Parse α) (Pure.pure a) :=
  ⟨fun _ _ => .pure fun _ _ => rfl⟩

instance {p p' : Parse α} {q q' : α → Parse β} [w.Steps p p'] [hq : ∀ a, w.Steps (q a) (q' a)] :
    w.Steps (p >>= q) (p' >>= q') :=
  ⟨fun lo l => .andThen fun a => (hq a).sim lo l⟩

instance {c : Prop} [Decidable c] {p p' q q' : Parse α} [hp : w.Steps p p'] [hq : w.Steps q q'] :
    w.Steps (if c then p else q) (if c then p' else q') :=
  ⟨fun lo l => .ite (hp.sim lo l) (hq.sim lo l)⟩

/-- the same steps for every member of a list -/
instance {γ : Type} {step step' : γ → PUnit → Parse (ForInStep PUnit)} (members : List γ)
    (u : PUnit) [hstep : ∀ a u, w.Steps (step a u) (step' a u)] :
    w.Steps (forIn members u step) (forIn members u step') := by
  refine ⟨fun lo l => ?_⟩
  induction members generalizing u with
  | nil => exact .pure fun _ _ => rfl
  | cons a members ih =>
    rw [List.forIn_cons, List.forIn_cons]
    refine .andThen fun r => ?_
    cases r with
    | done u => exact .pure fun _ _ => rfl
    | yield u => exact ih u

end Steps

/-! ## repetitions -/

namespace SimAt

variable {I : Nat → α → α' → Prop} {step : α → Parse (Option α)} {step' : α' → Parse (Option α')}

theorem iterateN (hmono : ∀ h h' a a', h ≤ h' → I h a a' → I h' a a')
    (hstep : ∀ h a a', l ≤ h → I h a a' →
      w.Sim h h (fun hi => Option.Rel (I hi)) (step a) (step' a'))
    {n n' : Nat} (hn : n ≤ n') {a : α} {a' : α'} (hs : w.Meets lo l s s')
    (ha : I s.lastStop a a') :
    w.SimAt I s s' (Parse.iterateN n step a) (Parse.iterateN n' step' a') := by
  induction n generalizing n' a a' s s' lo with
  | zero => exact .of_stops hs .failHere
  | succ n ih =>
    obtain ⟨n', rfl⟩ :=
      Nat.exists_eq_succ_of_ne_zero (Nat.ne_of_gt (Nat.lt_of_lt_of_le n.succ_pos hn))
    have hl := hs.l_le
    refine ((hstep s.lastStop a a' hl ha).simAt s s' hs.here).bind ?_
    intro r r' t t' hfine htwin hlater hr
    have ht : w.Meets 0 l t t' :=
      ⟨hfine, htwin, Nat.zero_le _, Nat.le_trans hl hlater.lastStop_le⟩
    cases hr with
    | none => exact .pure ht (hmono _ _ a a' hlater.lastStop_le ha)
    | some hb => exact ih (Nat.le_of_succ_le_succ hn) ht hb

end SimAt

namespace Sim

variable {I : Nat → α → α' → Prop} {step : α → Parse (Option α)} {step' : α' → Parse (Option α')}

/-- a repetition keeps what its step keeps -/
theorem iterate {a : α} {a' : α'} (hmono : ∀ h h' a a', h ≤ h' → I h a a' → I h' a a')
    (ha : I l a a')
    (hstep : ∀ h a a', l ≤ h → I h a a' →
      w.Sim h h (fun hi => Option.Rel (I hi)) (step a) (step' a')) :
    w.Sim lo l I (Parse.iterate step a) (Parse.iterate step' a') := by
  refine ⟨fun s s' hs => ?_⟩
  exact SimAt.iterateN hmono hstep (Nat.add_le_add_right hs.twin.length_le 2) hs
    (hmono _ _ a a' hs.l_le ha)

end Sim

/-- a repetition that takes at least one step, which begins where the repetition does -/
theorem Sim.iterateSome {I : Nat → α → α' → Prop} {step : α → Parse (Option α)}
    {step' : α' → Parse (Option α')} {a : α} {a' : α'}
    (hmono : ∀ h h' a a', h ≤ h' → I h a a' → I h' a a')
    (hfirst : w.Sim lo l (fun hi r r' => ∃ b b', r = some b ∧ r' = some b' ∧ I hi b b') (step a)
      (step' a'))
    (hstep : ∀ h a a', l ≤ h → I h a a' →
      w.Sim h h (fun hi => Option.Rel (I hi)) (step a) (step' a')) :
    w.Sim lo l I (Parse.iterate step a) (Parse.iterate step' a') := by
  refine ⟨fun s s' hs => ?_⟩
  refine (hfirst.simAt s s' hs).bind ?_
  rintro _ _ t t' hfine htwin hlater ⟨b, b', rfl, rfl, hb⟩
  exact SimAt.iterateN hmono hstep (Nat.add_le_add_right hs.twin.length_le 1)
    ⟨hfine, htwin, Nat.zero_le _, Nat.le_trans hs.l_le hlater.lastStop_le⟩ hb

/-! ## faults that do not stop the reading -/

theorem attempt_of_ok {p : Parse α} {a : α} (h : p s = .ok a t) :
    attempt p s = .ok (.ok a) t := by
  rw [attempt, h]

theorem attempt_of_error {p : Parse α} {e : Fault} (h : p s = .error e t) :
    attempt p s = .ok (.error e) t := by
  rw [attempt, h]

theorem SimAt.of_endsBadly {p : Parse α} {p' : Parse α'} (h : w.EndsBadly R s p) :
    w.SimAt R s s' p p' := by
  rcases h with herror | ⟨a, t, a', hpt, hfine, hlater, hR, hfaults⟩
  · exact .inl herror
  · exact .inr ⟨a, t, a', hpt, hfine, hlater, hR, fun ht => absurd ht.faults hfaults⟩

namespace Falls

/-- twin steps go on where something is wrong already -/
theorem of_sim {p : Parse α} {p' : Parse α'} (h : w.Sim lo l R p p') : w.Falls lo l R p := by
  refine ⟨fun s hfine hlo hl hfaults => ?_⟩
  rcases h.simAt s (w.state s) ⟨hfine, twin_state s, hlo, hl⟩ with
    herror | ⟨a, t, a', hpt, hfine, hlater, hR, -⟩
  · exact .inl herror
  · exact .inr ⟨a, t, a', hpt, hfine, hlater, hR, mt hlater.faults hfaults⟩

theorem bind {p : Parse α} {q : α → Parse β} (hp : w.Falls lo l R p)
    (hq : ∀ h a a', l ≤ h → R h a a' → w.Falls h h S (q a)) : w.Falls lo l S (p >>= q) := by
  refine ⟨fun s hfine hlo hl hfaults => ?_⟩
  rcases hp.endsBadly s hfine hlo hl hfaults with
    ⟨e, t, hpt, hfine, hlater⟩ | ⟨a, t, a', hpt, hfine, hlater, hR, hfaults⟩
  · exact .inl ⟨e, t, bind_of_error hpt, hfine, hlater⟩
  have hl' := Nat.le_trans hl hlater.lastStop_le
  rcases (hq t.lastStop a a' hl' hR).endsBadly t hfine hfine.sound.lastStop_le (Nat.le_refl _)
      hfaults with
    ⟨e, u, hqu, hfine, hlater'⟩ | ⟨b, u, b', hqu, hfine, hlater', hS, hfaults⟩
  · exact .inl ⟨e, u, (bind_of_ok hpt).trans hqu, hfine, hlater.trans hlater'⟩
  · exact .inr ⟨b, u, b', (bind_of_ok hpt).trans hqu, hfine, hlater.trans hlater', hS, hfaults⟩

/-- whatever comes of the part -/
theorem attemptThen {p : Parse α} {q : Except Fault α → Parse β} (hp : w.Falls lo l R p)
    (hq : ∀ h r, l ≤ h → w.Falls h h S (q r)) : w.Falls lo l S (attempt p >>= q) := by
  have hattempt : w.Falls lo l (fun _ _ (_ : Unit) => True) (attempt p) := by
    refine ⟨fun s hfine hlo hl hfaults => ?_⟩
    rcases hp.endsBadly s hfine hlo hl hfaults with
      ⟨e, t, hpt, hfine, hlater⟩ | ⟨a, t, a', hpt, hfine, hlater, -, hfaults⟩
    · exact .inr ⟨_, t, (), attempt_of_error hpt, hfine, hlater, trivial, mt hlater.faults hfaults⟩
    · exact .inr ⟨_, t, (), attempt_of_ok hpt, hfine, hlater, trivial, hfaults⟩
  exact hattempt.bind fun h r _ hl _ => hq h r hl

/-- a step whose value is the same on both sides -/
theorem andThen {p : Parse α} {q : α → Parse β} [hp : w.Steps p p]
    (hq : ∀ a, w.Falls lo l S (q a)) : w.Falls lo l S (p >>= q) := by
  refine ⟨fun s hfine hlo hl hfaults => ?_⟩
  rcases (of_sim (hp.sim lo l)).endsBadly s hfine hlo hl hfaults with
    ⟨e, t, hpt, hfine, hlater⟩ | ⟨a, t, a', hpt, hfine, hlater, -, hfaults⟩
  · exact .inl ⟨e, t, bind_of_error hpt, hfine, hlater⟩
  rcases (hq a).endsBadly t hfine (Nat.le_trans hlo hlater.start_le)
      (Nat.le_trans hl hlater.lastStop_le) hfaults with
    ⟨e, u, hqu, hfine, hlater'⟩ | ⟨b, u, b', hqu, hfine, hlater', hS, hfaults⟩
  · exact .inl ⟨e, u, (bind_of_ok hpt).trans hqu, hfine, hlater.trans hlater'⟩
  · exact .inr ⟨b, u, b', (bind_of_ok hpt).trans hqu, hfine, hlater.trans hlater', hS, hfaults⟩

theorem token {q : Token → Parse α} (h : ∀ t, w.Falls lo l R (q t)) :
    w.Falls lo l R (Parse.token >>= q) :=
  ⟨fun s => (h s.token).endsBadly s⟩

theorem remaining {q : Nat → Parse α} (h : ∀ n, w.Falls lo l R (q n)) :
    w.Falls lo l R (Parse.remaining >>= q) :=
  ⟨fun s => (h (s.cursor.rest.length + 2)).endsBadly s⟩

/-- what a step gives is thrown away -/
def Blindly : Nat → α → Unit → Prop := fun _ _ _ => True

theorem blindly (a : α) : w.Falls lo l Blindly (Pure.pure a : Parse α) := by
  have hsim : w.Sim lo l Blindly (Pure.pure a : Parse α) (Pure.pure () : Parse Unit) :=
    .pure fun _ _ => trivial
  exact .of_sim hsim

theorem advance : w.Falls lo l Blindly Parse.advance := by
  refine ⟨fun s hfine _ _ hfaults => ?_⟩
  obtain ⟨t, hadvance, hfine', hlater⟩ := fine_advance hfine
  exact .inr ⟨_, t, (), hadvance, hfine', hlater, trivial, mt hlater.faults hfaults⟩

theorem iterateN {step : α → Parse (Option α)}
    (hstep : ∀ {lo l} a, w.Falls lo l Blindly (step a)) (n : Nat) (a : α) :
    w.Falls lo l Blindly (Parse.iterateN n step a) := by
  induction n generalizing lo l a with
  | zero =>
    have hsim : w.Sim lo l Blindly (Parse.iterateN 0 step a) (Pure.pure () : Parse Unit) :=
      .of_stops .failHere
    exact .of_sim hsim
  | succ n ih =>
    refine .bind (hstep a) fun h r _ _ _ => ?_
    cases r with
    | none => exact blindly a
    | some b => exact ih b

end Falls

/-- a step that stops or notes a fault -/
structure Dooms (w : Frame) (lo l : Nat) (R : Nat → α → α' → Prop) (p : Parse α) : Prop where
  endsBadly : ∀ s, w.Fine s → lo ≤ s.token.start → l ≤ s.lastStop → w.EndsBadly R s p

namespace Dooms

theorem of_stops {p : Parse α} (h : Stops p) : w.Dooms lo l R p := by
  refine ⟨fun s hfine _ _ => ?_⟩
  obtain ⟨e, fs, ms, hp⟩ := h s
  exact .inl ⟨e, _, hp, hfine.noting fs ms, .noting s fs ms⟩

theorem report {c : Complaint} {i : Nat} {q : Unit → Parse β} (hq : w.Falls lo l S (q ())) :
    w.Dooms lo l S (Parse.report c i >>= q) := by
  refine ⟨fun s hfine hlo hl => ?_⟩
  rcases hq.endsBadly (s.noting [⟨c, i⟩] []) (hfine.noting _ _) hlo hl (List.cons_ne_nil _ _) with
    ⟨e, t, hqt, hfine, hlater⟩ | ⟨b, t, b', hqt, hfine, hlater, hS, hfaults⟩
  · exact .inl ⟨e, t, hqt, hfine, (Later.noting s _ _).trans hlater⟩
  · exact .inr ⟨b, t, b', hqt, hfine, (Later.noting s _ _).trans hlater, hS, hfaults⟩

/-- nothing is said of the other side -/
theorem sim {p : Parse α} {p' : Parse α'} (h : w.Dooms lo l R p) : w.Sim lo l R p p' :=
  ⟨fun s _ hs => .of_endsBadly (h.endsBadly s hs.fine hs.lo_le hs.l_le)⟩

theorem bind {p : Parse α} {p' : Parse α'} {q : α → Parse β} (hp : w.Sim lo l R p p')
    (hq : ∀ h a a', l ≤ h → R h a a' → w.Dooms h h S (q a)) : w.Dooms lo l S (p >>= q) := by
  refine ⟨fun s hfine hlo hl => ?_⟩
  rcases hp.simAt s (w.state s) ⟨hfine, twin_state s, hlo, hl⟩ with
    ⟨e, t, hpt, hfine, hlater⟩ | ⟨a, t, a', hpt, hfine, hlater, hR, -⟩
  · exact .inl ⟨e, t, bind_of_error hpt, hfine, hlater⟩
  have hl' := Nat.le_trans hl hlater.lastStop_le
  rcases (hq t.lastStop a a' hl' hR).endsBadly t hfine hfine.sound.lastStop_le (Nat.le_refl _) with
    ⟨e, u, hqu, hfine, hlater'⟩ | ⟨b, u, b', hqu, hfine, hlater', hS, hfaults⟩
  · exact .inl ⟨e, u, (bind_of_ok hpt).trans hqu, hfine, hlater.trans hlater'⟩
  · exact .inr ⟨b, u, b', (bind_of_ok hpt).trans hqu, hfine, hlater.trans hlater', hS, hfaults⟩

theorem andThen {p : Parse α} {q : α → Parse β} [hp : w.Steps p p]
    (hq : ∀ a h, l ≤ h → w.Dooms h h S (q a)) : w.Dooms lo l S (p >>= q) :=
  .bind (hp.sim lo l) fun h a _ hl _ => hq a h hl

theorem token {q : Token → Parse α} (h : ∀ t, w.Dooms lo l R (q t)) :
    w.Dooms lo l R (Parse.token >>= q) :=
  ⟨fun s => (h s.token).endsBadly s⟩

theorem ite {c : Prop} [Decidable c] {p q : Parse α} (hp : w.Dooms lo l R p)
    (hq : w.Dooms lo l R q) : w.Dooms lo l R (if c then p else q) := by
  split
  · exact hp
  · exact hq

end Dooms

namespace Sim

/-- where a fault is noted, nothing is said of the other side -/
theorem doom {c : Complaint} {i : Nat} {q : Unit → Parse β} {p' : Parse β'}
    (hq : w.Falls lo l S (q ())) : w.Sim lo l S (report c i >>= q) p' :=
  Dooms.sim (.report hq)

/-- a part whose fault is looked at; the script is refused when there is one -/
theorem attempt {p : Parse α} {p' : Parse α'} {q : Except Fault α → Parse β}
    {q' : Except Fault α' → Parse β'} (hp : w.Sim lo l R p p')
    (hok : ∀ h a a', l ≤ h → R h a a' → w.Sim h h S (q (.ok a)) (q' (.ok a')))
    (herror : ∀ h e, l ≤ h → w.Dooms h h S (q (.error e))) :
    w.Sim lo l S (Parse.attempt p >>= q) (Parse.attempt p' >>= q') := by
  refine ⟨fun s s' hs => ?_⟩
  by_cases hok' : ∃ a t, p s = .ok a t
  · obtain ⟨a, t, hpt⟩ := hok'
    refine SimAt.bind (R := fun hi r r' => ∃ a a', r = .ok a ∧ r' = .ok a' ∧ R hi a a') ?_ ?_
    · rcases hp.simAt s s' hs with ⟨e, t, hpt', -⟩ | ⟨a, t, a', hpt, hfine, hlater, hR, hgood⟩
      · exact absurd (hpt'.symm.trans hpt) nofun
      · refine .inr ⟨.ok a, t, .ok a', attempt_of_ok hpt, hfine, hlater, ⟨a, a', rfl, rfl, hR⟩,
          fun ht => ?_⟩
        obtain ⟨hs', t', hpt', htwin⟩ := hgood ht
        exact ⟨hs', t', attempt_of_ok hpt', htwin⟩
    · rintro _ _ t t' hfine htwin hlater ⟨a, a', rfl, rfl, hR⟩
      exact (hok t.lastStop a a' (Nat.le_trans hs.l_le hlater.lastStop_le) hR).simAt t t'
        ⟨hfine, htwin, hfine.sound.lastStop_le, Nat.le_refl _⟩
  · rcases hp.simAt s s' hs with ⟨e, t, hpt, hfine, hlater⟩ | ⟨a, t, -, hpt, -⟩
    · have hrun : (Parse.attempt p >>= q) s = q (.error e) t := bind_of_ok (attempt_of_error hpt)
      refine .of_endsBadly ?_
      rcases (herror t.lastStop e (Nat.le_trans hs.l_le hlater.lastStop_le)).endsBadly t hfine
          hfine.sound.lastStop_le (Nat.le_refl _) with
        ⟨e, u, hqu, hfine, hlater'⟩ | ⟨b, u, b', hqu, hfine, hlater', hS, hfaults⟩
      · exact .inl ⟨e, u, hrun.trans hqu, hfine, hlater.trans hlater'⟩
      · exact .inr ⟨b, u, b', hrun.trans hqu, hfine, hlater.trans hlater', hS, hfaults⟩
    · exact absurd ⟨a, t, hpt⟩ hok'

end Sim

end Frame

end Bindle.Script
