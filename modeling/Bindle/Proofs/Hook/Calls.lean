import Bindle.Hook.Taps

/-!
# Calling taps up to the first that fails

`Called taps s called failure s'` says that, from the state `s` of the callbacks on, `called` are the
taps up to the first that fails, that `failure` is this tap and its message, or nothing if none fails,
and that the callbacks are left in `s'`.  There is one such outcome (`exists_called`, `Called.unique`),
and it is that of `Hooks.call` (`Called.call_eq`).
-/

namespace Bindle

variable {σ : Type}

inductive Called : List (Tap σ) → σ → List (Tap σ) → Option (Tap σ × String) → σ → Prop where
  | nil (s : σ) : Called [] s [] none s
  /-- the first tap fails, and no other is called -/
  | fails {t : Tap σ} {ts : List (Tap σ)} {s s' : σ} {message : String}
      (h : t.callback s = (some message, s')) : Called (t :: ts) s [t] (some (t, message)) s'
  | goesOn {t : Tap σ} {ts called : List (Tap σ)} {s s₁ s' : σ} {failure : Option (Tap σ × String)}
      (h : t.callback s = (none, s₁)) (hrest : Called ts s₁ called failure s') :
      Called (t :: ts) s (t :: called) failure s'

/-- a tap together with the hook that it is called for -/
abbrev HookCall (σ : Type) : Type := Hook × Tap σ

theorem exists_called (taps : List (Tap σ)) (s : σ) :
    ∃ called failure s', Called taps s called failure s' := by
  induction taps generalizing s with
  | nil => exact ⟨[], none, s, .nil s⟩
  | cons t ts ih =>
    cases h : t.callback s with
    | mk message s₁ =>
      cases message with
      | some message => exact ⟨[t], some (t, message), s₁, .fails h⟩
      | none =>
        obtain ⟨called, failure, s', hrest⟩ := ih s₁
        exact ⟨t :: called, failure, s', .goesOn h hrest⟩

namespace Called

variable {taps called called' : List (Tap σ)} {s s' s'' : σ}
  {failure failure' : Option (Tap σ × String)}

theorem unique (h : Called taps s called failure s') (h' : Called taps s called' failure' s'') :
    called = called' ∧ failure = failure' ∧ s' = s'' := by
  induction h generalizing called' with
  | nil s =>
    cases h'
    exact ⟨rfl, rfl, rfl⟩
  | fails h =>
    cases h' with
    | fails h' =>
      cases h.symm.trans h'
      exact ⟨rfl, rfl, rfl⟩
    | goesOn h' _ => cases h.symm.trans h'
  | goesOn h _ ih =>
    cases h' with
    | fails h' => cases h.symm.trans h'
    | goesOn h' hrest' =>
      cases h.symm.trans h'
      obtain ⟨rfl, rfl, rfl⟩ := ih hrest'
      exact ⟨rfl, rfl, rfl⟩

/-- without a failure all taps are called -/
theorem called_eq (h : Called taps s called none s') : called = taps := by
  generalize hf : (none : Option (Tap σ × String)) = failure at h
  induction h with
  | nil s => rfl
  | fails _ => cases hf
  | goesOn _ _ ih => rw [ih hf]

theorem callAll_eq (h : Called taps s called failure s') :
    Hooks.callAll taps s = (failure.map (fun f => (f.1.name, f.2)), s') := by
  induction h with
  | nil s => rfl
  | fails h =>
    rw [Hooks.callAll, h]
    rfl
  | goesOn h _ ih =>
    rw [Hooks.callAll, h]
    exact ih

theorem call_eq (h : Hooks σ) (hook : Hook) (hcalled : Called (h.taps hook) s called failure s') :
    h.call hook s = (failure.elim (.ok ()) fun f => .error (.hook hook f.1.name f.2), s') := by
  rw [Hooks.call, hcalled.callAll_eq]
  cases failure <;> rfl

end Called

end Bindle
