import Bindle.Json.Reader

/-!
# What a reader makes of a text

* `Reads p cs a rest`   the reader `p` reads `a` from the text `cs` and leaves `rest`;
* `Refuses p cs`        it reads nothing from `cs`;
* `Loops step k`        a step is repeated `k` times until it gives no further value;
* `Breaks step`         it is repeated until it fails.

All four are about texts at any byte, so that what is read from a text alone can be read from it
where it stands in another one.
-/

namespace Bindle.Json.Read

variable {α β σ : Type} {cs mid rest : List Char}

/-! ## steps of readers -/

theorem bind_of_ok {p : Read α} {f : α → Read β} {s t : Rest} {a : α} (h : p s = .ok a t) :
    (p >>= f) s = f a t := by
  show EStateM.bind p f s = f a t
  rw [EStateM.bind, h]

theorem bind_of_error {p : Read α} {f : α → Read β} {s t : Rest} {e : Fault}
    (h : p s = .error e t) : (p >>= f) s = .error e t := by
  show EStateM.bind p f s = .error e t
  rw [EStateM.bind, h]

theorem bind_eq_ok {p : Read α} {f : α → Read β} {s u : Rest} {b : β} :
    (p >>= f) s = .ok b u ↔ ∃ a t, p s = .ok a t ∧ f a t = .ok b u := by
  cases h : p s with
  | ok a t =>
    rw [bind_of_ok h]
    exact ⟨fun hf => ⟨a, t, rfl, hf⟩, fun ⟨a', t', heq, hf⟩ => by cases heq; exact hf⟩
  | error e t =>
    rw [bind_of_error h]
    exact ⟨nofun, nofun⟩

/-- the reader reads `a` from a text and leaves `rest`, at whatever byte the text begins -/
def Reads (p : Read α) (cs : List Char) (a : α) (rest : List Char) : Prop :=
  ∀ i, ∃ j, p ⟨cs, i⟩ = .ok a ⟨rest, j⟩

/-- the reader fails on a text, at whatever byte it begins -/
def Refuses (p : Read α) (cs : List Char) : Prop := ∀ i, ∃ e t, p ⟨cs, i⟩ = .error e t

theorem Reads.pure (a : α) (cs : List Char) : Reads (pure a : Read α) cs a cs :=
  fun i => ⟨i, rfl⟩

theorem Reads.bind {p : Read α} {f : α → Read β} {a : α} {b : β} (hp : Reads p cs a mid)
    (hf : Reads (f a) mid b rest) : Reads (p >>= f) cs b rest := fun i => by
  obtain ⟨j, hj⟩ := hp i
  rw [bind_of_ok hj]
  exact hf j

theorem Reads.bind_refuses {p : Read α} {f : α → Read β} {a : α} (hp : Reads p cs a mid)
    (hf : Refuses (f a) mid) : Refuses (p >>= f) cs := fun i => by
  obtain ⟨j, hj⟩ := hp i
  rw [bind_of_ok hj]
  exact hf j

theorem Refuses.bind {p : Read α} {f : α → Read β} (hp : Refuses p cs) : Refuses (p >>= f) cs :=
  fun i => by
    obtain ⟨e, t, he⟩ := hp i
    exact ⟨e, t, bind_of_error he⟩

theorem Reads.settle {p : Read α} {a : α} (h : Reads p cs a rest) :
    Reads (settle p) cs a rest := fun i => by
  obtain ⟨j, hj⟩ := h i
  exact ⟨j, by rw [Read.settle, hj]⟩

theorem Refuses.settle {p : Read α} (h : Refuses p cs) : Refuses (settle p) cs := fun i => by
  obtain ⟨e, t, he⟩ := h i
  exact ⟨_, _, by rw [Read.settle, he]⟩

theorem Reads.closedBy {inside : Read α} {close : Read Unit} {a : α} (hin : Reads inside cs a mid)
    (hclose : Reads close mid () rest) : Reads (closedBy inside close) cs a rest := fun i => by
  obtain ⟨j, hj⟩ := hin i
  obtain ⟨k, hk⟩ := hclose j
  exact ⟨k, by rw [Read.closedBy, hj]; dsimp only; rw [hk]⟩

theorem Refuses.closedBy {inside : Read α} {close : Read Unit} (hin : Refuses inside cs) :
    Refuses (closedBy inside close) cs := fun i => by
  obtain ⟨e, t, he⟩ := hin i
  cases hclose : close t with
  | ok _ u => exact ⟨e, u, by rw [Read.closedBy, he]; dsimp only; rw [hclose]⟩
  | error _ u => exact ⟨e, u, by rw [Read.closedBy, he]; dsimp only; rw [hclose]⟩

theorem refuses_raise (p : Problem) (cs : List Char) : Refuses (raise p : Read α) cs :=
  fun _ => ⟨_, _, rfl⟩

/-! ## loops -/

/-- a step is repeated `k` times and takes `a` to `b`; the last time it gives nothing further -/
inductive Loops (step : σ → Read (Option σ)) : Nat → σ → List Char → σ → List Char → Prop where
  | stop {a : σ} {cs rest : List Char} (h : Reads (step a) cs none rest) : Loops step 1 a cs a rest
  | more {k : Nat} {a b c : σ} {cs mid rest : List Char} (h : Reads (step a) cs (some b) mid)
      (hlater : Loops step k b mid c rest) : Loops step (k + 1) a cs c rest

theorem Loops.iterateN {step : σ → Read (Option σ)} {k n : Nat} {a b : σ}
    (h : Loops step k a cs b rest) (hn : k ≤ n) : Reads (iterateN n step a) cs b rest := by
  induction h generalizing n with
  | stop h =>
    obtain ⟨m, rfl⟩ := Nat.exists_eq_add_of_le' hn
    exact h.bind (.pure _ _)
  | more h _ ih =>
    obtain ⟨m, rfl⟩ := Nat.exists_eq_add_of_le' hn
    exact h.bind (ih (Nat.le_of_succ_le_succ hn))

theorem Loops.iterate {step : σ → Read (Option σ)} {k : Nat} {a b : σ}
    (h : Loops step k a cs b rest) (hk : k ≤ 2 * cs.length + 2) :
    Reads (iterate step a) cs b rest := fun i => h.iterateN hk i

/-- a loop comes to a step that fails -/
inductive Breaks (step : σ → Read (Option σ)) : σ → List Char → Prop where
  | here {a : σ} {cs : List Char} (h : Refuses (step a) cs) : Breaks step a cs
  | later {a b : σ} {cs mid : List Char} (h : Reads (step a) cs (some b) mid)
      (hlater : Breaks step b mid) : Breaks step a cs

theorem Breaks.iterateN {step : σ → Read (Option σ)} {a : σ} (h : Breaks step a cs) (n : Nat) :
    Refuses (iterateN n step a) cs := by
  induction h generalizing n with
  | here h =>
    cases n with
    | zero => exact fun _ => ⟨_, _, rfl⟩
    | succ n => exact h.bind
  | later h _ ih =>
    cases n with
    | zero => exact fun _ => ⟨_, _, rfl⟩
    | succ n => exact h.bind_refuses (ih n)

theorem Breaks.iterate {step : σ → Read (Option σ)} {a : σ} (h : Breaks step a cs) :
    Refuses (iterate step a) cs := fun i => h.iterateN _ i

end Bindle.Json.Read
