import Bindle.Proofs.Script.Lexer
import Bindle.Script.Parse
import Mathlib.Algebra.Ring.Nat

/-!
# The strings of a tree are strings of the source

The trees that the parser builds hold the string tokens of the source, none of them twice.  This
is an account that every step keeps: look at one byte of the source and count the strings of the
trees at hand that cover it.  The count is at most one, and it is zero as long as the parser has
not come to the byte.

* `Node.leaves`        the strings of a tree;
* `Stands`             a string token fills a piece of the source;
* `Probe`              a source and one of its bytes; `load` is what a string weighs there, which is
                       too much for any account if the string does not stand in the source;
* `Probe.Reads`        a step that may use up `given` gives a value of the weight that it says,
                       whatever else is at hand;
* `Probe.Quiet`        a step whose value holds no strings.

A script with faults is refused, so the account is kept only as long as there are none.
-/

namespace Bindle.Script

open Bindle.Text

/-! ## strings of a tree -/

structure Leaf where
  start : Nat
  stop : Nat
  raw : String

def Kind.isString (kind : Kind) : Bool :=
  match kind with
  | .string _ => true
  | _ => false

@[simp, grind =]
theorem Kind.isString_eq (kind : Kind) :
    kind.isString = match kind with | .string _ => true | _ => false := rfl

mutual

/-- the strings of a tree -/
def Node.leaves : Node → List Leaf
  | .mk (.string raw) start stop parts => ⟨start, stop, raw⟩ :: Node.leavesOf parts
  | .mk _ _ _ parts => Node.leavesOf parts

def Node.leavesOf : List Node → List Leaf
  | [] => []
  | n :: ns => Node.leaves n ++ Node.leavesOf ns

end

theorem Node.leaves_mk {kind : Kind} (h : kind.isString = false) (start stop : Nat)
    (parts : List Node) : (Node.mk kind start stop parts).leaves = Node.leavesOf parts := by
  cases kind with
  | string raw => exact absurd h (by simp [Kind.isString])
  | _ =>
    rw [Node.leaves]
    exact nofun

theorem Node.leavesOf_eq_flatMap (ns : List Node) : Node.leavesOf ns = ns.flatMap Node.leaves := by
  induction ns with
  | nil => rfl
  | cons n ns ih => rw [Node.leavesOf, ih, List.flatMap_cons]

/-- a string token fills the bytes from `start` to `stop`; a legacy comment may begin them -/
def Stands (source : List Char) (start stop : Nat) (raw : String) : Prop :=
  ∃ c d e, Cursor.Reaches ⟨source, 0⟩ c ∧ c.offset = start ∧ c.Reaches d ∧
    (c = d ∨ c.AtLegacyComment) ∧ StringAt d raw e ∧ e.offset = stop

/-! ## the account -/

/-- a source and one of its bytes -/
structure Probe where
  source : List Char
  byte : Nat

namespace Probe

variable {v : Probe} {α β : Type}

open Classical in
/-- whether a string covers the byte; a string that does not stand in the source counts double -/
noncomputable def load (v : Probe) (l : Leaf) : Nat :=
  if Stands v.source l.start l.stop l.raw then
    if l.start ≤ v.byte ∧ v.byte < l.stop then 1 else 0
  else 2

noncomputable def weigh (v : Probe) (n : Node) : Nat := (n.leaves.map v.load).sum

noncomputable def weighAll (v : Probe) (ns : List Node) : Nat := (ns.map v.weigh).sum

@[simp, grind =] theorem weighAll_nil : v.weighAll [] = 0 := rfl

@[simp, grind =] theorem weighAll_cons (n : Node) (ns : List Node) :
    v.weighAll (n :: ns) = v.weigh n + v.weighAll ns := by
  simp only [weighAll, List.map_cons, List.sum_cons]

@[simp, grind =] theorem weighAll_append (ms ns : List Node) :
    v.weighAll (ms ++ ns) = v.weighAll ms + v.weighAll ns := by
  simp only [weighAll, List.map_append, List.sum_append]

@[simp, grind =] theorem weighAll_reverse (ns : List Node) :
    v.weighAll ns.reverse = v.weighAll ns := by
  simp only [weighAll, List.map_reverse, List.sum_reverse]

theorem sum_load_leavesOf (ns : List Node) :
    ((Node.leavesOf ns).map v.load).sum = v.weighAll ns := by
  induction ns with
  | nil => rfl
  | cons n ns ih =>
    rw [Node.leavesOf, List.map_append, List.sum_append, ih, weighAll_cons]
    rfl

@[simp, grind =]
theorem weigh_mk {kind : Kind} (h : kind.isString = false) (start stop : Nat)
    (parts : List Node) : v.weigh (.mk kind start stop parts) = v.weighAll parts := by
  rw [weigh, Node.leaves_mk h, sum_load_leavesOf]

theorem weigh_string (raw : String) (start stop : Nat) (parts : List Node) :
    v.weigh (.mk (.string raw) start stop parts) =
      v.load ⟨start, stop, raw⟩ + v.weighAll parts := by
  rw [weigh, Node.leaves, List.map_cons, List.sum_cons, sum_load_leavesOf]

/-- nothing can be read here, or the cursor stands in the source -/
def Within (v : Probe) (c : Cursor) : Prop :=
  c.rest = [] ∨ Cursor.Reaches ⟨v.source, 0⟩ c

theorem Within.of_reaches {c d : Cursor} (h : v.Within c) (hreaches : c.Reaches d) :
    v.Within d := by
  rcases h with h | h
  · have hlength := hreaches.length_le
    rw [h] at hlength
    exact .inl (List.length_eq_zero_iff.mp (Nat.le_zero.mp hlength))
  · exact .inr (h.trans hreaches)

/-- the current token stands between the last one and the cursor, and it is what it says -/
structure Sound (v : Probe) (s : State) : Prop where
  cursor : v.Within s.cursor
  lastStop_le : s.lastStop ≤ s.token.start
  start_le : s.token.start ≤ s.token.stop
  stop_eq : s.token.stop = s.cursor.offset
  string : ∀ raw, s.token.kind = .string raw → s.faults = [] →
    Stands v.source s.token.start s.token.stop raw
  symbol : ∀ x, s.token.kind = .symbol x → ∃ e, Cursor.Reaches ⟨v.source, 0⟩ e ∧
    s.token.start ≤ e.offset ∧ e.rest = x.text.toList ++ s.cursor.rest ∧
    s.cursor.offset = e.offset + byteLength x.text.toList

/-- the strings at hand weigh no more than the byte allows -/
def Holds (v : Probe) (s : State) (weight : Nat) : Prop :=
  s.faults = [] → weight ≤ if v.byte < s.lastStop then 1 else 0

theorem Holds.mono {s : State} {m n : Nat} (h : v.Holds s n) (hle : m ≤ n) : v.Holds s m :=
  fun hs => Nat.le_trans hle (h hs)

/-- what leads from one state to the next keeps the account when `given` is used up and `gained` is
at hand instead -/
def Keeps (v : Probe) (s : State) (given : Nat) (t : State) (gained : Nat) : Prop :=
  v.Sound t ∧ ∀ rest, v.Holds s (rest + given) → v.Holds t (rest + gained)

/-- an outcome keeps the account; a value weighs what `f` says, and a fault has no strings -/
def Ends (v : Probe) (s : State) (given : Nat) (f : α → Nat) : EStateM.Result Fault State α → Prop
  | .ok a t => v.Keeps s given t (f a)
  | .error _ t => v.Keeps s given t 0

/-- a step keeps the account from one state -/
def ReadsAt (v : Probe) (s : State) (given : Nat) (p : Parse α) (f : α → Nat) : Prop :=
  v.Sound s → v.Ends s given f (p s)

/-- a step keeps the account: it uses up `given` for a value that weighs what `f` says -/
structure Reads (v : Probe) (given : Nat) (p : Parse α) (f : α → Nat) : Prop where
  readsAt : ∀ s, v.ReadsAt s given p f

/-- a step that keeps the account and gives a value without strings -/
class Quiet (v : Probe) (p : Parse α) : Prop where
  reads : v.Reads 0 p (fun _ => 0)

theorem Keeps.trans {s t u : State} {k m n : Nat} (h : v.Keeps s k t m) (h' : v.Keeps t m u n) :
    v.Keeps s k u n :=
  ⟨h'.1, fun rest hs => h'.2 rest (h.2 rest hs)⟩

theorem Keeps.frame {s t : State} {m n : Nat} (h : v.Keeps s m t n) (k : Nat) :
    v.Keeps s (k + m) t (k + n) := by
  refine ⟨h.1, fun rest hs => ?_⟩
  rw [← Nat.add_assoc] at hs ⊢
  exact h.2 (rest + k) hs

theorem Keeps.mono {s t : State} {k m m' n n' : Nat} (h : v.Keeps s m t n) (hm : k + m ≤ m')
    (hn : n' ≤ k + n) : v.Keeps s m' t n' := by
  refine ⟨h.1, fun rest hs => ?_⟩
  exact ((h.frame k).2 rest (hs.mono (by omega))).mono (by omega)

/-! ## rules -/

namespace ReadsAt

variable {s : State} {given : Nat}

theorem mono {p : Parse α} {f g : α → Nat} {k m : Nat} (h : v.ReadsAt s m p g)
    (hm : k + m ≤ given) (hf : ∀ a, f a ≤ k + g a) : v.ReadsAt s given p f := by
  intro hs
  have h := h hs
  cases hp : p s with
  | ok a t =>
    rw [hp] at h
    exact Keeps.mono h hm (hf a)
  | error e t =>
    rw [hp] at h
    exact Keeps.mono h hm (Nat.zero_le _)

theorem bind {p : Parse α} {q : α → Parse β} {f : β → Nat} {g : α → Nat}
    (hp : v.ReadsAt s given p g) (hq : ∀ a, v.Reads (g a) (q a) f) :
    v.ReadsAt s given (p >>= q) f := by
  intro hs
  have hp := hp hs
  show v.Ends s given f (EStateM.bind p q s)
  unfold EStateM.bind
  cases hps : p s with
  | error e t =>
    rw [hps] at hp
    exact hp
  | ok a t =>
    rw [hps] at hp
    have hq := (hq a).readsAt t hp.1
    show v.Ends s given f (q a t)
    cases hqt : q a t with
    | ok b u =>
      rw [hqt] at hq
      exact Keeps.trans hp hq
    | error e u =>
      rw [hqt] at hq
      exact Keeps.trans hp hq

end ReadsAt

namespace Reads

variable {given : Nat}

theorem mono {p : Parse α} {f : α → Nat} {m : Nat} (h : v.Reads m p f)
    (hm : m ≤ given) : v.Reads given p f :=
  ⟨fun s => (h.readsAt s).mono (by omega : 0 + m ≤ given) (fun a => by omega)⟩

theorem pure {a : α} {f : α → Nat} (h : f a ≤ given) :
    v.Reads given (Pure.pure a) f :=
  ⟨fun _ hs => ⟨hs, fun rest hrest => hrest.mono (Nat.add_le_add_left h rest)⟩⟩

theorem pureThen {a : α} {q : α → Parse β} {f : β → Nat} (h : v.Reads given (q a) f) :
    v.Reads given (Pure.pure a >>= q) f :=
  ⟨fun s => h.readsAt s⟩

theorem bind {p : Parse α} {q : α → Parse β} {f : β → Nat} {g : α → Nat} (hp : v.Reads 0 p g)
    (hq : ∀ a, v.Reads (given + g a) (q a) f) : v.Reads given (p >>= q) f :=
  ⟨fun s => ((hp.readsAt s).mono (Nat.le_refl _) (fun _ => Nat.le_refl _)).bind hq⟩

/-- what the first step uses up is `m`; `k` is left for the second one -/
theorem bindOn {p : Parse α} {q : α → Parse β} {f : β → Nat} {g : α → Nat} {m : Nat}
    (hp : v.Reads m p g) (k : Nat) (hle : k + m ≤ given) (hq : ∀ a, v.Reads (k + g a) (q a) f) :
    v.Reads given (p >>= q) f :=
  ⟨fun s => ((hp.readsAt s).mono hle (fun _ => Nat.le_refl _)).bind hq⟩

theorem andThen {p : Parse α} {q : α → Parse β} {f : β → Nat} [hp : v.Quiet p]
    (hq : ∀ a, v.Reads given (q a) f) : v.Reads given (p >>= q) f :=
  hp.reads.bind hq

theorem ite {c : Prop} [Decidable c] {p q : Parse α} {f : α → Nat} (hp : v.Reads given p f)
    (hq : v.Reads given q f) : v.Reads given (if c then p else q) f := by
  split
  · exact hp
  · exact hq

end Reads

end Probe

end Bindle.Script
