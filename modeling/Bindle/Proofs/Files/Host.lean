import Bindle.Files.Host
import Bindle.Proofs.Build.Endings
import Mathlib.Logic.Relation

/-!
# Hosts that are asked

A host answers the questions of a dialogue one after the other (`Host.ask_bind`), and the dialogue ends
in one of its endings (`Host.canEndIn_ask`).  It is asked for no change of its files.

* `Host.Asked`     questions alone lead from one state of the host to another;
* `Host.IsStill`   questions change nothing.

With files in memory changes are attempts (`write_host`, `createDirs_host`), and questions change
nothing: a dialogue ends as with the answers that the files give before it, and leaves them as they are
(`ask_host`).
-/

namespace Bindle

/-- what comes after a first action goes on with its value and the state that it left -/
theorem state_bind {σ α β : Type} {first : StateM σ α} {s s' : σ} {a : α} (h : first s = (a, s'))
    (next : α → StateM σ β) : (first >>= next) s = next a s' := by
  show (match first s with | (a, s') => next a s') = next a s'
  rw [h]

namespace Host

variable {α β γ : Type} (h : Host (StateM α))

/-- a host that is asked two things, one after the other -/
theorem ask_bind (d : Dialogue γ) (f : γ → Dialogue β) (s : α) :
    h.ask (d.bind f) s = h.ask (f (h.ask d s).1) (h.ask d s).2 := by
  induction d generalizing s with
  | done a => rfl
  | ask q next ih => exact ih (h.answer q s).1 (h.answer q s).2

theorem canEndIn_ask (d : Dialogue γ) (s : α) : d.CanEndIn (h.ask d s).1 := by
  induction d generalizing s with
  | done a => exact .done a
  | ask q next ih => exact .ask trivial (ih (h.answer q s).1 (h.answer q s).2)

/-- the second state is what some questions, one after the other, make of the first -/
def Asked : α → α → Prop := Relation.ReflTransGen fun s s' => ∃ q, (h.answer q s).2 = s'

theorem asked_ask (d : Dialogue γ) (s : α) : h.Asked s (h.ask d s).2 := by
  induction d generalizing s with
  | done a => exact .refl
  | ask q next ih => exact .head ⟨q, rfl⟩ (ih (h.answer q s).1 (h.answer q s).2)

/-- questions leave every state as it is -/
def IsStill : Prop := ∀ q s, (h.answer q s).2 = s

variable {h}

theorem Asked.eq_of_isStill {s s' : α} (hasked : h.Asked s s') (hstill : h.IsStill) : s' = s := by
  induction hasked with
  | refl => rfl
  | tail _ hlast ih =>
    obtain ⟨q, rfl⟩ := hlast
    exact (hstill q _).trans ih

end Host

namespace Memory

variable {α : Type}

@[simp] theorem write_host (parser : Parser) (p : Path) (content : Content) :
    (Memory.host parser).write p content = attempt (fun m => m.write p content) := by
  unfold Memory.host
  dsimp only

@[simp] theorem createDirs_host (parser : Parser) (p : Path) :
    (Memory.host parser).createDirs p = attempt (fun m => m.createDirs p) := by
  unfold Memory.host
  dsimp only

theorem answer_host (m : Memory) (parser : Parser) (q : Question) :
    (Memory.host parser).answer q m = (m.answer parser q, m) := by
  cases q with
  | isFile p => rfl
  | text p => rfl
  | parse source => rfl

theorem ask_host (m : Memory) (parser : Parser) (d : Dialogue α) :
    (Memory.host parser).ask d m = (d.result (m.answer parser), m) := by
  induction d with
  | done a => rfl
  | ask q next ih =>
    show ((Memory.host parser).answer q >>= fun a => (Memory.host parser).ask (next a)) m = _
    rw [state_bind (m.answer_host parser q)]
    exact ih (m.answer parser q)

theorem ask_of_result {m : Memory} {parser : Parser} {d : Dialogue α} {a : α}
    (h : d.result (m.answer parser) = a) : (Memory.host parser).ask d m = (a, m) := by
  rw [ask_host, h]

theorem isStill_host (parser : Parser) : (Memory.host parser).IsStill := by
  intro q m
  rw [answer_host]

end Memory

end Bindle
