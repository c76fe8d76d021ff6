import Bindle.Build.Extract

/-!
# Where a dialogue can end

* `Dialogue.EndsIn fits d a`   `d` ends in `a` if every question gets some answer that fits;
* `Dialogue.CanEndIn d a`      `d` ends in `a` for some answers; a question that is put twice may be
                               answered in two ways, as by files that change meanwhile.

With answers known beforehand there is one ending, the result (`endsIn_known`).
-/

namespace Bindle

namespace Dialogue

variable {α β : Type}

inductive EndsIn (fits : (q : Question) → q.Answer → Prop) : Dialogue α → α → Prop where
  | done (a : α) : EndsIn fits (done a) a
  | ask {q : Question} {next : q.Answer → Dialogue α} {answer : q.Answer} {a : α}
      (hfits : fits q answer) (hnext : EndsIn fits (next answer) a) : EndsIn fits (ask q next) a

/-- the answers known beforehand -/
def Known (answer : (q : Question) → q.Answer) (q : Question) (a : q.Answer) : Prop := a = answer q

def CanEndIn (d : Dialogue α) (a : α) : Prop := d.EndsIn (fun _ _ => True) a

variable {fits : (q : Question) → q.Answer → Prop}

theorem endsIn_done {a b : α} : (done a).EndsIn fits b ↔ b = a := by
  constructor
  · intro h
    cases h
    rfl
  · rintro rfl
    exact .done b

theorem endsIn_ask {q : Question} {next : q.Answer → Dialogue α} {a : α} :
    (ask q next).EndsIn fits a ↔ ∃ answer, fits q answer ∧ (next answer).EndsIn fits a := by
  constructor
  · intro h
    cases h with
    | ask hfits hnext => exact ⟨_, hfits, hnext⟩
  · rintro ⟨answer, hfits, hnext⟩
    exact .ask hfits hnext

theorem endsIn_bind {d : Dialogue α} {f : α → Dialogue β} {b : β} :
    (d.bind f).EndsIn fits b ↔ ∃ a, d.EndsIn fits a ∧ (f a).EndsIn fits b := by
  induction d with
  | done a => simp [endsIn_done]
  | ask q next ih =>
    show (ask q (fun answer => (next answer).bind f)).EndsIn fits b ↔ _
    simp only [endsIn_ask, ih]
    constructor
    · rintro ⟨answer, hfits, a, ha, hb⟩
      exact ⟨a, ⟨answer, hfits, ha⟩, hb⟩
    · rintro ⟨a, ⟨answer, hfits, ha⟩, hb⟩
      exact ⟨answer, hfits, a, ha, hb⟩

theorem endsIn_answerTo {q : Question} {answer : q.Answer} :
    (answerTo q).EndsIn fits answer ↔ fits q answer := by
  show (ask q done).EndsIn fits answer ↔ _
  rw [endsIn_ask]
  constructor
  · rintro ⟨a, hfits, ha⟩
    rwa [endsIn_done.mp ha]
  · exact fun hfits => ⟨answer, hfits, .done answer⟩

theorem EndsIn.canEndIn {d : Dialogue α} {a : α} (h : d.EndsIn fits a) : d.CanEndIn a := by
  induction h with
  | done a => exact .done a
  | ask _ _ ih => exact .ask trivial ih

/-- **Known answers leave one ending.** -/
theorem endsIn_known {answer : (q : Question) → q.Answer} {d : Dialogue α} {a : α} :
    d.EndsIn (Known answer) a ↔ d.result answer = a := by
  induction d with
  | done b => exact endsIn_done.trans eq_comm
  | ask q next ih =>
    rw [endsIn_ask]
    constructor
    · rintro ⟨x, rfl, hx⟩
      exact (ih _).mp hx
    · exact fun h => ⟨_, rfl, (ih _).mpr h⟩

theorem canEndIn_result (answer : (q : Question) → q.Answer) (d : Dialogue α) :
    d.CanEndIn (d.result answer) := (endsIn_known.mpr rfl).canEndIn

end Dialogue

end Bindle
