import Bindle.Graph.Grow
import Bindle.Proofs.Build.Endings
import Bindle.Proofs.Files.Host

/-!
# Transcripts

A transcript has the questions that a dialogue puts, in order, each with the answer that it gets.

* `Dialogue.Goes d t a`     `d` ends in `a` after the turns `t`;
* `texts t`, `sources t`    the files that are read in `t`, and the sources that are parsed;
* `Settings.loaded`         what the rules make of a file that was read;
* `Host.traced`             a host that keeps a transcript of what it is asked.

`exists_of_goes_analyse`: analysing a file reads this file alone, and parses what the rules make of it.
-/

namespace Bindle

structure Turn where
  question : Question
  answer : question.Answer

abbrev Transcript := List Turn

/-- a file that is read, with what is found there -/
def Turn.text? : Turn → Option (Path × Except FileError String)
  | ⟨.text p, answer⟩ => some (p, answer)
  | _ => none

def Turn.source? : Turn → Option String
  | ⟨.parse source, _⟩ => some source
  | _ => none

def texts (t : Transcript) : List (Path × Except FileError String) := t.filterMap Turn.text?

def sources (t : Transcript) : List String := t.filterMap Turn.source?

theorem texts_append (t t' : Transcript) : texts (t ++ t') = texts t ++ texts t' :=
  List.filterMap_append

theorem sources_append (t t' : Transcript) : sources (t ++ t') = sources t ++ sources t' :=
  List.filterMap_append

/-! ## dialogues -/

namespace Dialogue

variable {α β : Type}

inductive Goes : Dialogue α → Transcript → α → Prop where
  | done (a : α) : Goes (done a) [] a
  | ask {q : Question} {next : q.Answer → Dialogue α} {answer : q.Answer} {t : Transcript} {a : α}
      (hnext : Goes (next answer) t a) : Goes (ask q next) (⟨q, answer⟩ :: t) a

theorem goes_done {a b : α} {t : Transcript} : (done a).Goes t b ↔ t = [] ∧ b = a := by
  constructor
  · intro h
    cases h
    exact ⟨rfl, rfl⟩
  · rintro ⟨rfl, rfl⟩
    exact .done b

theorem goes_ask {q : Question} {next : q.Answer → Dialogue α} {t : Transcript} {a : α} :
    (ask q next).Goes t a ↔ ∃ answer t', t = ⟨q, answer⟩ :: t' ∧ (next answer).Goes t' a := by
  constructor
  · intro h
    cases h with
    | ask hnext => exact ⟨_, _, rfl, hnext⟩
  · rintro ⟨answer, t', rfl, hnext⟩
    exact .ask hnext

theorem goes_bind {d : Dialogue α} {f : α → Dialogue β} {t : Transcript} {b : β} :
    (d.bind f).Goes t b ↔ ∃ t₁ t₂ a, t = t₁ ++ t₂ ∧ d.Goes t₁ a ∧ (f a).Goes t₂ b := by
  constructor
  · intro h
    induction d generalizing t with
    | done a => exact ⟨[], t, a, rfl, .done a, h⟩
    | ask q next ih =>
      obtain ⟨answer, t', rfl, hnext⟩ := goes_ask.mp h
      obtain ⟨t₁, t₂, a, rfl, ha, hb⟩ := ih answer hnext
      exact ⟨⟨q, answer⟩ :: t₁, t₂, a, rfl, .ask ha, hb⟩
  · rintro ⟨t₁, t₂, a, rfl, ha, hb⟩
    induction ha with
    | done => exact hb
    | ask _ ih => exact .ask (ih hb)

theorem goes_answerTo {q : Question} {t : Transcript} {answer : q.Answer} :
    (answerTo q).Goes t answer ↔ t = [⟨q, answer⟩] := by
  show (ask q done).Goes t answer ↔ _
  rw [goes_ask]
  constructor
  · rintro ⟨answer', t', rfl, h⟩
    obtain ⟨rfl, rfl⟩ := goes_done.mp h
    rfl
  · rintro rfl
    exact ⟨answer, [], rfl, .done answer⟩

/-- the end of a transcript in which all answers fit -/
theorem Goes.endsIn {d : Dialogue α} {t : Transcript} {a : α} (h : d.Goes t a)
    {fits : (q : Question) → q.Answer → Prop}
    (hfits : ∀ turn ∈ t, fits turn.question turn.answer) : d.EndsIn fits a := by
  induction h with
  | done a => exact .done a
  | ask _ ih =>
    obtain ⟨hfirst, hrest⟩ := List.forall_mem_cons.mp hfits
    exact .ask hfirst (ih hrest)

theorem Goes.canEndIn {d : Dialogue α} {t : Transcript} {a : α} (h : d.Goes t a) : d.CanEndIn a :=
  h.endsIn fun _ _ => trivial

end Dialogue

/-! ## looking for files -/

/-- nothing is read and nothing is parsed -/
structure Transcript.Quiet (t : Transcript) : Prop where
  texts_eq : texts t = []
  sources_eq : sources t = []

namespace Transcript.Quiet

variable {t t' : Transcript}

theorem nil : Quiet [] := ⟨rfl, rfl⟩

theorem append (h : Quiet t) (h' : Quiet t') : Quiet (t ++ t') :=
  ⟨by rw [texts_append, h.texts_eq, h'.texts_eq]; rfl,
    by rw [sources_append, h.sources_eq, h'.sources_eq]; rfl⟩

end Transcript.Quiet

open Transcript

theorem quiet_of_firstFile {ps : List Path} {t : Transcript} {found : Option Path}
    (h : (firstFile ps).Goes t found) : Quiet t := by
  induction ps generalizing t with
  | nil =>
    obtain ⟨rfl, -⟩ := Dialogue.goes_done.mp h
    exact .nil
  | cons p ps ih =>
    obtain ⟨isFile, t', rfl, hnext⟩ := Dialogue.goes_ask.mp h
    have hquiet : Quiet t' := by
      cases isFile with
      | true => exact (Dialogue.goes_done.mp hnext).1 ▸ .nil
      | false => exact ih hnext
    exact ⟨hquiet.texts_eq, hquiet.sources_eq⟩

theorem quiet_of_resolve {extensions : List String} {base : Path} {specifier : String}
    {importer : Option ModuleId} {t : Transcript} {result : Except BuildError Path}
    (h : (resolve extensions base specifier importer).Goes t result) : Quiet t := by
  obtain ⟨t₁, t₂, found, rfl, hfound, hend⟩ := Dialogue.goes_bind.mp h
  have hquiet : Quiet t₂ := by
    cases found with
    | none => exact (Dialogue.goes_done.mp hend).1 ▸ .nil
    | some p => exact (Dialogue.goes_done.mp hend).1 ▸ .nil
  exact (quiet_of_firstFile hfound).append hquiet

theorem quiet_of_extract {site : Site} {calls : List Script.Call} {t : Transcript} {x : Extraction}
    (h : (extract site calls).Goes t x) : Quiet t := by
  induction calls generalizing t x with
  | nil => exact (Dialogue.goes_done.mp h).1 ▸ .nil
  | cons c cs ih =>
    unfold extract at h
    cases hc : c.argument with
    | dynamic written =>
      simp only [hc] at h
      exact (Dialogue.goes_done.mp h).1 ▸ .nil
    | literal specifier =>
      simp only [hc] at h
      obtain ⟨t₁, t₂, resolved, rfl, hresolved, hnext⟩ := Dialogue.goes_bind.mp h
      refine (quiet_of_resolve hresolved).append ?_
      cases resolved with
      | error e => exact (Dialogue.goes_done.mp hnext).1 ▸ .nil
      | ok path =>
        obtain ⟨t₃, t₄, rest, rfl, hrest, hend⟩ := Dialogue.goes_bind.mp hnext
        exact (ih hrest).append ((Dialogue.goes_done.mp hend).1 ▸ .nil)

/-! ## one file -/

/-- what the rules make of a file that was read -/
def Settings.loaded (s : Settings) : Path × Except FileError String → Option String
  | (p, .ok raw) => (Rule.load s.rules (s.idOf p) p raw).toOption
  | (_, .error _) => none

/-- a source is parsed, and its calls are looked for -/
theorem goes_analyseText {s : Settings} {p : Path} {source : String} {t : Transcript} {a : Analysis}
    (h : (s.analyseText p source).Goes t a) : texts t = [] ∧ sources t = [source] := by
  obtain ⟨t₁, t₂, parsed, rfl, hparsed, hnext⟩ := Dialogue.goes_bind.mp h
  obtain rfl := Dialogue.goes_answerTo.mp hparsed
  have hquiet : Quiet t₂ := by
    cases parsed with
    | error e => exact (Dialogue.goes_done.mp hnext).1 ▸ .nil
    | ok tree =>
      obtain ⟨t₃, t₄, x, rfl, hx, hend⟩ := Dialogue.goes_bind.mp hnext
      refine (quiet_of_extract hx).append ?_
      cases hfailure : x.failure with
      | none =>
        simp only [hfailure] at hend
        exact (Dialogue.goes_done.mp hend).1 ▸ .nil
      | some e =>
        simp only [hfailure] at hend
        exact (Dialogue.goes_done.mp hend).1 ▸ .nil
  exact ⟨hquiet.texts_eq, congrArg (source :: ·) hquiet.sources_eq⟩

/-- analysing a file reads it, and parses what the rules make of it -/
theorem exists_of_goes_analyse {s : Settings} {p : Path} {t : Transcript} {a : Analysis}
    (h : (s.analyse p).Goes t a) :
    ∃ answer, texts t = [(p, answer)] ∧ sources t = (s.loaded (p, answer)).toList ∧
      ∀ found, a.outcome = .ok found → (s.loaded (p, answer)).isSome := by
  obtain ⟨t₁, t₂, answer, rfl, hanswer, hnext⟩ := Dialogue.goes_bind.mp h
  obtain rfl := Dialogue.goes_answerTo.mp hanswer
  refine ⟨answer, ?_⟩
  cases answer with
  | error e =>
    obtain ⟨rfl, rfl⟩ := Dialogue.goes_done.mp hnext
    exact ⟨rfl, rfl, fun found hfound => by cases hfound⟩
  | ok raw =>
    cases hload : Rule.load s.rules (s.idOf p) p raw with
    | error e =>
      simp only [hload] at hnext
      obtain ⟨rfl, rfl⟩ := Dialogue.goes_done.mp hnext
      have hloaded : s.loaded (p, .ok raw) = none := by
        rw [Settings.loaded, hload]
        rfl
      rw [hloaded]
      exact ⟨rfl, rfl, fun found hfound => by cases hfound⟩
    | ok source =>
      simp only [hload] at hnext
      have hloaded : s.loaded (p, .ok raw) = some source := by
        rw [Settings.loaded, hload]
        rfl
      obtain ⟨htexts, hsources⟩ := goes_analyseText hnext
      rw [texts_append, htexts, hloaded]
      exact ⟨rfl, hsources, fun _ _ => rfl⟩

/-! ## hosts -/

namespace Host

variable {α β γ : Type}

/-- an action on the state under a transcript, which gets what `told` makes of its value -/
def tracing (told : γ → Transcript) (act : StateM α γ) : StateM (α × Transcript) γ :=
  fun s => ((act s.1).1, (act s.1).2, s.2 ++ told (act s.1).1)

/-- the host with a transcript of what it is asked -/
def traced (h : Host (StateM α)) : Host (StateM (α × Transcript)) where
  isFile p := tracing (fun answer => [⟨.isFile p, answer⟩]) (h.isFile p)
  isDir p := tracing (fun _ => []) (h.isDir p)
  read p := tracing (fun content => [⟨.text p, content.bind (Content.textAt p)⟩]) (h.read p)
  write p content := tracing (fun _ => []) (h.write p content)
  createDirs p := tracing (fun _ => []) (h.createDirs p)
  parse source := tracing (fun answer => [⟨.parse source, answer⟩]) (h.parse source)

variable (h : Host (StateM α))

theorem answer_traced (q : Question) (s : α) (t : Transcript) :
    h.traced.answer q (s, t) =
      ((h.answer q s).1, (h.answer q s).2, t ++ [⟨q, (h.answer q s).1⟩]) := by
  cases q with
  | isFile p => rfl
  | text p => rfl
  | parse source => rfl

/-- a transcript changes nothing, and is one of the dialogue -/
theorem exists_ask_traced (d : Dialogue γ) (s : α) (before : Transcript) :
    ∃ t, h.traced.ask d (s, before) = ((h.ask d s).1, (h.ask d s).2, before ++ t) ∧
      d.Goes t (h.ask d s).1 := by
  induction d generalizing s before with
  | done a => exact ⟨[], congrArg (a, s, ·) (List.append_nil before).symm, .done a⟩
  | ask q next ih =>
    obtain ⟨t, hask, hgoes⟩ := ih (h.answer q s).1 (h.answer q s).2
      (before ++ [⟨q, (h.answer q s).1⟩])
    refine ⟨⟨q, (h.answer q s).1⟩ :: t, ?_, .ask hgoes⟩
    show (h.traced.answer q >>= fun a => h.traced.ask (next a)) (s, before) = _
    rw [state_bind (h.answer_traced q s before), hask, List.append_assoc]
    rfl

end Host

end Bindle
