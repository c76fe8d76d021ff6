import Bindle.Proofs.Graph.Growth
import Bindle.Proofs.Rule.Composition

/-!
# Files that fail

What can go wrong with a single file, whatever graph it is wanted for:

* `Settings.Holds`     the file is read, passes the rules and is parsed;
* `Settings.FailsOn`   a file with the error that it fails on: its text, its rules, its syntax, or its
                       first call that is refused;
* `Settings.blamed?`   the module that an error is about.

`failsOn_iff`: these are exactly the errors that analysing the file can end in.
-/

namespace Bindle

variable {fits : (q : Question) → q.Answer → Prop}

/-! ## rules -/

/-- rules fail with the error of one of their transforms, in the name of the module -/
theorem Rule.exists_of_load {rules : List Rule} {id : ModuleId} {p : Path} {raw : String}
    {e : BuildError} (h : load rules id p raw = .error e) :
    ∃ rule name cause, e = .loader rule name id cause := by
  obtain ⟨-, f, -, -, cause, -, -, -, rfl⟩ := loadThrough_eq_error_iff.mp h
  exact ⟨f.1.pattern.text, f.2.name, cause, rfl⟩

/-! ## files -/

namespace Settings

variable {s : Settings} {p : Path} {e : BuildError}

/-- the file at `p` is read, passes the rules and is parsed -/
def Holds (s : Settings) (fits : (q : Question) → q.Answer → Prop) (p : Path) (tree : SyntaxTree) :
    Prop :=
  ∃ raw source, fits (.text p) (.ok raw) ∧ Rule.load s.rules (s.idOf p) p raw = .ok source ∧
    fits (.parse source) (.ok tree)

/-- the file at `p` fails, taken alone -/
inductive FailsOn (s : Settings) (fits : (q : Question) → q.Answer → Prop) (p : Path) :
    BuildError → Prop where
  | text {cause : FileError} (htext : fits (.text p) (.error cause)) : FailsOn s fits p (.io p cause)
  | rules {raw rule name cause : String} (htext : fits (.text p) (.ok raw))
      (hload : Rule.load s.rules (s.idOf p) p raw = .error (.loader rule name (s.idOf p) cause)) :
      FailsOn s fits p (.loader rule name (s.idOf p) cause)
  | source {raw source : String} {cause : Script.SyntaxError} (htext : fits (.text p) (.ok raw))
      (hload : Rule.load s.rules (s.idOf p) p raw = .ok source)
      (hparse : fits (.parse source) (.error cause)) : FailsOn s fits p (.parse (s.idOf p) cause)
  /-- the calls before the one that is refused stand for files -/
  | call {tree : SyntaxTree} {before after : List Script.Call} {c : Script.Call} {e : BuildError}
      (hholds : s.Holds fits p tree) (hcalls : tree.calls = before ++ c :: after)
      (hbefore : ∀ b ∈ before, ∃ d, (s.site p).Finds fits b d)
      (hc : (s.site p).Refuses fits c e) : FailsOn s fits p e

theorem FailsOn.exists_analyse (h : s.FailsOn fits p e) :
    ∃ a, (s.analyse p).EndsIn fits a ∧ a.outcome = .error e := by
  cases h with
  | text htext =>
    exact ⟨_, Dialogue.endsIn_bind.mpr ⟨_, Dialogue.endsIn_answerTo.mpr htext, .done _⟩, rfl⟩
  | @rules raw rule name cause htext hload =>
    refine ⟨⟨[p], .error (.loader rule name (s.idOf p) cause)⟩,
      Dialogue.endsIn_bind.mpr ⟨_, Dialogue.endsIn_answerTo.mpr htext, ?_⟩, rfl⟩
    simp only [hload]
    exact .done _
  | source htext hload hparse =>
    refine ⟨⟨[p], .error (.parse (s.idOf p) _)⟩,
      Dialogue.endsIn_bind.mpr ⟨_, Dialogue.endsIn_answerTo.mpr htext, ?_⟩, rfl⟩
    simp only [hload]
    exact Dialogue.endsIn_bind.mpr ⟨_, Dialogue.endsIn_answerTo.mpr hparse, .done _⟩
  | @call tree before after c e hholds hcalls hbefore hc =>
    obtain ⟨raw, source, htext, hload, hparse⟩ := hholds
    obtain ⟨x, hx, hfailure⟩ := exists_extract_of_refuses after hbefore hc
    refine ⟨⟨p :: x.files, .error e⟩,
      Dialogue.endsIn_bind.mpr ⟨_, Dialogue.endsIn_answerTo.mpr htext, ?_⟩, rfl⟩
    simp only [hload]
    refine Dialogue.endsIn_bind.mpr ⟨_, Dialogue.endsIn_answerTo.mpr hparse, ?_⟩
    refine Dialogue.endsIn_bind.mpr ⟨x, hcalls ▸ hx, ?_⟩
    simp only [hfailure]
    exact .done _

theorem failsOn_of_analyse {a : Analysis} (h : (s.analyse p).EndsIn fits a)
    (ha : a.outcome = .error e) : s.FailsOn fits p e := by
  obtain ⟨text, htext, h⟩ := Dialogue.endsIn_bind.mp h
  have htext' := Dialogue.endsIn_answerTo.mp htext
  cases text with
  | error cause =>
    rw [Dialogue.endsIn_done.mp h] at ha
    cases ha
    exact .text htext'
  | ok raw =>
    cases hload : Rule.load s.rules (s.idOf p) p raw with
    | error e' =>
      simp only [hload] at h
      rw [Dialogue.endsIn_done.mp h] at ha
      cases ha
      obtain ⟨rule, name, cause, rfl⟩ := Rule.exists_of_load hload
      exact .rules htext' hload
    | ok source =>
      simp only [hload] at h
      obtain ⟨parsed, hparsed, h⟩ := Dialogue.endsIn_bind.mp h
      have hparsed' := Dialogue.endsIn_answerTo.mp hparsed
      cases parsed with
      | error cause =>
        rw [Dialogue.endsIn_done.mp h] at ha
        cases ha
        exact .source htext' hload hparsed'
      | ok tree =>
        obtain ⟨x, hx, h⟩ := Dialogue.endsIn_bind.mp h
        cases hfailure : x.failure with
        | none =>
          simp only [hfailure] at h
          rw [Dialogue.endsIn_done.mp h] at ha
          cases ha
        | some e' =>
          simp only [hfailure] at h
          rw [Dialogue.endsIn_done.mp h] at ha
          cases ha
          obtain ⟨before, c, after, hcalls, hbefore, hc⟩ := exists_refuses_of_extract hx hfailure
          exact .call ⟨raw, source, htext', hload, hparsed'⟩ hcalls hbefore hc

/-- **A file fails on exactly what its analysis ends in.** -/
theorem failsOn_iff : s.FailsOn fits p e ↔
    ∃ a, (s.analyse p).EndsIn fits a ∧ a.outcome = .error e :=
  ⟨FailsOn.exists_analyse, fun ⟨_, h, ha⟩ => failsOn_of_analyse h ha⟩

/-! ## whom an error is about -/

/-- the module that an error is about, if it is about one -/
def blamed? (s : Settings) : BuildError → Option ModuleId
  | .resolution _ _ importer _ => importer
  | .loader _ _ id _ => some id
  | .parse id _ => some id
  | .unsupportedDependency id _ _ => some id
  | .io path _ => some (s.idOf path)
  | .hook .. => none
  | .assetConflict .. => none
  | .tooManyModules _ => none

/-- a file that fails takes the blame -/
theorem FailsOn.blamed (h : s.FailsOn fits p e) : s.blamed? e = some (s.idOf p) := by
  cases h with
  | text => rfl
  | rules => rfl
  | source => rfl
  | call _ _ _ hc => cases hc <;> rfl

/-- with answers known beforehand a file that fails does not become a module -/
theorem FailsOn.not_analysed {answer : (q : Question) → q.Answer}
    (h : s.FailsOn (Dialogue.Known answer) p e) {found : List Dependency × String} :
    ¬ s.Analysed (Dialogue.Known answer) p found := by
  intro hfound
  obtain ⟨a, ha, hfails⟩ := h.exists_analyse
  obtain ⟨a', ha', hok⟩ := hfound.exists_analyse
  rw [Dialogue.endsIn_known] at ha ha'
  rw [← ha, ha', hok] at hfails
  cases hfails

end Settings

end Bindle
