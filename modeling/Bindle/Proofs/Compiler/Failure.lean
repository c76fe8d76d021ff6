import Bindle.Proofs.Compiler.Stages
import Bindle.Proofs.Emission.Memory

/-!
# Runs that fail

`Compiler.Fails` lists where a run with files in memory can fail, and for each place what had been
done by then; `run_eq_error_iff` says that there are no others.  Nothing that was done is taken
back.  So the files are as before exactly when all that had been written was there already
(`files_run_of_error`), and not always (`not_all_or_nothing`).
-/

namespace Bindle.Compiler

variable {σ : Type}

/-! ## places to fail -/

section

variable (c : Compiler σ) (parser : Parser) (s : σ) (m : Memory)

/-- a run fails with an error, after some deeds, and leaves the files behind -/
inductive Fails : BuildError → List Deed → Memory → Prop where
  | run {s₁ : σ} {e : BuildError} (hrun : c.hooks.call .run s = (.error e, s₁)) : Fails e [] m
  | compile {s₁ : σ} {e : BuildError} (hrun : c.hooks.call .run s = (.ok (), s₁))
      (hmade : (compilation c.options ModuleGraph.capacity).result (m.answer parser) = .error e) :
      Fails e [] m
  | emit {s₁ : σ} {made : Compilation} {before after : List Deed} {d : Deed} {e : FileError}
      {m' : Memory} (hrun : c.hooks.call .run s = (.ok (), s₁))
      (hmade : (compilation c.options ModuleGraph.capacity).result (m.answer parser) = .ok made)
      (hplan : Emission.plan c.options.outputPath made.assets = before ++ d :: after)
      (hdone : Done before m m') (hd : d.applyTo m' = .error e) :
      Fails (.io d.path e) before m'
  /-- everything was written, and then a `done` tap failed -/
  | done {s₁ s₂ : σ} {made : Compilation} {e : BuildError} {m' : Memory}
      (hrun : c.hooks.call .run s = (.ok (), s₁))
      (hmade : (compilation c.options ModuleGraph.capacity).result (m.answer parser) = .ok made)
      (hdone : Done (Emission.plan c.options.outputPath made.assets) m m')
      (htaps : c.hooks.call .done s₁ = (.error e, s₂)) :
      Fails e (Emission.plan c.options.outputPath made.assets) m'

end

variable {c : Compiler σ} {parser : Parser} {s s₁ s₂ : σ} {m m' : Memory} {e : BuildError}
  {made : Compilation}

/-! ## runs with files in memory -/

/-- writing that fails leaves behind what was written by then -/
theorem run_of_error (hrun : c.hooks.call .run s = (.ok (), s₁))
    (hmade : (compilation c.options ModuleGraph.capacity).result (m.answer parser) = .ok made)
    {before after : List Deed} {d : Deed} {cause : FileError}
    (hplan : Emission.plan c.options.outputPath made.assets = before ++ d :: after)
    (hdone : Done before m m') (hd : d.applyTo m' = .error cause) :
    c.run (Memory.host parser) s m =
      ((.error (.io d.path cause), { c with state := .failed }, s₁), m') :=
  run_of_emission hrun (Memory.ask_of_result hmade) (Emission.emit_of_error hplan hdone hd)

theorem run_of_written (hrun : c.hooks.call .run s = (.ok (), s₁))
    (hmade : (compilation c.options ModuleGraph.capacity).result (m.answer parser) = .ok made)
    (hdone : Done (Emission.plan c.options.outputPath made.assets) m m')
    {result : Except BuildError Unit} (htaps : c.hooks.call .done s₁ = (result, s₂)) :
    c.run (Memory.host parser) s m = ((result.map fun _ => made,
      { c with state := .after .done result }, s₂), m') :=
  run_of_done hrun (Memory.ask_of_result hmade) (Emission.emit_of_done hdone) htaps

/-- **How runs end.**  One fails in one of these places, or it makes a compilation and writes all of
it. -/
theorem run_cases {c' : Compiler σ} {s' : σ} {result : Except BuildError Compilation}
    (h : c.run (Memory.host parser) s m = ((result, c', s'), m')) :
    (∃ e deeds, result = .error e ∧ Fails c parser s m e deeds m') ∨
      ∃ made, result = .ok made ∧
        (compilation c.options ModuleGraph.capacity).result (m.answer parser) = .ok made ∧
        Done (Emission.plan c.options.outputPath made.assets) m m' := by
  cases hrun : c.hooks.call .run s with
  | mk ended s₁ =>
    cases ended with
    | error e =>
      rw [run_of_taps hrun] at h
      cases h
      exact .inl ⟨e, _, rfl, .run hrun⟩
    | ok _ =>
      cases hmade : (compilation c.options ModuleGraph.capacity).result (m.answer parser) with
      | error e =>
        rw [run_of_compilation hrun (Memory.ask_of_result hmade)] at h
        cases h
        exact .inl ⟨e, _, rfl, .compile hrun hmade⟩
      | ok made =>
        rcases Emission.done_or_fails (Emission.plan c.options.outputPath made.assets) m with
          ⟨m₁, hdone⟩ | ⟨before, d, after, m₁, cause, hplan, hdone, hd⟩
        · cases htaps : c.hooks.call .done s₁ with
          | mk ended s₂ =>
            rw [run_of_written hrun hmade hdone htaps] at h
            cases ended with
            | ok _ =>
              cases h
              exact .inr ⟨made, rfl, rfl, hdone⟩
            | error e =>
              cases h
              exact .inl ⟨e, _, rfl, .done hrun hmade hdone htaps⟩
        · rw [run_of_error hrun hmade hplan hdone hd] at h
          cases h
          exact .inl ⟨_, _, rfl, .emit hrun hmade hplan hdone hd⟩

/-- **These are all places to fail.** -/
theorem run_eq_error_iff :
    (∃ c' s', c.run (Memory.host parser) s m = ((.error e, c', s'), m')) ↔
      ∃ deeds, Fails c parser s m e deeds m' := by
  constructor
  · rintro ⟨c', s', h⟩
    rcases run_cases h with ⟨_, deeds, he, hfails⟩ | ⟨_, he, -⟩
    · cases he
      exact ⟨deeds, hfails⟩
    · cases he
  · rintro ⟨deeds, h⟩
    cases h with
    | run hrun => exact ⟨_, _, run_of_taps hrun⟩
    | compile hrun hmade => exact ⟨_, _, run_of_compilation hrun (Memory.ask_of_result hmade)⟩
    | emit hrun hmade hplan hdone hd => exact ⟨_, _, run_of_error hrun hmade hplan hdone hd⟩
    | done hrun hmade hdone htaps => exact ⟨_, _, run_of_written hrun hmade hdone htaps⟩

theorem Fails.files_eq {deeds : List Deed} (h : Fails c parser s m e deeds m') :
    m'.files = m.files.insertAll (Emission.writes deeds) := by
  cases h with
  | run => rfl
  | compile => rfl
  | emit _ _ _ hdone => exact hdone.files_eq
  | done _ _ hdone => exact hdone.files_eq

/-- **The files after a run that failed.**  They have all that was written before the failure, and
they are as before exactly when this was there already. -/
theorem files_run_of_error {c' : Compiler σ} {s' : σ}
    (h : c.run (Memory.host parser) s m = ((.error e, c', s'), m')) :
    ∃ deeds, Fails c parser s m e deeds m' ∧
      m'.files = m.files.insertAll (Emission.writes deeds) ∧
      (m'.files = m.files ↔ ∀ k content,
        Table.lookup k (Emission.writes deeds).reverse = some content →
          m.files.get? k = some content) := by
  obtain ⟨deeds, hfails⟩ := run_eq_error_iff.mp ⟨_, _, h⟩
  refine ⟨deeds, hfails, hfails.files_eq, ?_⟩
  rw [hfails.files_eq]
  exact Table.insertAll_eq_self_iff

def oneFile : Memory := .ofList [(⟨"/p/a.js"⟩, .text "")]

/-- the second asset belongs below the first -/
def nested : Compiler Unit :=
  .ofOptions ((((Options.new ⟨"/p"⟩).entry "a" "./a").entry "a/b" "./a").output "dist" "[name]")

/-- the first asset stays when the second cannot be written -/
theorem run_nested : ∃ c' s' m', nested.run (Memory.host Script.parser) () oneFile =
      ((.error (.io ⟨"/p/dist/a"⟩ (.notADirectory "/p/dist/a")), c', s'), m') ∧
    m'.paths = ["/p/a.js", "/p/dist/a"] := by
  have hr : ((nested.run (Memory.host Script.parser) () oneFile).1.1.map (fun _ => ()),
        (nested.run (Memory.host Script.parser) () oneFile).2.paths) =
      (.error (.io ⟨"/p/dist/a"⟩ (.notADirectory "/p/dist/a")), ["/p/a.js", "/p/dist/a"]) := by
    decide +kernel
  generalize nested.run (Memory.host Script.parser) () oneFile = r at hr ⊢
  obtain ⟨⟨result, c', s'⟩, m'⟩ := r
  obtain ⟨hresult, hpaths⟩ := Prod.mk.inj hr
  cases result with
  | ok made => cases hresult
  | error e =>
    obtain rfl := Except.error.inj hresult
    exact ⟨c', s', m', rfl, hpaths⟩

theorem files_run_nested : ∃ e c' s' m',
    nested.run (Memory.host Script.parser) () oneFile = ((.error e, c', s'), m') ∧
    m'.paths = ["/p/a.js", "/p/dist/a"] ∧
    ∃ deeds, Fails nested Script.parser () oneFile e deeds m' ∧
      m'.files = oneFile.files.insertAll (Emission.writes deeds) := by
  obtain ⟨c', s', m', h, hpaths⟩ := run_nested
  obtain ⟨deeds, hfails, hfiles, -⟩ := files_run_of_error h
  exact ⟨_, c', s', m', h, hpaths, deeds, hfails, hfiles⟩

/-- **A run that fails may have written.** -/
theorem not_all_or_nothing : ¬ ∀ (c : Compiler Unit) (s : Unit) (m : Memory) (e : BuildError)
    (c' : Compiler Unit) (s' : Unit) (m' : Memory),
    c.run (Memory.host Script.parser) s m = ((.error e, c', s'), m') → m'.files = m.files := by
  intro h
  obtain ⟨c', s', m', hrun, hpaths⟩ := run_nested
  have hfiles := h nested () oneFile _ c' s' m' hrun
  have hold : oneFile.paths = ["/p/a.js"] := by decide +kernel
  rw [Memory.paths, hfiles, ← Memory.paths, hold] at hpaths
  exact absurd hpaths (by decide)

end Bindle.Compiler
