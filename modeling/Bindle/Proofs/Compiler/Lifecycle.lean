import Bindle.Proofs.Compiler.Failure
import Bindle.Proofs.Hook.Calls

/-!
# The life of a compiler

A compiler lives through operations: callbacks are tapped, and it compiles and runs, as often as one
likes, on any host.  The callbacks act on all that the host has, its files too.

* `World`                the compiler, and the state of the host;
* `Operation.perform`    what an operation gives, and the world after it;
* `worldAfter`           the world after operations in turn;
* `Ran`                  the six ways in which the stages of a run end, with all calls that they make
                         and the state that they come to;
* `RunLaw`               what every run keeps to.

The main result is `lifecycle`: whatever was done before, a run keeps to its law, compiling calls
nothing and only asks about files, and the state tells how the last of them ended.
-/

namespace Bindle.Compiler

variable {ω : Type}

/-! ## operations -/

structure World (ω : Type) where
  compiler : Compiler ω
  /-- all that callbacks and questions can change, and writing -/
  state : ω

inductive Operation (ω : Type) where
  | tap (hook : Hook) (t : Tap ω)
  | run
  | compile

abbrev Outcome := Except BuildError Compilation

/-- tapping gives nothing -/
def Operation.perform (h : Host (StateM ω)) (w : World ω) : Operation ω → Option Outcome × World ω
  | .tap hook t => (none, { w with compiler := w.compiler.tap hook t })
  | .run =>
    let ((result, c), s) := w.compiler.runOn h w.state
    (some result, ⟨c, s⟩)
  | .compile =>
    let ((result, c), s) := w.compiler.compile h w.state
    (some result, ⟨c, s⟩)

def worldAfter (h : Host (StateM ω)) (w : World ω) (ops : List (Operation ω)) : World ω :=
  ops.foldl (fun w op => (op.perform h w).2) w

def Operation.tapped? (hook : Hook) : Operation ω → Option (Tap ω)
  | .tap h t => if h = hook then some t else none
  | _ => none

/-! ## runs -/

variable (c : Compiler ω) (h : Host (StateM ω)) (s : ω)

/-- all `run` taps succeed, and after them a compilation is made, whose questions leave `s₂` -/
def Made (made : Compilation) (s₂ : ω) : Prop :=
  ∃ s₁, Called c.hooks.run s c.hooks.run none s₁ ∧
    h.ask (compilation c.options ModuleGraph.capacity) s₁ = (.ok made, s₂)

/-- and its assets are written, which leaves `s₃` -/
def Written (made : Compilation) (s₃ : ω) : Prop :=
  ∃ s₂, Made c h s made s₂ ∧
    ∃ paths, Emission.emit h c.options.outputPath made.assets s₂ = (.ok paths, s₃)

/-- the stages of a run call taps, have a result, come to a state of the build and leave the state of
the host behind -/
inductive Ran : List (HookCall ω) → Outcome → BuildState → ω → Prop where
  | tapFails {called : List (Tap ω)} {t : Tap ω} {message : String} {s₁ : ω}
      (hrun : Called c.hooks.run s called (some (t, message)) s₁) :
      Ran (called.map (.run, ·)) (.error (.hook .run t.name message)) .running s₁
  | buildingFails {s₁ s₂ : ω} {e : BuildError} {g : Growth}
      (hrun : Called c.hooks.run s c.hooks.run none s₁)
      (hbuilt : h.ask (buildEntries c.options.settings ModuleGraph.capacity c.options.entries {}) s₁ =
        ((.error e, g), s₂)) :
      Ran (c.hooks.run.map (.run, ·)) (.error e) .running s₂
  | renderingFails {s₁ s₂ : ω} {e : BuildError} {g : Growth} {entries : List (String × ModuleId)}
      (hrun : Called c.hooks.run s c.hooks.run none s₁)
      (hbuilt : h.ask (buildEntries c.options.settings ModuleGraph.capacity c.options.entries {}) s₁ =
        ((.ok entries, g), s₂))
      (hrender : renderChunks c.options g.graph (Chunk.assemble g.graph entries) {} {} = .error e) :
      Ran (c.hooks.run.map (.run, ·)) (.error e) .chunksAssembled s₂
  | writingFails {s₂ s₃ : ω} {made : Compilation} {e : BuildError} (hmade : Made c h s made s₂)
      (hemit : Emission.emit h c.options.outputPath made.assets s₂ = (.error e, s₃)) :
      Ran (c.hooks.run.map (.run, ·)) (.error e) .rendered s₃
  | doneTapFails {s₃ s₄ : ω} {made : Compilation} {called : List (Tap ω)} {t : Tap ω}
      {message : String} (hwritten : Written c h s made s₃)
      (hdone : Called c.hooks.done s₃ called (some (t, message)) s₄) :
      Ran (c.hooks.run.map (.run, ·) ++ called.map (.done, ·))
        (.error (.hook .done t.name message)) .written s₄
  | succeeds {s₃ s₄ : ω} {made : Compilation} (hwritten : Written c h s made s₃)
      (hdone : Called c.hooks.done s₃ c.hooks.done none s₄) :
      Ran (c.hooks.run.map (.run, ·) ++ c.hooks.done.map (.done, ·)) (.ok made) .done s₄

/-- what holds of a run with the calls `calls` -/
structure RunLaw (calls : List (HookCall ω)) (result : Outcome) (s' : ω) : Prop where
  /-- the `run` taps are called once, up to the first that fails; then nothing else happens -/
  run_taps : ∀ {called : List (Tap ω)} {failure : Option (Tap ω × String)} {s₁ : ω},
    Called c.hooks.run s called failure s₁ →
      (∃ rest, calls = called.map (.run, ·) ++ rest ∧ ∀ call ∈ rest, call.1 = .done) ∧
      ∀ t message, failure = some (t, message) → calls = called.map (.run, ·) ∧ s' = s₁ ∧
        result = .error (.hook .run t.name message)
  /-- until a compilation is made, only these calls and questions act on the host -/
  only_asked : (¬ ∃ made s₂, Made c h s made s₂) → ∃ called failure s₁,
    Called c.hooks.run s called failure s₁ ∧ calls = called.map (.run, ·) ∧ h.Asked s₁ s' ∧
      ∃ e, result = .error e
  /-- and after that only writing, up to its end -/
  writing_fails : ∀ {made : Compilation} {s₂ s₃ : ω} {e : BuildError}, Made c h s made s₂ →
    Emission.emit h c.options.outputPath made.assets s₂ = (.error e, s₃) →
      calls = c.hooks.run.map (.run, ·) ∧ s' = s₃ ∧ result = .error e
  /-- the `done` taps are called up to the first that fails, when all was written -/
  done_taps : ∀ {made : Compilation} {s₃ : ω}, Written c h s made s₃ →
    ∃ called failure, Called c.hooks.done s₃ called failure s' ∧
      calls = c.hooks.run.map (.run, ·) ++ called.map (.done, ·) ∧
      result = failure.elim (.ok made) fun f => .error (.hook .done f.1.name f.2)
  /-- and only then -/
  no_done_taps : (¬ ∃ made s₃, Written c h s made s₃) →
    (∀ t, (.done, t) ∉ calls) ∧ ∃ e, result = .error e

variable {c : Compiler ω} {h : Host (StateM ω)} {s : ω}

theorem run_callHook (hook : Hook) (b : BuildState) {called : List (Tap ω)}
    {failure : Option (Tap ω × String)} {s₁ : ω}
    (hcalled : Called (c.hooks.taps hook) s called failure s₁) :
    (c.callHook (m := StateM ω) hook).run.run b s =
      ((failure.elim (.ok ()) fun f => .error (.hook hook f.1.name f.2), b), s₁) :=
  Stages.run_of (Called.call_eq c.hooks hook hcalled)

/-- the stages behind the assets -/
theorem exists_ran_of_made {made : Compilation} {s₂ : ω} (hmade : Made c h s made s₂) :
    ∃ calls result reached s', Ran c h s calls result reached s' ∧
      (do
        let _ ← Stages.of (Emission.emit h c.options.outputPath made.assets)
        Stages.transition .written
        c.callHook .done
        Stages.transition .done
        return made : Stages (StateM ω) Compilation).run.run .rendered s₂ =
          ((result, reached), s') := by
  cases hemit : Emission.emit h c.options.outputPath made.assets s₂ with
  | mk written s₃ =>
    have hof := Stages.run_of (b := .rendered) hemit
    cases written with
    | error e => exact ⟨_, _, _, _, .writingFails hmade hemit, Stages.run_bind_error hof⟩
    | ok paths =>
      have hwritten : Written c h s made s₃ := ⟨s₂, hmade, paths, hemit⟩
      obtain ⟨called, failure, s₄, hdone⟩ := exists_called c.hooks.done s₃
      have hcall := run_callHook .done .written hdone
      cases failure with
      | some f =>
        exact ⟨_, _, _, _, .doneTapFails hwritten hdone, (Stages.run_bind_ok hof).trans
          ((Stages.run_bind_ok rfl).trans (Stages.run_bind_error hcall))⟩
      | none =>
        obtain rfl := hdone.called_eq
        exact ⟨_, _, _, _, .succeeds hwritten hdone, (Stages.run_bind_ok hof).trans
          ((Stages.run_bind_ok rfl).trans (Stages.run_bind_ok hcall))⟩

/-- the stages behind the `run` taps -/
theorem exists_ran_of_called {s₁ : ω} (hrun : Called c.hooks.run s c.hooks.run none s₁) :
    ∃ calls result reached s', Ran c h s calls result reached s' ∧
      (do
        let made ← h.through (buildCompilation c.options ModuleGraph.capacity)
        let _ ← Stages.of (Emission.emit h c.options.outputPath made.assets)
        Stages.transition .written
        c.callHook .done
        Stages.transition .done
        return made : Stages (StateM ω) Compilation).run.run .running s₁ =
          ((result, reached), s') := by
  cases hbuilt : h.ask (buildEntries c.options.settings ModuleGraph.capacity c.options.entries {}) s₁
    with
  | mk r s₂ =>
    have hthrough := h.run_through .running hbuilt
    obtain ⟨built, g⟩ := r
    cases built with
    | error e => exact ⟨_, _, _, _, .buildingFails hrun hbuilt, Stages.run_bind_error hthrough⟩
    | ok entries =>
      have hask := ask_compilation h hbuilt
      cases hassets : renderChunks c.options g.graph (Chunk.assemble g.graph entries) {} {} with
      | error e =>
        simp only [outcomeOf, reachedOf, compilationOf, hassets, Except.map] at hthrough
        exact ⟨_, _, _, _, .renderingFails hrun hbuilt hassets, Stages.run_bind_error hthrough⟩
      | ok assets =>
        simp only [outcomeOf, reachedOf, compilationOf, hassets, Except.map] at hthrough hask
        obtain ⟨calls, result, reached, s', hran, hrest⟩ := exists_ran_of_made ⟨s₁, hrun, hask⟩
        exact ⟨calls, result, reached, s', hran, (Stages.run_bind_ok hthrough).trans hrest⟩

/-- **The stages of a run end in one of six ways**, and the state tells in which. -/
theorem exists_ran : ∃ calls result reached s', Ran c h s calls result reached s' ∧
    (c.runStages h).run.run c.state s = ((result, reached), s') := by
  obtain ⟨called, failure, s₁, hrun⟩ := exists_called c.hooks.run s
  have hcall := run_callHook .run .running hrun
  cases failure with
  | some f =>
    exact ⟨_, _, _, _, .tapFails hrun,
      (Stages.run_bind_ok rfl).trans (Stages.run_bind_error hcall)⟩
  | none =>
    obtain rfl := hrun.called_eq
    obtain ⟨calls, result, reached, s', hran, hrest⟩ := exists_ran_of_called hrun
    exact ⟨calls, result, reached, s', hran,
      (Stages.run_bind_ok rfl).trans ((Stages.run_bind_ok hcall).trans hrest)⟩

/-! ## the law of runs -/

theorem done_not_mem_run (taps : List (Tap ω)) (t : Tap ω) :
    (Hook.done, t) ∉ taps.map (Hook.run, ·) := by
  intro hmem
  obtain ⟨u, -, he⟩ := List.mem_map.mp hmem
  cases he

theorem Made.unique {made made' : Compilation} {s₂ s₂' : ω} (hmade : Made c h s made s₂)
    (hmade' : Made c h s made' s₂') : made = made' ∧ s₂ = s₂' := by
  obtain ⟨s₁, hrun, hask⟩ := hmade
  obtain ⟨s₁', hrun', hask'⟩ := hmade'
  obtain ⟨-, -, rfl⟩ := hrun.unique hrun'
  obtain ⟨hok, hstate⟩ := Prod.mk.inj (hask.symm.trans hask')
  exact ⟨Except.ok.inj hok, hstate⟩

theorem Written.unique {made made' : Compilation} {s₃ s₃' : ω} (hwritten : Written c h s made s₃)
    (hwritten' : Written c h s made' s₃') : made = made' ∧ s₃ = s₃' := by
  obtain ⟨_, hmade, paths, hemit⟩ := hwritten
  obtain ⟨_, hmade', paths', hemit'⟩ := hwritten'
  obtain ⟨rfl, rfl⟩ := hmade.unique hmade'
  exact ⟨rfl, (Prod.mk.inj (hemit.symm.trans hemit')).2⟩

/-- without a compilation a run has called `run` taps and asked questions only -/
theorem runLaw_of_not_made {called : List (Tap ω)} {failure : Option (Tap ω × String)} {s₁ s' : ω}
    {e : BuildError} (hrun : Called c.hooks.run s called failure s₁) (hasked : h.Asked s₁ s')
    (hfailure : ∀ t message, failure = some (t, message) →
      s' = s₁ ∧ e = .hook .run t.name message)
    (hnone : ¬ ∃ made s₂, Made c h s made s₂) :
    RunLaw c h s (called.map (.run, ·)) (.error e) s' where
  run_taps hrun' := by
    obtain ⟨rfl, rfl, rfl⟩ := hrun.unique hrun'
    refine ⟨⟨[], (List.append_nil _).symm, by simp⟩, fun t message hf => ?_⟩
    obtain ⟨hstate, he⟩ := hfailure t message hf
    exact ⟨rfl, hstate, congrArg Except.error he⟩
  only_asked _ := ⟨called, failure, s₁, hrun, rfl, hasked, e, rfl⟩
  writing_fails hmade := absurd ⟨_, _, hmade⟩ hnone
  done_taps hwritten := by
    obtain ⟨s₂, hmade, -⟩ := hwritten
    exact absurd ⟨_, s₂, hmade⟩ hnone
  no_done_taps _ := ⟨done_not_mem_run called, e, rfl⟩

theorem runLaw_of_ask {s₁ s₂ : ω} {e : BuildError}
    (hrun : Called c.hooks.run s c.hooks.run none s₁)
    (hask : h.ask (compilation c.options ModuleGraph.capacity) s₁ = (.error e, s₂)) :
    RunLaw c h s (c.hooks.run.map (.run, ·)) (.error e) s₂ := by
  have hasked := h.asked_ask (compilation c.options ModuleGraph.capacity) s₁
  rw [hask] at hasked
  refine runLaw_of_not_made hrun hasked (fun t message hf => by cases hf) ?_
  rintro ⟨made, s₂', s₁', hrun', hask'⟩
  obtain ⟨-, -, rfl⟩ := hrun.unique hrun'
  cases hask.symm.trans hask'

/-- what is written is followed by the `done` taps -/
theorem runLaw_of_written {made : Compilation} {s₃ s₄ : ω} {called : List (Tap ω)}
    {failure : Option (Tap ω × String)} (hwritten : Written c h s made s₃)
    (hdone : Called c.hooks.done s₃ called failure s₄) :
    RunLaw c h s (c.hooks.run.map (.run, ·) ++ called.map (.done, ·))
      (failure.elim (.ok made) fun f => .error (.hook .done f.1.name f.2)) s₄ where
  run_taps hrun' := by
    obtain ⟨s₂, ⟨s₁, hrun, -⟩, -⟩ := hwritten
    obtain ⟨rfl, rfl, rfl⟩ := hrun.unique hrun'
    refine ⟨⟨_, rfl, fun call hcall => ?_⟩, fun t message hf => by cases hf⟩
    obtain ⟨t, -, rfl⟩ := List.mem_map.mp hcall
    rfl
  only_asked hnone := by
    obtain ⟨s₂, hmade, -⟩ := hwritten
    exact absurd ⟨_, s₂, hmade⟩ hnone
  writing_fails hmade' hemit' := by
    obtain ⟨s₂, hmade, paths, hemit⟩ := hwritten
    obtain ⟨rfl, rfl⟩ := hmade.unique hmade'
    cases hemit.symm.trans hemit'
  done_taps hwritten' := by
    obtain ⟨rfl, rfl⟩ := hwritten.unique hwritten'
    exact ⟨called, failure, hdone, rfl, rfl⟩
  no_done_taps hnone := absurd ⟨_, _, hwritten⟩ hnone

/-- **Every run keeps to the law.** -/
theorem Ran.law {calls : List (HookCall ω)} {result : Outcome} {reached : BuildState} {s' : ω}
    (hran : Ran c h s calls result reached s') : RunLaw c h s calls result s' := by
  cases hran with
  | tapFails hrun =>
    refine runLaw_of_not_made hrun .refl (fun u message hf => ?_) ?_
    · cases hf
      exact ⟨rfl, rfl⟩
    · rintro ⟨made, s₂, s₁, hrun', -⟩
      cases (hrun.unique hrun').2.1
  | buildingFails hrun hbuilt => exact runLaw_of_ask hrun (ask_compilation h hbuilt)
  | renderingFails hrun hbuilt hrender =>
    have hask := ask_compilation h hbuilt
    simp only [outcomeOf, compilationOf, hrender, Except.map] at hask
    exact runLaw_of_ask hrun hask
  | @writingFails s₂ _ made _ hmade hemit =>
    refine
      { run_taps := fun hrun' => ?_
        only_asked := fun hnone => absurd ⟨_, _, hmade⟩ hnone
        writing_fails := fun hmade' hemit' => ?_
        done_taps := fun hwritten => ?_
        no_done_taps := fun _ => ⟨done_not_mem_run _, _, rfl⟩ }
    · obtain ⟨s₁, hrun, -⟩ := hmade
      obtain ⟨rfl, rfl, rfl⟩ := hrun.unique hrun'
      exact ⟨⟨[], (List.append_nil _).symm, by simp⟩, fun t message hf => by cases hf⟩
    · obtain ⟨rfl, rfl⟩ := hmade.unique hmade'
      cases hemit.symm.trans hemit'
      exact ⟨rfl, rfl, rfl⟩
    · obtain ⟨_, hmade', paths, hemit'⟩ := hwritten
      obtain ⟨rfl, rfl⟩ := hmade.unique hmade'
      cases hemit.symm.trans hemit'
  | doneTapFails hwritten hdone => exact runLaw_of_written hwritten hdone
  | succeeds hwritten hdone => exact runLaw_of_written hwritten hdone

/-- a run that fails has not come to `done`, and one that succeeds has -/
theorem Ran.after_eq {calls : List (HookCall ω)} {result : Outcome} {reached : BuildState} {s' : ω}
    (hran : Ran c h s calls result reached s') :
    BuildState.after reached result = .after .done result := by
  cases hran <;> rfl

/-! ## steps -/

theorem perform_run (h : Host (StateM ω)) (w : World ω) : ∃ calls result w',
    Operation.run.perform h w = (some result, w') ∧
      RunLaw w.compiler h w.state calls result w'.state ∧
      w'.compiler = { w.compiler with state := .after .done result } := by
  obtain ⟨calls, result, reached, s', hran, hstages⟩ :=
    @exists_ran ω w.compiler h w.state
  have hrun : w.compiler.runOn h w.state =
      ((result, { w.compiler with state := .after .done result }), s') := by
    rw [runOn, go_eq hstages, hran.after_eq]
  refine ⟨calls, result, ⟨_, s'⟩, ?_, hran.law, rfl⟩
  simp only [Operation.perform, hrun]

/-- compiling goes on without the hooks -/
theorem perform_compile (h : Host (StateM ω)) (w : World ω) : ∃ result w',
    Operation.compile.perform h w = (some result, w') ∧ h.Asked w.state w'.state ∧
      w'.compiler = { w.compiler with state := .after .rendered result } ∧
      ∀ hooks, Operation.compile.perform h { w with compiler.hooks := hooks } =
        (some result, { w' with compiler.hooks := hooks }) := by
  have hasked := h.asked_ask (compilation w.compiler.options ModuleGraph.capacity) w.state
  cases hmade : h.ask (compilation w.compiler.options ModuleGraph.capacity) w.state with
  | mk result s' =>
    rw [hmade] at hasked
    refine ⟨result, ⟨{ w.compiler with state := .after .rendered result }, s'⟩, ?_, hasked, rfl,
      fun hooks => ?_⟩
    · simp only [Operation.perform, compile_of_ask hmade]
    · have hcompile := compile_of_ask (c := { w.compiler with hooks := hooks }) hmade
      simp only [Operation.perform, hcompile]

/-- what an operation does to the hooks and the options -/
theorem perform_hooks (h : Host (StateM ω)) (w : World ω) (op : Operation ω) (hook : Hook) :
    (op.perform h w).2.compiler.hooks.taps hook =
        w.compiler.hooks.taps hook ++ (op.tapped? hook).toList ∧
      (op.perform h w).2.compiler.options = w.compiler.options := by
  cases op with
  | tap tapped t =>
    refine ⟨?_, rfl⟩
    show (w.compiler.hooks.tap tapped t).taps hook = _
    cases tapped <;> cases hook <;> simp [Hooks.tap, Hooks.taps, Operation.tapped?]
  | run =>
    obtain ⟨calls, result, w', hperform, -, hcompiler⟩ := perform_run h w
    rw [hperform, hcompiler]
    exact ⟨(List.append_nil _).symm, rfl⟩
  | compile =>
    obtain ⟨result, w', hperform, -, hcompiler, -⟩ := perform_compile h w
    rw [hperform, hcompiler]
    exact ⟨(List.append_nil _).symm, rfl⟩

/-- the taps of a hook are those of the beginning and all that were tapped since, in order -/
theorem hooks_worldAfter (h : Host (StateM ω)) (w : World ω) (ops : List (Operation ω))
    (hook : Hook) :
    (worldAfter h w ops).compiler.hooks.taps hook =
        w.compiler.hooks.taps hook ++ ops.filterMap (Operation.tapped? hook) ∧
      (worldAfter h w ops).compiler.options = w.compiler.options := by
  induction ops generalizing w with
  | nil => exact ⟨(List.append_nil _).symm, rfl⟩
  | cons op ops ih =>
    obtain ⟨htaps, hoptions⟩ := ih (op.perform h w).2
    obtain ⟨hstep, hsame⟩ := perform_hooks h w op hook
    refine ⟨?_, hoptions.trans hsame⟩
    show (worldAfter h (op.perform h w).2 ops).compiler.hooks.taps hook = _
    rw [htaps, hstep, List.append_assoc]
    cases htap : op.tapped? hook <;> simp [htap]

theorem after_eq_iff {success : BuildState} (hsuccess : success ≠ .failed) (result : Outcome) :
    (BuildState.after success result = success ↔ ∃ made, result = .ok made) ∧
      (BuildState.after success result = .failed ↔ ∃ e, result = .error e) := by
  cases result with
  | ok made => simp [BuildState.after, hsuccess]
  | error e => simp [BuildState.after, Ne.symm hsuccess]

/-- **The life of a compiler.**  The callbacks may do anything to the host, its files included.  After
any operations the taps of a hook are those that were tapped, in order.  Whatever was done before, a run
then keeps to its law; compiling does the same whatever is tapped, and only asks about files.  So where
questions change nothing, neither does compiling, and a run that makes no compilation leaves the host as
its `run` taps do.  The state is `done` exactly after a run that succeeds, `rendered` exactly after
compiling that succeeds, and `failed` exactly after a failure of either. -/
theorem lifecycle (h : Host (StateM ω)) (w₀ : World ω) (ops : List (Operation ω)) :
    let w := worldAfter h w₀ ops
    (∀ hook, w.compiler.hooks.taps hook =
        w₀.compiler.hooks.taps hook ++ ops.filterMap (Operation.tapped? hook)) ∧
      w.compiler.options = w₀.compiler.options ∧
      (∃ calls result w', Operation.run.perform h w = (some result, w') ∧
        RunLaw w.compiler h w.state calls result w'.state ∧
        (h.IsStill → (¬ ∃ made s₂, Made w.compiler h w.state made s₂) →
          ∃ called failure, Called w.compiler.hooks.run w.state called failure w'.state) ∧
        (w'.compiler.state = .done ↔ ∃ made, result = .ok made) ∧
        (w'.compiler.state = .failed ↔ ∃ e, result = .error e)) ∧
      (∃ result w', Operation.compile.perform h w = (some result, w') ∧
        (∀ hooks, Operation.compile.perform h { w with compiler.hooks := hooks } =
          (some result, { w' with compiler.hooks := hooks })) ∧
        h.Asked w.state w'.state ∧ (h.IsStill → w'.state = w.state) ∧
        (w'.compiler.state = .rendered ↔ ∃ made, result = .ok made) ∧
        (w'.compiler.state = .failed ↔ ∃ e, result = .error e)) := by
  intro w
  refine ⟨fun hook => (hooks_worldAfter h w₀ ops hook).1, (hooks_worldAfter h w₀ ops .run).2,
    ?_, ?_⟩
  · obtain ⟨calls, result, w', hperform, hlaw, hcompiler⟩ := perform_run h w
    refine ⟨calls, result, w', hperform, hlaw, fun hstill hnone => ?_, ?_⟩
    · obtain ⟨called, failure, s₁, hrun, -, hasked, -⟩ := hlaw.only_asked hnone
      exact ⟨called, failure, hasked.eq_of_isStill hstill ▸ hrun⟩
    · rw [hcompiler]
      exact after_eq_iff (by decide) result
  · obtain ⟨result, w', hperform, hasked, hcompiler, hhooks⟩ := perform_compile h w
    refine ⟨result, w', hperform, hhooks, hasked, hasked.eq_of_isStill, ?_⟩
    rw [hcompiler]
    exact after_eq_iff (by decide) result

end Bindle.Compiler
