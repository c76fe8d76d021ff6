import Bindle.Compiler.Basic
import Bindle.Proofs.Compiler.Compilation

/-!
# Stages, one after the other

Stages go on from the state that the stages before them have come to, and end where one of them fails
(`Stages.run_bind_ok`, `Stages.run_bind_error`).  A compiler that goes through stages is left in the
state that they have come to, or in that of a failure (`Compiler.go_eq`).

`BuildState.after` is the state that a result is to leave behind; after compiling it is (`compile_of_ask`).
-/

namespace Bindle

/-- the state that a result is to leave behind -/
def BuildState.after {ε α : Type} (success : BuildState) : Except ε α → BuildState
  | .ok _ => success
  | .error _ => .failed

/-! ## stages on a host with a state -/

namespace Stages

variable {ω α β : Type} {x : Stages (StateM ω) α} {f : α → Stages (StateM ω) β}
  {b b' : BuildState} {s s' : ω}

theorem run_bind_ok {a : α} (h : x.run.run b s = ((.ok a, b'), s')) :
    (x >>= f).run.run b s = (f a).run.run b' s' :=
  state_bind h fun r => ExceptT.bindCont f r.1 r.2

theorem run_bind_error {e : BuildError} (h : x.run.run b s = ((.error e, b'), s')) :
    (x >>= f).run.run b s = ((.error e, b'), s') :=
  state_bind h fun r => ExceptT.bindCont f r.1 r.2

theorem run_of {action : StateM ω (Except BuildError α)} {result : Except BuildError α}
    (h : action s = (result, s')) : (of action).run.run b s = ((result, b), s') := by
  exact state_bind h _

theorem run_orFailed {result : Except BuildError α} (h : x.run.run b s = ((result, b'), s')) :
    x.orFailed.run.run b s = ((result, .after b' result), s') := by
  unfold orFailed
  rw [ExceptT.run_mk, StateT.run_bind]
  refine (state_bind h _).trans ?_
  cases result <;> rfl

end Stages

variable {σ α : Type} {o : Options σ} {limit : Nat}

theorem reachedOf_of_ok {b : BuildState} {made : Compilation}
    {r : Except BuildError (List (String × ModuleId)) × Growth} (h : outcomeOf o r = .ok made) :
    reachedOf o b r = .rendered := by
  obtain ⟨result, g⟩ := r
  cases result with
  | error e => cases h
  | ok built =>
    have hmade : compilationOf o built g = .ok made := h
    rw [reachedOf, hmade]

/-- a host that is asked through the stages up to the assets -/
theorem Host.run_through (h : Host (StateM α)) (b : BuildState) {a a₁ : α}
    {r : Except BuildError (List (String × ModuleId)) × Growth}
    (hbuilt : h.ask (buildEntries o.settings limit o.entries {}) a = (r, a₁)) :
    (h.through (buildCompilation o limit)).run.run b a =
      ((outcomeOf o r, reachedOf o b r), a₁) := by
  show h.ask ((buildCompilation o limit).run.run b) a = _
  rw [buildCompilation_eq, h.ask_bind, hbuilt]
  rfl

theorem Host.exists_through (h : Host (StateM α)) (b : BuildState) {a a₁ : α}
    {result : Except BuildError Compilation}
    (hmade : h.ask (compilation o limit) a = (result, a₁)) :
    ∃ reached, (h.through (buildCompilation o limit)).run.run b a = ((result, reached), a₁) ∧
      ∀ made, result = .ok made → reached = .rendered := by
  cases hbuilt : h.ask (buildEntries o.settings limit o.entries {}) a with
  | mk r a' =>
    obtain ⟨rfl, rfl⟩ := Prod.mk.inj ((ask_compilation h hbuilt).symm.trans hmade)
    exact ⟨reachedOf o b r, h.run_through b hbuilt, fun made => reachedOf_of_ok⟩

namespace Compiler

variable {c : Compiler σ}

theorem go_eq {β : Type} {x : Stages (StateM α) β} {result : Except BuildError β} {b : BuildState}
    {a a₁ : α} (h : x.run.run c.state a = ((result, b), a₁)) :
    c.go x a = ((result, { c with state := .after b result }), a₁) := by
  unfold go
  rw [state_bind (Stages.run_orFailed h)]
  rfl

/-- compiling is asking -/
theorem compile_of_ask {h : Host (StateM α)} {a a₁ : α} {result : Except BuildError Compilation}
    (hask : h.ask (compilation c.options ModuleGraph.capacity) a = (result, a₁)) :
    c.compile h a = ((result, { c with state := .after .rendered result }), a₁) := by
  obtain ⟨reached, hthrough, hreached⟩ := h.exists_through .running hask
  have hstages : (c.compileStages h).run.run c.state a = ((result, reached), a₁) :=
    (Stages.run_bind_ok rfl).trans hthrough
  rw [compile, go_eq hstages]
  cases result with
  | error e => rfl
  | ok made => rw [hreached made rfl]

/-- with files in memory, compiling leaves them as they are -/
theorem compile_memory {parser : Parser} (c : Compiler σ) (m : Memory)
    {result : Except BuildError Compilation}
    (h : (compilation c.options ModuleGraph.capacity).result (m.answer parser) = result) :
    c.compile (Memory.host parser) m =
      ((result, { c with state := .after .rendered result }), m) :=
  compile_of_ask (Memory.ask_of_result h)

theorem result_of_compile {parser : Parser} {c₁ : Compiler σ} {m m' : Memory}
    {result : Except BuildError Compilation}
    (h : c.compile (Memory.host parser) m = ((result, c₁), m')) :
    (compilation c.options ModuleGraph.capacity).result (m.answer parser) = result := by
  rw [compile_memory c m rfl] at h
  exact congrArg (·.1.1) h

end Compiler

/-! ## stages beside a further state -/

section

variable {σ α : Type}

theorem state_bind_lift {β γ : Type} {first : StateT σ (StateM α) β} {s s' : σ} {a a' : α} {b : β}
    (h : first s a = ((b, s'), a')) (next : β → StateT σ (StateM α) γ) :
    (first >>= next) s a = next b s' a' := state_bind h fun r => next r.1 r.2

theorem Host.ask_lift {β : Type} (h : Host (StateM α)) (d : Dialogue β) (s : σ) (a : α) :
    (h.lift σ).ask d s a = (((h.ask d a).1, s), (h.ask d a).2) := by
  induction d generalizing a with
  | done b => rfl
  | ask q next ih => cases q <;> exact ih _ _

namespace Emission

theorem performOne_lift (h : Host (StateM α)) (deed : Deed) (s : σ) (a : α) :
    performOne (h.lift σ) deed s a =
      (((performOne h deed a).1, s), (performOne h deed a).2) := by
  cases deed <;> rfl

theorem perform_lift (h : Host (StateM α)) (deeds : List Deed) (s : σ) (a : α) :
    perform (h.lift σ) deeds s a = (((perform h deeds a).1, s), (perform h deeds a).2) := by
  induction deeds generalizing a with
  | nil => rfl
  | cons deed rest ih =>
    have hone := performOne_lift h deed s a
    cases hresult : performOne h deed a with
    | mk result a' =>
      rw [hresult] at hone
      unfold perform
      rw [state_bind hresult]
      rw [state_bind_lift hone]
      cases result with
      | error e => rfl
      | ok _ => exact ih a'

theorem emit_lift (h : Host (StateM α)) (output : Path) (assets : Table String) (s : σ) (a : α) :
    emit (h.lift σ) output assets s a =
      (((emit h output assets a).1, s), (emit h output assets a).2) := by
  have hdone := perform_lift h (plan output assets) s a
  cases hresult : perform h (plan output assets) a with
  | mk result a' =>
    rw [hresult] at hdone
    unfold emit
    rw [state_bind hresult]
    rw [state_bind_lift hdone]
    cases result <;> rfl

end Emission

namespace Stages

variable {β γ : Type} {x : Stages (StateT σ (StateM α)) β} {f : β → Stages (StateT σ (StateM α)) γ}
  {b b' : BuildState} {s s' : σ} {a a' : α}

theorem run_lift_bind_ok {v : β} (h : x.run.run b s a = (((.ok v, b'), s'), a')) :
    (x >>= f).run.run b s a = (f v).run.run b' s' a' :=
  state_bind_lift h fun r => ExceptT.bindCont f r.1 r.2

theorem run_lift_bind_error {e : BuildError} (h : x.run.run b s a = (((.error e, b'), s'), a')) :
    (x >>= f).run.run b s a = (((.error e, b'), s'), a') :=
  state_bind_lift h fun r => ExceptT.bindCont f r.1 r.2

end Stages

namespace Compiler

variable {c : Compiler σ} {h : Host (StateM α)} {s s' : σ} {a a' : α}

theorem run_eq {result : Except BuildError Compilation} {b : BuildState}
    (hstages : (c.runStages (h.lift σ)).run.run c.state s a = (((result, b), s'), a')) :
    c.run h s a = ((result, { c with state := .after b result }, s'), a') := by
  have hfailed : (c.runStages (h.lift σ)).orFailed.run.run c.state s a =
      (((result, .after b result), s'), a') := by
    unfold Stages.orFailed
    rw [ExceptT.run_mk, StateT.run_bind]
    refine (state_bind_lift hstages _).trans ?_
    cases result <;> rfl
  have hgo : c.runOn (h.lift σ) s a = (((result, { c with state := .after b result }), s'), a') :=
    state_bind_lift hfailed _
  exact state_bind hgo _

theorem callHook_lift {hook : Hook} {result : Except BuildError Unit} (b : BuildState)
    (hcall : c.hooks.call hook s = (result, s')) :
    (c.callHook (m := StateT σ (StateM α)) hook).run.run b s a = (((result, b), s'), a) := by
  show ((((c.hooks.call hook s).1, b), (c.hooks.call hook s).2), a) = _
  rw [hcall]

theorem through_lift {result : Except BuildError Compilation} (b : BuildState) (s : σ)
    (hmade : h.ask (compilation c.options ModuleGraph.capacity) a = (result, a')) :
    ∃ reached, ((h.lift σ).through (buildCompilation c.options ModuleGraph.capacity)).run.run b s a =
      (((result, reached), s), a') := by
  obtain ⟨reached, hreached, -⟩ := h.exists_through b hmade
  refine ⟨reached, ?_⟩
  have hasked : h.ask ((buildCompilation c.options ModuleGraph.capacity).run.run b) a =
      ((result, reached), a') := hreached
  have hlift := h.ask_lift ((buildCompilation c.options ModuleGraph.capacity).run.run b) s a
  rw [hasked] at hlift
  exact hlift

theorem emit_of_lift {made : Compilation} {result : Except BuildError (List Path)} (b : BuildState)
    (s : σ) (hemit : Emission.emit h c.options.outputPath made.assets a = (result, a')) :
    (Stages.of (Emission.emit (h.lift σ) c.options.outputPath made.assets)).run.run b s a =
      (((result, b), s), a') := by
  have hlift := Emission.emit_lift h c.options.outputPath made.assets s a
  rw [hemit] at hlift
  exact state_bind_lift hlift _

section

variable {s₁ s₂ : σ} {a₁ a₂ : α} {e : BuildError} {made : Compilation}

/-- a run that a `run` tap ends -/
theorem run_of_taps (hrun : c.hooks.call .run s = (.error e, s₁)) :
    c.run h s a = ((.error e, { c with state := .failed }, s₁), a) :=
  run_eq ((Stages.run_lift_bind_ok rfl).trans
    (Stages.run_lift_bind_error (callHook_lift .running hrun)))

variable (hrun : c.hooks.call .run s = (.ok (), s₁))

include hrun

/-- a run that ends before anything is written -/
theorem run_of_compilation
    (hmade : h.ask (compilation c.options ModuleGraph.capacity) a = (.error e, a₁)) :
    c.run h s a = ((.error e, { c with state := .failed }, s₁), a₁) := by
  obtain ⟨reached, hthrough⟩ := through_lift .running s₁ hmade
  exact run_eq ((Stages.run_lift_bind_ok rfl).trans
    ((Stages.run_lift_bind_ok (callHook_lift .running hrun)).trans
      (Stages.run_lift_bind_error hthrough)))

variable (hmade : h.ask (compilation c.options ModuleGraph.capacity) a = (.ok made, a₁))

include hmade

/-- a run that gets as far as writing -/
theorem run_of_emission
    (hemit : Emission.emit h c.options.outputPath made.assets a₁ = (.error e, a₂)) :
    c.run h s a = ((.error e, { c with state := .failed }, s₁), a₂) := by
  obtain ⟨reached, hthrough⟩ := through_lift .running s₁ hmade
  exact run_eq ((Stages.run_lift_bind_ok rfl).trans
    ((Stages.run_lift_bind_ok (callHook_lift .running hrun)).trans
      ((Stages.run_lift_bind_ok hthrough).trans
        (Stages.run_lift_bind_error (emit_of_lift reached s₁ hemit)))))

/-- a run that gets as far as the `done` taps -/
theorem run_of_done {paths : List Path}
    (hemit : Emission.emit h c.options.outputPath made.assets a₁ = (.ok paths, a₂))
    {result : Except BuildError Unit} (hdone : c.hooks.call .done s₁ = (result, s₂)) :
    c.run h s a = ((result.map fun _ => made,
      { c with state := .after .done result }, s₂), a₂) := by
  obtain ⟨reached, hthrough⟩ := through_lift .running s₁ hmade
  have hwritten : (c.runStages (h.lift σ)).run.run c.state s a =
      (do
        c.callHook .done
        Stages.transition .done
        return made : Stages (StateT σ (StateM α)) Compilation).run.run .written s₁ a₂ :=
    (Stages.run_lift_bind_ok rfl).trans ((Stages.run_lift_bind_ok (callHook_lift .running hrun)).trans
      ((Stages.run_lift_bind_ok hthrough).trans
        ((Stages.run_lift_bind_ok (emit_of_lift reached s₁ hemit)).trans
          (Stages.run_lift_bind_ok rfl))))
  cases result with
  | error e =>
    exact run_eq (hwritten.trans (Stages.run_lift_bind_error (callHook_lift .written hdone)))
  | ok _ =>
    exact run_eq (hwritten.trans (Stages.run_lift_bind_ok (callHook_lift .written hdone)))

end

end Compiler

end

end Bindle
