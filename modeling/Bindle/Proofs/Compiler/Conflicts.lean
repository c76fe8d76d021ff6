import Bindle.Proofs.Compiler.Compilation
import Bindle.Proofs.Compiler.Locality
import Bindle.Proofs.Graph.ChunkNames
import Bindle.Proofs.Text.Replace

/-!
# File names that are given twice

A pattern with the token gives different names different files (`filenameFor_injective`), and one
without it gives all names the same file (`filenameFor_of_no_token`).  With entries that are built, a
compilation fails exactly on the first file name that is given twice
(`Compiler.compile_eq_conflict_iff`).
-/

namespace Bindle

variable {σ : Type} {o : Options σ}

/-! ## patterns -/

theorem filenameFor_injective (h : Config.nameToken.toList <:+: o.filename.toList) :
    Function.Injective o.filenameFor := by
  intro name name' hsame
  have hlists : Text.replaceAll Config.nameToken.toList name.toList o.filename.toList =
      Text.replaceAll Config.nameToken.toList name'.toList o.filename.toList :=
    String.ofList_injective hsame
  exact String.toList_inj.mp (Text.replaceAll_injective (by decide) h hlists)

theorem filenameFor_of_no_token (h : ¬ Config.nameToken.toList <:+: o.filename.toList)
    (name : String) : o.filenameFor name = o.filename := by
  unfold Options.filenameFor Config.filenameFor
  rw [Text.replaceAll_of_not_infix (by decide) h, String.ofList_toList]

/-- without the token the first two names collide -/
theorem Options.collides_of_no_token (h : ¬ Config.nameToken.toList <:+: o.filename.toList)
    {first second : String} {others : List String} :
    o.Collides (first :: second :: others) o.filename first second :=
  ⟨[first], others, rfl, List.nodup_singleton _, List.mem_singleton_self _,
    filenameFor_of_no_token h _, filenameFor_of_no_token h _⟩

/-- **File names are given once, and otherwise the first conflict is reported.** -/
theorem Compiler.compile_eq_conflict_iff {α : Type} {c : Compiler σ} {h : Host (StateM α)}
    {s s' : α} {built : List (String × ModuleId)} {g : Growth}
    (hbuilt : h.ask (buildEntries c.options.settings ModuleGraph.capacity c.options.entries {}) s =
      ((.ok built, g), s')) :
    let chunks := Chunk.assemble g.graph built
    let result := (c.compile h s).1.1
    chunks.map Chunk.name = c.options.entries.map Prod.fst ∧
    (∀ filename first second, result = .error (.assetConflict filename first second) ↔
      c.options.Collides (chunks.map Chunk.name) filename first second) ∧
    ((∃ filename first second, result = .error (.assetConflict filename first second)) ↔
      ∃ a b, [a, b].Sublist chunks ∧
        c.options.filenameFor a.name = c.options.filenameFor b.name) ∧
    ((∃ made, result = .ok made) ↔
      (chunks.map fun chunk => c.options.filenameFor chunk.name).Nodup) ∧
    ((c.options.entries.map Prod.fst).Nodup →
      Config.nameToken.toList <:+: c.options.filename.toList →
        (chunks.map fun chunk => c.options.filenameFor chunk.name).Nodup ∧
          ∃ made, result = .ok made) ∧
    (¬ Config.nameToken.toList <:+: c.options.filename.toList →
      ∀ a b others, c.options.entries = a :: b :: others →
        result = .error (.assetConflict c.options.filename a.1 b.1)) := by
  intro chunks result
  have hresult : result = compilationOf c.options built g := by
    show (c.compile h s).1.1 = _
    rw [compile_of_ask (ask_compilation h hbuilt)]
    rfl
  have hend : (buildEntries c.options.settings ModuleGraph.capacity c.options.entries {}).CanEndIn
      (.ok built, g) := by
    have hasked := h.canEndIn_ask
      (buildEntries c.options.settings ModuleGraph.capacity c.options.entries {}) s
    rwa [hbuilt] at hasked
  have hbegun : chunks.map Chunk.name = built.map Prod.fst := names_assemble g.graph built
  have hnames : chunks.map Chunk.name = c.options.entries.map Prod.fst :=
    hbegun.trans (names_of_buildEntries hend)
  have hfiles : (chunks.map Chunk.name).map c.options.filenameFor =
      chunks.map fun chunk => c.options.filenameFor chunk.name := List.map_map
  have hconflict : ∀ filename first second,
      result = .error (.assetConflict filename first second) ↔
        c.options.Collides (chunks.map Chunk.name) filename first second := by
    intro filename first second
    rw [hresult, hbegun]
    exact compilationOf_eq_conflict_iff
  have hmade : (∃ made, result = .ok made) ↔
      (chunks.map fun chunk => c.options.filenameFor chunk.name).Nodup := by
    rw [hresult, ← hfiles, hbegun]
    exact exists_compilationOf_iff
  refine ⟨hnames, hconflict, ?_, hmade, fun hnodup htoken => ?_, fun htoken a b others heq => ?_⟩
  · simp only [hconflict]
    rw [Options.exists_collides_iff, hfiles, List.Nodup, List.pairwise_map,
      List.pairwise_iff_forall_sublist]
    push Not
    rfl
  · have hdistinct : (chunks.map fun chunk => c.options.filenameFor chunk.name).Nodup := by
      rw [← hfiles, hnames]
      exact hnodup.map (filenameFor_injective htoken)
    exact ⟨hdistinct, hmade.mpr hdistinct⟩
  · rw [hconflict, hnames, heq]
    exact Options.collides_of_no_token htoken

/-- two entries, the first with the token for a name -/
def Compiler.named (filename : String) : Compiler Unit :=
  .ofOptions ((((Options.new ⟨"/p"⟩).entry "[name]" "./a").entry "a" "./b").output "dist" filename)

/-- with two tokens there is no conflict, and with none there is one -/
theorem Compiler.compile_named : ∃ built g,
    (∀ filename, (Memory.host Script.parser).ask (buildEntries (named filename).options.settings
      ModuleGraph.capacity (named filename).options.entries {}) cyclicFiles =
        ((.ok built, g), cyclicFiles)) ∧
    (∃ made, ((named "[name].[name]").compile (Memory.host Script.parser) cyclicFiles).1.1 =
      .ok made) ∧
    ((named "all.js").compile (Memory.host Script.parser) cyclicFiles).1.1 =
      .error (.assetConflict "all.js" "[name]" "a") := by
  have hr : ((buildEntries (named "").options.settings ModuleGraph.capacity
      (named "").options.entries {}).result (cyclicFiles.answer Script.parser)).1 =
        .ok [("[name]", ⟨"./a.js"⟩), ("a", ⟨"./b.js"⟩)] := by
    decide +kernel
  cases hresult : (buildEntries (named "").options.settings ModuleGraph.capacity
      (named "").options.entries {}).result (cyclicFiles.answer Script.parser) with
  | mk result g =>
    rw [hresult] at hr
    obtain rfl : result = _ := hr
    -- the graph does not depend on the file name
    have hbuilt : ∀ filename, (Memory.host Script.parser).ask (buildEntries
        (named filename).options.settings ModuleGraph.capacity
        (named filename).options.entries {}) cyclicFiles =
          ((.ok [("[name]", ⟨"./a.js"⟩), ("a", ⟨"./b.js"⟩)], g), cyclicFiles) := fun _ =>
      (Memory.ask_host cyclicFiles Script.parser _).trans (congrArg (·, cyclicFiles) hresult)
    obtain ⟨-, -, -, -, hdistinct, -⟩ := compile_eq_conflict_iff (hbuilt "[name].[name]")
    obtain ⟨-, -, -, -, -, hconflict⟩ := compile_eq_conflict_iff (hbuilt "all.js")
    exact ⟨_, g, hbuilt, (hdistinct (by decide +kernel) (by decide +kernel)).2,
      hconflict (by decide +kernel) _ _ _ rfl⟩

end Bindle
