import Bindle.Proofs.Compiler.Compilation
import Bindle.Proofs.Compiler.Lifecycle
import Bindle.Proofs.Emission.Effect

/-!
# Where assets end up

The file names of a compilation are told apart as texts, and files in memory by the keys of their
paths.  Two names that are read as one path, or as paths with one key, share a file: the name that
comes last in the order of texts has it in the end.

* `Done.readText_plan`     what is read back under the name of an asset;
* `readText_outputPath`    what a run that succeeds leaves under the names of its assets;
* `not_every_asset_kept`   two assets in one file.
-/

namespace Bindle

/-! ## what is read back -/

theorem Memory.readText_eq_ok_iff {m : Memory} {p : Path} {text : String} :
    m.readText p = .ok text ↔ m.files.get? (key p) = some (.text text) := by
  unfold readText read
  cases hget : m.files.get? (key p) with
  | none =>
    refine iff_of_false (fun h => ?_) (fun h => ?_)
    · cases h
    · cases h
  | some content =>
    cases content with
    | text t =>
      show Except.ok t = Except.ok text ↔ _
      rw [Except.ok.injEq, Option.some.injEq, Content.text.injEq]
    | binary bytes =>
      refine iff_of_false (fun h => ?_) (fun h => ?_)
      · cases h
      · cases h

section

variable {m m' : Memory} {output : Path} {assets : Table String}

theorem Done.readText_plan (h : Done (Emission.plan output assets) m m') {filename code : String}
    (hasset : (filename, code) ∈ assets.entries) :
    ∃ last ∈ assets.entries, Emission.keyOf output last.1 = Emission.keyOf output filename ∧
      (∀ e ∈ assets.entries, Emission.keyOf output e.1 = Emission.keyOf output filename →
        e.1 ≤ last.1) ∧
      m'.readText (output.join filename) = .ok last.2 := by
  rcases Emission.get?_stored m.files assets.entries (Emission.keyOf output filename) with
    ⟨last, hlast, hget⟩ | ⟨hnone, -⟩
  · rw [← h.files_plan] at hget
    exact ⟨last, hlast.mem, hlast.1, hlast.le assets.sorted, Memory.readText_eq_ok_iff.mpr hget⟩
  · exact (hnone _ hasset rfl).elim

/-- all assets are read back exactly when those that share a key are equal -/
theorem Done.readText_plan_iff (h : Done (Emission.plan output assets) m m') :
    (∀ e ∈ assets.entries, m'.readText (output.join e.1) = .ok e.2) ↔
      ∀ e ∈ assets.entries, ∀ e' ∈ assets.entries,
        Emission.keyOf output e.1 = Emission.keyOf output e'.1 → e.2 = e'.2 := by
  constructor
  · intro hread e he e' he' hkey
    have hfile : m'.files.get? (Emission.keyOf output e.1) = some (.text e.2) :=
      Memory.readText_eq_ok_iff.mp (hread e he)
    have hfile' : m'.files.get? (Emission.keyOf output e'.1) = some (.text e'.2) :=
      Memory.readText_eq_ok_iff.mp (hread e' he')
    rw [hkey, hfile'] at hfile
    exact (Content.text.inj (Option.some.inj hfile)).symm
  · intro hsame e he
    obtain ⟨last, hlast, hkey, -, hread⟩ := h.readText_plan he
    rw [hread, hsame last hlast e he hkey]

end

/-! ## runs -/

namespace Compiler

variable {σ : Type} {c c' : Compiler σ} {parser : Parser} {s s' : σ} {m m' : Memory}
  {made : Compilation}

/-- a run that succeeds has compiled and has written everything -/
theorem done_of_run (h : c.run (Memory.host parser) s m = ((.ok made, c', s'), m')) :
    (compilation c.options ModuleGraph.capacity).result (m.answer parser) = .ok made ∧
      Done (Emission.plan c.options.outputPath made.assets) m m' := by
  rcases run_cases h with ⟨_, _, he, -⟩ | ⟨made', he, hdone⟩
  · cases he
  · cases he
    exact hdone

/-- **What is left of the assets.**  No two chunks of a run have one file name, but names can share
a key.  What is read back under a name is the asset with the last name among those with its key; so
every asset is kept exactly when assets that share a key are equal. -/
theorem readText_outputPath (h : c.run (Memory.host parser) s m = ((.ok made, c', s'), m')) :
    (made.chunks.map (fun chunk => c.options.filenameFor chunk.name)).Nodup ∧
      (∀ e ∈ made.assets.entries, ∃ last ∈ made.assets.entries,
        Memory.key (c.options.outputPath.join last.1) =
            Memory.key (c.options.outputPath.join e.1) ∧
          (∀ e' ∈ made.assets.entries,
            Memory.key (c.options.outputPath.join e'.1) =
              Memory.key (c.options.outputPath.join e.1) → e'.1 ≤ last.1) ∧
          m'.readText (c.options.outputPath.join e.1) = .ok last.2) ∧
      ((∀ e ∈ made.assets.entries, m'.readText (c.options.outputPath.join e.1) = .ok e.2) ↔
        ∀ e ∈ made.assets.entries, ∀ e' ∈ made.assets.entries,
          Memory.key (c.options.outputPath.join e.1) =
            Memory.key (c.options.outputPath.join e'.1) → e.2 = e'.2) := by
  obtain ⟨hmade, hdone⟩ := done_of_run h
  obtain ⟨built, g, -, hcompiled⟩ := compiled_of_compilation (Dialogue.endsIn_known.mpr hmade)
  refine ⟨hcompiled.nodup_filenames, fun e he => hdone.readText_plan he, hdone.readText_plan_iff⟩

def twoFiles : Memory := .ofList [(⟨"/p/a.js"⟩, .text "1;"), (⟨"/p/b.js"⟩, .text "2;")]

/-- the second name has a slash more -/
def slashed : Compiler Unit :=
  .ofOptions ((((Options.new ⟨"/p"⟩).entry "a" "./a").entry "a/" "./b").output "dist" "[name]")

/-- both assets are written to one file -/
theorem run_slashed : ∃ made c' s' m',
    slashed.run (Memory.host Script.parser) () twoFiles = ((.ok made, c', s'), m') ∧
      made.assets.keys = ["a", "a/"] ∧ made.assets.get? "a" ≠ made.assets.get? "a/" := by
  have hr : ((slashed.run (Memory.host Script.parser) () twoFiles).1.1.map (fun made =>
        (made.assets.keys, decide (made.assets.get? "a" = made.assets.get? "a/")))) =
      .ok (["a", "a/"], false) := by
    decide +kernel
  generalize slashed.run (Memory.host Script.parser) () twoFiles = r at hr ⊢
  obtain ⟨⟨result, c', s'⟩, m'⟩ := r
  cases result with
  | error e => cases hr
  | ok made =>
    obtain ⟨hkeys, hdiffer⟩ := Prod.mk.inj (Except.ok.inj hr)
    exact ⟨made, c', s', m', rfl, hkeys, of_decide_eq_false hdiffer⟩

theorem key_slashed : Memory.key (slashed.options.outputPath.join "a/") =
    Memory.key (slashed.options.outputPath.join "a") := by
  decide +kernel

theorem readText_slashed : ∃ made c' s' m' code,
    slashed.run (Memory.host Script.parser) () twoFiles = ((.ok made, c', s'), m') ∧
      made.assets.get? "a/" = some code ∧ made.assets.get? "a" ≠ some code ∧
      m'.readText (slashed.options.outputPath.join "a") = .ok code := by
  obtain ⟨made, c', s', m', hrun, hkeys, hdiffer⟩ := run_slashed
  have hmem : ∀ f ∈ ["a", "a/"], ∃ code, (f, code) ∈ made.assets.entries := by
    intro f hf
    rw [← hkeys] at hf
    obtain ⟨⟨_, code⟩, he, rfl⟩ := List.mem_map.mp hf
    exact ⟨code, he⟩
  obtain ⟨old, hold⟩ := hmem "a" (by decide)
  obtain ⟨new, hnew⟩ := hmem "a/" (by decide)
  obtain ⟨-, hread, -⟩ := readText_outputPath hrun
  obtain ⟨⟨f, code⟩, hlast, -, hmost, hcode⟩ := hread _ hold
  have hf : f ∈ ["a", "a/"] := hkeys ▸ List.mem_map_of_mem hlast
  have hle : "a/" ≤ f := hmost _ hnew key_slashed
  obtain rfl : f = "a/" := by
    rcases List.mem_cons.mp hf with rfl | hf
    · exact absurd hle (by decide)
    · exact List.mem_singleton.mp hf
  have hcode' : made.assets.get? "a/" = some code :=
    (Table.lookup_eq_some_iff made.assets.sorted).mpr hlast
  exact ⟨made, c', s', m', code, hrun, hcode', fun h => hdiffer (h.trans hcode'.symm), hcode⟩

/-- **Two assets can end up in one file.** -/
theorem not_every_asset_kept : ¬ ∀ (c : Compiler Unit) (s : Unit) (m : Memory) (made : Compilation)
    (c' : Compiler Unit) (s' : Unit) (m' : Memory),
    c.run (Memory.host Script.parser) s m = ((.ok made, c', s'), m') →
      ∀ e ∈ made.assets.entries, m'.readText (c.options.outputPath.join e.1) = .ok e.2 := by
  intro h
  obtain ⟨made, c', s', m', hrun, hkeys, hdiffer⟩ := run_slashed
  have hfile : ∀ f ∈ ["a", "a/"], ∃ code, made.assets.get? f = some code ∧
      m'.files.get? (Memory.key (slashed.options.outputPath.join f)) = some (.text code) := by
    intro f hf
    rw [← hkeys] at hf
    obtain ⟨⟨_, code⟩, he, rfl⟩ := List.mem_map.mp hf
    exact ⟨code, (Table.lookup_eq_some_iff made.assets.sorted).mpr he,
      Memory.readText_eq_ok_iff.mp (h slashed () twoFiles made c' s' m' hrun _ he)⟩
  obtain ⟨old, hold, hfirst⟩ := hfile "a" (by decide)
  obtain ⟨new, hnew, hsecond⟩ := hfile "a/" (by decide)
  rw [key_slashed, hfirst] at hsecond
  have hsame : old = new := Content.text.inj (Option.some.inj hsecond)
  exact hdiffer (by rw [hold, hnew, hsame])

end Compiler

end Bindle
