import Bindle.Proofs.Build.Transcript
import Bindle.Proofs.Compiler.Compilation
import Bindle.Proofs.Compiler.Locality
import Bindle.Proofs.Graph.History

/-!
# Modules are processed once

A module is put into the graph before its dependencies are gone through, so whatever comes to it again
finds it there.

* `ModuleGraph.places`      the modules of a graph by id and path, in order;
* `Settings.Processes`      what a stretch of a transcript has to do with the graph before and after.

Main result: `processes_compile`.  Whatever the files answer, no id is read twice, and the parser gets
what the rules make of the files, in the order in which they were read.
-/

namespace Bindle

variable {s : Settings} {name : String} {limit : Nat}

/-! ## reading -/

/-- a file by the id of its module -/
def Settings.placed (s : Settings) (x : Path × Except FileError String) : ModuleId × Path :=
  (s.idOf x.1, x.1)

namespace ModuleGraph

variable {g : ModuleGraph}

def places (g : ModuleGraph) : List (ModuleId × Path) := g.modules.map fun m => (m.id, m.path)

theorem ids_eq_places : g.ids = g.places.map Prod.fst := by
  rw [places, List.map_map]
  rfl

theorem places_join (pending : List ModuleId) : (g.join name pending).places = g.places :=
  map_join (fun _ => rfl) pending

theorem places_insert {m : Module} (h : m.id ∉ g.ids) :
    (g.insert m).places = g.places ++ [(m.id, m.path)] := by
  rw [places, modules_insert h, List.map_append]
  rfl

end ModuleGraph

/-- the turns `t` lead from the graph `g` to `g'`; with `ok` they have gone well -/
structure Settings.Processes (s : Settings) (t : Transcript) (g g' : ModuleGraph) (ok : Prop) :
    Prop where
  nodup : ((texts t).map fun x => s.idOf x.1).Nodup
  /-- what is there is not read -/
  missing : ∀ x ∈ texts t, s.idOf x.1 ∉ g.ids
  sources_eq : sources t = (texts t).filterMap s.loaded
  /-- what is read becomes a module -/
  places_eq : ok → g'.places = g.places ++ (texts t).map s.placed
  loaded : ok → ∀ x ∈ texts t, (s.loaded x).isSome

namespace Settings.Processes

variable {t t' : Transcript} {g g₁ g' : ModuleGraph} {ok : Prop}

theorem of_quiet (h : t.Quiet) : s.Processes t g g ok := by
  refine ⟨?_, ?_, ?_, fun _ => ?_, fun _ => ?_⟩ <;> simp [h.texts_eq, h.sources_eq]

theorem trans (h : s.Processes t g g₁ True) (h' : s.Processes t' g₁ g' ok) :
    s.Processes (t ++ t') g g' ok := by
  have hplaces := h.places_eq trivial
  have hids : g₁.ids = g.ids ++ (texts t).map fun x => s.idOf x.1 := by
    rw [ModuleGraph.ids_eq_places, hplaces, List.map_append, ← ModuleGraph.ids_eq_places,
      List.map_map]
    rfl
  constructor
  · rw [texts_append, List.map_append]
    refine List.nodup_append.mpr ⟨h.nodup, h'.nodup, fun a ha b hb he => ?_⟩
    obtain ⟨x, hx, rfl⟩ := List.mem_map.mp hb
    exact h'.missing x hx (hids ▸ List.mem_append_right _ (he ▸ ha))
  · rw [texts_append]
    refine List.forall_mem_append.mpr ⟨h.missing, fun x hx hid => h'.missing x hx ?_⟩
    exact hids ▸ List.mem_append_left _ hid
  · rw [sources_append, texts_append, List.filterMap_append, h.sources_eq, h'.sources_eq]
  · intro hok
    rw [h'.places_eq hok, hplaces, texts_append, List.map_append, List.append_assoc]
  · intro hok
    rw [texts_append]
    exact List.forall_mem_append.mpr ⟨h.loaded trivial, h'.loaded hok⟩

theorem mono {ok' : Prop} (h : s.Processes t g g' ok) (hok : ok' → ok) : s.Processes t g g' ok' :=
  ⟨h.nodup, h.missing, h.sources_eq, fun h' => h.places_eq (hok h'), fun h' => h.loaded (hok h')⟩

/-- when it has gone well, every file that was read has its source -/
theorem map_some_sources (h : s.Processes t g g' ok) (hok : ok) :
    (sources t).map some = (texts t).map s.loaded := by
  have hall := h.loaded hok
  rw [h.sources_eq]
  generalize texts t = xs at hall ⊢
  induction xs with
  | nil => rfl
  | cons x xs ih =>
    obtain ⟨hx, hxs⟩ := List.forall_mem_cons.mp hall
    obtain ⟨source, hsource⟩ := Option.isSome_iff_exists.mp hx
    rw [List.filterMap_cons_some hsource, List.map_cons, List.map_cons, ih hxs, hsource]

/-- joining a chunk reads nothing -/
theorem of_join {pending : List ModuleId} (h : s.Processes t (g.join name pending) g' ok) :
    s.Processes t g g' ok :=
  ⟨h.nodup, fun x hx => ModuleGraph.ids_join (g := g) pending ▸ h.missing x hx, h.sources_eq,
    fun hok => ModuleGraph.places_join (g := g) pending ▸ h.places_eq hok, h.loaded⟩

/-- one file -/
theorem of_analyse (name : String) {p : Path} {a : Analysis} (ha : (s.analyse p).Goes t a)
    (hid : s.idOf p ∉ g.ids)
    (hg : ok → ∃ found, a.outcome = .ok found ∧ g' = g.insert (s.moduleOf name p found)) :
    s.Processes t g g' ok := by
  obtain ⟨answer, htexts, hsources, hloaded⟩ := exists_of_goes_analyse ha
  constructor
  · rw [htexts]
    exact List.nodup_singleton _
  · rw [htexts]
    exact List.forall_mem_singleton.mpr hid
  · rw [htexts, hsources]
    cases h : s.loaded (p, answer) <;> simp [h]
  · intro hok
    obtain ⟨found, -, rfl⟩ := hg hok
    rw [htexts]
    exact ModuleGraph.places_insert hid
  · intro hok
    obtain ⟨found, hfound, -⟩ := hg hok
    rw [htexts]
    exact List.forall_mem_singleton.mpr (hloaded found hfound)

end Settings.Processes

theorem processes_of_walk {unknown : Path → List Path → Growth → Dialogue Grown}
    (hunknown : ∀ p rest g t r, s.idOf p ∉ g.graph.ids → (unknown p rest g).Goes t r →
      s.Processes t g.graph r.2.graph (r.1 = none))
    {paths : List Path} {g : Growth} {t : Transcript} {r : Grown}
    (h : (walk s name unknown paths g).Goes t r) :
    s.Processes t g.graph r.2.graph (r.1 = none) := by
  induction paths generalizing g with
  | nil =>
    obtain ⟨rfl, rfl⟩ := Dialogue.goes_done.mp h
    exact .of_quiet .nil
  | cons p rest ih =>
    unfold walk at h
    split at h
    · exact (ih h).of_join
    · rename_i hc
      exact hunknown p rest g t r (fun hid => hc (ModuleGraph.contains_iff.mpr hid)) h

theorem processes_of_grow {room : Nat} {paths : List Path} {g : Growth} {t : Transcript} {r : Grown}
    (h : (grow s name limit room paths g).Goes t r) :
    s.Processes t g.graph r.2.graph (r.1 = none) := by
  induction room generalizing paths g t r with
  | zero =>
    refine processes_of_walk (fun p rest g t r _ hend => ?_) h
    obtain ⟨rfl, rfl⟩ := Dialogue.goes_done.mp hend
    exact .of_quiet .nil
  | succ room ih =>
    refine processes_of_walk (fun p rest g t r hid hexpand => ?_) h
    obtain ⟨t₁, t₂, a, rfl, ha, hnext⟩ := Dialogue.goes_bind.mp hexpand
    cases ho : a.outcome with
    | error e =>
      simp only [ho] at hnext
      obtain ⟨rfl, rfl⟩ := Dialogue.goes_done.mp hnext
      rw [List.append_nil]
      exact .of_analyse name ha hid fun hok => by cases hok
    | ok found =>
      simp only [ho] at hnext
      have hfile : s.Processes t₁ g.graph (g.graph.insert (s.moduleOf name p found)) True :=
        .of_analyse name ha hid fun _ => ⟨found, ho, rfl⟩
      exact hfile.trans (ih hnext)

theorem processes_of_buildEntry {specifier : String} {g : Growth} {t : Transcript}
    {r : Except BuildError ModuleId × Growth}
    (h : (buildEntry s limit name specifier g).Goes t r) :
    s.Processes t g.graph r.2.graph (∃ id, r.1 = .ok id) := by
  obtain ⟨t₁, t₂, resolved, rfl, hresolved, hnext⟩ := Dialogue.goes_bind.mp h
  refine Settings.Processes.trans (.of_quiet (quiet_of_resolve hresolved)) ?_
  cases resolved with
  | error e =>
    obtain ⟨rfl, rfl⟩ := Dialogue.goes_done.mp hnext
    exact .of_quiet .nil
  | ok p =>
    obtain ⟨t₃, t₄, ⟨failure, g₁⟩, rfl, hgrow, hend⟩ := Dialogue.goes_bind.mp hnext
    have hprocesses := processes_of_grow hgrow
    cases failure with
    | none =>
      obtain ⟨rfl, rfl⟩ := Dialogue.goes_done.mp hend
      rw [List.append_nil]
      exact hprocesses.mono fun _ => rfl
    | some e =>
      obtain ⟨rfl, rfl⟩ := Dialogue.goes_done.mp hend
      rw [List.append_nil]
      exact hprocesses.mono fun ⟨_, hok⟩ => by cases hok

theorem processes_of_buildEntries {entries : List (String × String)} {g : Growth} {t : Transcript}
    {r : Except BuildError (List (String × ModuleId)) × Growth}
    (h : (buildEntries s limit entries g).Goes t r) :
    s.Processes t g.graph r.2.graph (∃ built, r.1 = .ok built) := by
  induction entries generalizing g t r with
  | nil =>
    obtain ⟨rfl, rfl⟩ := Dialogue.goes_done.mp h
    exact .of_quiet .nil
  | cons e entries ih =>
    obtain ⟨t₁, t₂, ⟨first, g₁⟩, rfl, hfirst, hnext⟩ := Dialogue.goes_bind.mp h
    have hprocesses := processes_of_buildEntry hfirst
    cases first with
    | error e =>
      obtain ⟨rfl, rfl⟩ := Dialogue.goes_done.mp hnext
      rw [List.append_nil]
      exact hprocesses.mono fun ⟨_, hok⟩ => by cases hok
    | ok id =>
      refine (hprocesses.mono fun _ => ⟨id, rfl⟩).trans ?_
      obtain ⟨t₃, t₄, ⟨others, g₂⟩, rfl, hothers, hend⟩ := Dialogue.goes_bind.mp hnext
      have hrest := ih hothers
      cases others with
      | error e =>
        obtain ⟨rfl, rfl⟩ := Dialogue.goes_done.mp hend
        rw [List.append_nil]
        exact hrest.mono fun ⟨_, hok⟩ => by cases hok
      | ok built =>
        obtain ⟨rfl, rfl⟩ := Dialogue.goes_done.mp hend
        rw [List.append_nil]
        exact hrest.mono fun _ => ⟨built, rfl⟩

/-! ## compilations -/

namespace Compiler

variable {σ α : Type}

/-- what a compilation asks is what building its entries asks -/
theorem exists_compile_traced (c : Compiler σ) (h : Host (StateM α)) {start s' : α}
    {result : Except BuildError (List (String × ModuleId))} {g : Growth}
    (hbuilt : h.ask (buildEntries c.options.settings ModuleGraph.capacity c.options.entries {}) start =
      ((result, g), s')) :
    ∃ t made c₁, c.compile h start = ((made, c₁), s') ∧
      c.compile h.traced (start, []) = ((made, c₁), s', t) ∧
      (buildEntries c.options.settings ModuleGraph.capacity c.options.entries {}).Goes t (result, g) ∧
      ∀ built, result = .ok built → made = compilationOf c.options built g := by
  obtain ⟨t, htraced, hgoes⟩ := h.exists_ask_traced
    (buildEntries c.options.settings ModuleGraph.capacity c.options.entries {}) start []
  rw [hbuilt] at htraced hgoes
  refine ⟨t, _, _, compile_of_ask (ask_compilation h hbuilt),
    compile_of_ask (ask_compilation h.traced htraced), hgoes, fun built hok => ?_⟩
  rw [hok]
  rfl

/-- **Every module is processed once.**  Whatever the files answer, also when they change meanwhile, and
whether it goes well or not: no file is read whose id has been read before, so none passes the rules
twice, and what the parser gets is what the rules make of the files that were read, one source for each.
When the graph is made, the files that were read are those of its modules, in their order, each with a
source for the parser; and the files on record are those of the modules and of their dependencies. -/
theorem processes_compile (c : Compiler σ) (h : Host (StateM α)) (start : α) :
    let t : Transcript := (c.compile h.traced (start, [])).2.2
    let s := c.options.settings
    (c.compile h.traced (start, [])).1 = (c.compile h start).1 ∧
      ((texts t).map fun x => s.idOf x.1).Nodup ∧
      sources t = (texts t).filterMap s.loaded ∧
      ∀ built g s', h.ask (buildEntries s ModuleGraph.capacity c.options.entries {}) start =
          ((.ok built, g), s') →
        g.graph.places = (texts t).map s.placed ∧
          (sources t).map some = (texts t).map s.loaded ∧ g.Filed ∧
          ∀ made, (c.compile h start).1.1 = .ok made →
            made.graph = g.graph ∧ made.files = g.files := by
  intro t s
  cases hbuilt : h.ask (buildEntries s ModuleGraph.capacity c.options.entries {}) start with
  | mk r s' =>
    obtain ⟨result, g⟩ := r
    obtain ⟨t', made, c₁, hcompile, htraced, hgoes, hmade⟩ := exists_compile_traced c h hbuilt
    have ht : t = t' := congrArg (·.2.2) htraced
    have hprocesses := processes_of_buildEntries hgoes
    rw [ht]
    refine ⟨?_, hprocesses.nodup, hprocesses.sources_eq, ?_⟩
    · rw [htraced, hcompile]
    · rintro built g' s'' heq
      cases heq
      refine ⟨hprocesses.places_eq ⟨built, rfl⟩, hprocesses.map_some_sources ⟨built, rfl⟩,
        filed_of_buildEntries hgoes.canEndIn .empty, fun made' hmade' => ?_⟩
      rw [hcompile, hmade built rfl] at hmade'
      have hcompiled := compiled_of_compilationOf hmade'
      exact ⟨hcompiled.graph_eq, hcompiled.files_eq⟩

/-- two entries in a cycle, the second by another spelling -/
def ofSpelled : Compiler Unit :=
  .ofOptions (((Options.new ⟨"/p"⟩).entry "main" "./a").entry "alt" "../p/./b.js")

/-- each of the two files is read once, and parsed once -/
theorem processes_spelled : ∃ built g s' t,
    (ofSpelled.compile (Memory.host Script.parser).traced (cyclicFiles, [])).2.2 = t ∧
    (Memory.host Script.parser).ask (buildEntries ofSpelled.options.settings ModuleGraph.capacity
      ofSpelled.options.entries {}) cyclicFiles = ((.ok built, g), s') ∧
    g.graph.places = [(⟨"./a.js"⟩, ⟨"/p/a.js"⟩), (⟨"./b.js"⟩, ⟨"/p/b.js"⟩)] ∧
    sources t = ["require('./b');", "require('./a');"] ∧
    ((texts t).map fun x => ofSpelled.options.settings.idOf x.1).Nodup ∧
    (sources t).map some = (texts t).map ofSpelled.options.settings.loaded ∧ g.Filed := by
  have hr : ((buildEntries ofSpelled.options.settings ModuleGraph.capacity
      ofSpelled.options.entries {}).result (cyclicFiles.answer Script.parser)).map id
        (fun g => g.graph.places) =
      (.ok [("main", ⟨"./a.js"⟩), ("alt", ⟨"./b.js"⟩)],
        [(⟨"./a.js"⟩, ⟨"/p/a.js"⟩), (⟨"./b.js"⟩, ⟨"/p/b.js"⟩)]) := by
    decide +kernel
  have hsources : sources
      (ofSpelled.compile (Memory.host Script.parser).traced (cyclicFiles, [])).2.2 =
        ["require('./b');", "require('./a');"] := by
    decide +kernel
  cases hbuilt : (buildEntries ofSpelled.options.settings ModuleGraph.capacity
      ofSpelled.options.entries {}).result (cyclicFiles.answer Script.parser) with
  | mk result g =>
    rw [hbuilt] at hr
    obtain ⟨rfl, hplaces⟩ := Prod.mk.inj hr
    have hask := Memory.ask_host cyclicFiles Script.parser (buildEntries
      ofSpelled.options.settings ModuleGraph.capacity ofSpelled.options.entries {})
    rw [hbuilt] at hask
    obtain ⟨-, hnodup, -, hgraph⟩ :=
      processes_compile ofSpelled (Memory.host Script.parser) cyclicFiles
    obtain ⟨-, hloaded, hfiled, -⟩ := hgraph _ g cyclicFiles hask
    exact ⟨_, g, cyclicFiles, _, rfl, hask, hplaces, hsources, hnodup, hloaded, hfiled⟩

end Compiler

end Bindle
