import Bindle.Proofs.Compiler.Compilation
import Bindle.Proofs.Graph.Closure
import Bindle.Proofs.Script.Literal
import Bindle.Proofs.Script.Render

/-!
# Every call finds its module

* `Bundle.registry c g`      the wrappers of a bundle, each with its key and its body;
* `Bundle.Serves c g id`     the bundle has one wrapper for `id`, with the text of that module;
* `Settings.Paired`          the tree that a module was made from, and what became of its calls.

A chunk has all that its modules depend on, so whatever a call in a bundle was rewritten to is served
by that bundle: `registry_compilation`.
-/

namespace Bindle

open Script (Literal.decode Literal.quote)

/-! ## wrappers -/

namespace Bundle

variable {c : Chunk} {g : ModuleGraph}

def registry (c : Chunk) (g : ModuleGraph) : List (String × String) :=
  (modulesOf c g).map (fun m => (key m.id, body m.source))

/-- a key with its body, as they are written -/
def entryText (w : String × String) : String :=
  "    " ++ w.1 ++ ": (module, exports, require) => \x7b\n" ++ w.2 ++ "    \x7d,\n"

theorem text_eq : text c g = opening ++ String.join ((registry c g).map entryText) ++
    requireFunction ++ start c g ++ closing := by
  rw [registry, List.map_map]
  rfl

/-- a key stands for its id -/
theorem decode_key (id : ModuleId) : Literal.decode (key id).toList = id.text :=
  Script.Literal.decode_quoted id.text

theorem map_decode_registry : (registry c g).map (fun w => Literal.decode w.1.toList) =
    (modulesOf c g).map (fun m => m.id.text) := by
  rw [registry, List.map_map]
  exact List.map_congr_left (fun m _ => decode_key m.id)

/-- no module of a chunk is left out -/
theorem modulesOf_ofEntry (g : ModuleGraph) (name : String) (entry : ModuleId) :
    modulesOf (Chunk.ofEntry g name entry) g = g.modules.filter (·.inChunk name) := by
  have hfind : ∀ m ∈ g.modules.filter (·.inChunk name), (g.find? ∘ Module.id) m = some m :=
    fun m hm => ModuleGraph.find?_eq_some_iff.mpr ⟨(List.mem_filter.mp hm).1, rfl⟩
  show ((g.modules.filter (·.inChunk name)).map Module.id).filterMap g.find? = _
  rw [List.filterMap_map, List.filterMap_congr hfind]
  exact List.filterMap_some

theorem ids_ofEntry (g : ModuleGraph) (name : String) (entry : ModuleId) :
    (Chunk.ofEntry g name entry).ids =
      (modulesOf (Chunk.ofEntry g name entry) g).map Module.id := by
  rw [modulesOf_ofEntry]
  rfl

/-- the bundle has one wrapper for the module `id`, with the text of that module -/
structure Serves (c : Chunk) (g : ModuleGraph) (id : ModuleId) : Prop where
  mem_ids : id ∈ c.ids
  wrapper : ∃ m, g.find? id = some m ∧
    (registry c g).filter (fun w => Literal.decode w.1.toList = id.text) = [(key id, body m.source)]

end Bundle

/-! ## members of a chunk -/

theorem Chunk.mem_ids_ofEntry {g : ModuleGraph} {name : String} {entry a : ModuleId} :
    a ∈ (Chunk.ofEntry g name entry).ids ↔ g.IsIn name a := by
  constructor
  · intro h
    obtain ⟨m, hm, rfl⟩ := List.mem_map.mp h
    rw [List.mem_filter, Module.inChunk_iff] at hm
    exact ⟨m, hm.1, rfl, hm.2⟩
  · rintro ⟨m, hm, rfl, hin⟩
    exact List.mem_map_of_mem (List.mem_filter.mpr ⟨hm, Module.inChunk_iff.mpr hin⟩)

theorem Chunk.nodup_ids_ofEntry (g : ModuleGraph) (name : String) (entry : ModuleId) :
    (Chunk.ofEntry g name entry).ids.Nodup :=
  (List.filter_sublist.map Module.id).nodup g.distinct

/-- an id belongs to one module at most -/
theorem filter_id_eq {modules : List Module} (h : (modules.map Module.id).Nodup) {m : Module}
    (hm : m ∈ modules) : modules.filter (·.id = m.id) = [m] := by
  induction modules with
  | nil => exact absurd hm List.not_mem_nil
  | cons m' rest ih =>
    obtain ⟨hout, hrest⟩ := List.nodup_cons.mp h
    rcases List.mem_cons.mp hm with rfl | hm
    · have hnone : rest.filter (·.id = m.id) = [] := by
        refine List.filter_eq_nil_iff.mpr (fun x hx hid => hout ?_)
        rw [← of_decide_eq_true hid]
        exact List.mem_map_of_mem hx
      rw [List.filter_cons, if_pos (decide_eq_true rfl), hnone]
    · have hne : m'.id ≠ m.id := fun he => hout (he ▸ List.mem_map_of_mem hm)
      rw [List.filter_cons, if_neg (by simpa using hne), ih hrest hm]

/-- what is in a chunk is served by its bundle -/
theorem Bundle.serves_of_mem_ids {g : ModuleGraph} {name : String} {entry a : ModuleId}
    (h : a ∈ (Chunk.ofEntry g name entry).ids) :
    Bundle.Serves (Chunk.ofEntry g name entry) g a := by
  refine ⟨h, ?_⟩
  have hnodup := Chunk.nodup_ids_ofEntry g name entry
  rw [Bundle.ids_ofEntry] at h hnodup
  obtain ⟨m, hm, rfl⟩ := List.mem_map.mp h
  have hg : m ∈ g.modules := by
    rw [Bundle.modulesOf_ofEntry] at hm
    exact (List.mem_filter.mp hm).1
  refine ⟨m, ModuleGraph.find?_eq_some_iff.mpr ⟨hg, rfl⟩, ?_⟩
  have hkey : ∀ m' : Module, decide (Literal.decode (Bundle.key m'.id).toList = m.id.text) =
      decide (m'.id = m.id) := by
    intro m'
    rw [Bundle.decode_key]
    exact decide_eq_decide.mpr ⟨fun he => congrArg ModuleId.mk he, congrArg ModuleId.text⟩
  rw [Bundle.registry, List.filter_map]
  show ((Bundle.modulesOf _ g).filter (fun m' => decide (_ = m.id.text))).map _ = _
  rw [List.filter_congr (fun m' _ => hkey m'), filter_id_eq hnodup hm]
  rfl

/-! ## bundles of a settled graph -/

section

variable {g : ModuleGraph} {built : List (String × ModuleId)} {name : String} {entry : ModuleId}

/-- a bundle serves what its modules depend on -/
theorem Bundle.serves_of_dependency (h : Settled built g) {m : Module}
    (hm : m ∈ Bundle.modulesOf (Chunk.ofEntry g name entry) g) {d : Dependency}
    (hd : d ∈ m.dependencies) : Bundle.Serves (Chunk.ofEntry g name entry) g d.id := by
  rw [Bundle.modulesOf_ofEntry, List.mem_filter, Module.inChunk_iff] at hm
  have hdep : g.Depends m.id d.id := ⟨m, hm.1, rfl, List.mem_map_of_mem hd⟩
  have hin : g.IsIn name d.id := h.isIn_of_depends ⟨m, hm.1, rfl, hm.2⟩ hdep
  exact Bundle.serves_of_mem_ids (Chunk.mem_ids_ofEntry.mpr hin)

/-- a bundle ends with the text of its entry, which has a wrapper as well -/
theorem Bundle.exists_start (h : Settled built g) (hentry : (name, entry) ∈ built) :
    ∃ m ∈ Bundle.modulesOf (Chunk.ofEntry g name entry) g, m.id = entry ∧
      Bundle.start (Chunk.ofEntry g name entry) g = Bundle.body m.source := by
  obtain ⟨m, hm, rfl, hname⟩ := (h.isIn_iff (h.entered _ hentry)).mpr ⟨entry, hentry, .refl⟩
  have hfind : g.find? (Chunk.ofEntry g name m.id).entry = some m :=
    ModuleGraph.find?_eq_some_iff.mpr ⟨hm, rfl⟩
  refine ⟨m, ?_, rfl, ?_⟩
  · rw [Bundle.modulesOf_ofEntry]
    exact List.mem_filter.mpr ⟨hm, Module.inChunk_iff.mpr hname⟩
  · rw [Bundle.start, hfind]

end

/-! ## what a module was made from -/

variable {s : Settings} {fits : (q : Question) → q.Answer → Prop}

/-- the text of `m` was read, went through the rules and was parsed; `pairs` has each call that was
found with the dependency that it became -/
structure Settings.Paired (s : Settings) (fits : (q : Question) → q.Answer → Prop) (m : Module)
    (tree : SyntaxTree) (pairs : List (Script.Call × Dependency)) : Prop where
  parsed : ∃ raw source, fits (.text m.path) (.ok raw) ∧
    Rule.load s.rules m.id m.path raw = .ok source ∧ fits (.parse source) (.ok tree)
  calls_eq : pairs.map Prod.fst = tree.calls
  dependencies_eq : pairs.map Prod.snd = m.dependencies
  finds : ∀ f ∈ pairs, (s.site m.path).Finds fits f.1 f.2
  source_eq : m.source = tree.render (pairs.map (fun f => f.1.standFor f.2.id))

theorem Settings.Analysed.exists_paired {m : Module} (hid : m.id = s.idOf m.path)
    (h : s.Analysed fits m.path (m.dependencies, m.source)) :
    ∃ tree pairs, s.Paired fits m tree pairs := by
  obtain ⟨raw, source, tree, x, hraw, hload, hparse, hx, hok, hfound⟩ := h
  obtain ⟨hdeps, hsource⟩ := Prod.mk.inj hfound
  obtain ⟨pairs, hcalls, hpairs, hnew, hfinds⟩ := pairs_of_extract hx hok
  refine ⟨tree, pairs, ⟨raw, source, hraw, ?_, hparse⟩, hcalls, ?_, hfinds, ?_⟩
  · rw [hid]
    exact hload
  · rw [hpairs, hdeps]
  · rw [hnew, hsource]

/-- a literal that stands for a dependency is in the text of a script -/
theorem Script.exists_append_of_standFor {t : Script} {pairs : List (Script.Call × Dependency)}
    {f : Script.Call × Dependency} (hf : f ∈ pairs) (hlit : f.1.argument = .literal f.2.specifier) :
    ∃ before after, t.tree.render (pairs.map (fun f => f.1.standFor f.2.id)) =
      before ++ Literal.quote f.2.id.text ++ after := by
  obtain ⟨r, -, hsplice⟩ := Script.Call.splice?_standFor hlit f.2.id
  let t' : Script := { t with calls := pairs.map (fun f => f.1.standFor f.2.id) }
  have hmem : f.1.standFor f.2.id ∈ t'.calls := List.mem_map_of_mem hf
  exact Script.exists_append_render hmem hsplice

/-! ## bundles -/

variable {σ : Type} {o : Options σ} {limit : Nat}

/-- **Every call in a bundle finds its module there.**  All calls of the modules of a chunk were
literals; each was given the id of a dependency, and for this id the bundle has one wrapper, with the
text of the dependency.  The key of the wrapper and the literal of the call have the same value. -/
theorem registry_compilation {made : Compilation} {c : Chunk}
    (h : (compilation o limit).EndsIn fits (.ok made)) (hc : c ∈ made.chunks) :
    made.assets.get? (o.filenameFor c.name) = some (Bundle.opening ++
      String.join ((Bundle.registry c made.graph).map Bundle.entryText) ++
      Bundle.requireFunction ++ Bundle.start c made.graph ++ Bundle.closing) ∧
    (Bundle.registry c made.graph).map (fun w => Literal.decode w.1.toList) =
      c.ids.map ModuleId.text ∧
    (c.ids.map ModuleId.text).Nodup ∧
    (∃ m ∈ Bundle.modulesOf c made.graph, m.id = c.entry ∧
      Bundle.start c made.graph = Bundle.body m.source) ∧
    ∀ m ∈ Bundle.modulesOf c made.graph, ∃ tree pairs, o.settings.Paired fits m tree pairs ∧
      ∀ f ∈ pairs, f.1.argument = .literal f.2.specifier ∧
        (∃ r, f.1.range = some r ∧ (f.1.standFor f.2.id).splice? = some (r, f.2.id.text)) ∧
        (∀ t : Script, tree = t.tree →
          ∃ before after, m.source = before ++ Literal.quote f.2.id.text ++ after) ∧
        Literal.decode (Literal.quote f.2.id.text).toList = f.2.id.text ∧
        Bundle.Serves c made.graph f.2.id := by
  obtain ⟨built, g, hbuilt, hmade⟩ := compiled_of_compilation h
  have hsettled : Settled built made.graph := hmade.graph_eq ▸ settled_of_buildEntries hbuilt
  have hanalyses : o.settings.Analyses fits made.graph :=
    hmade.graph_eq ▸ analyses_of_buildEntries hbuilt
  have hasset := hmade.bundle hc
  rw [Bundle.text_eq] at hasset
  rw [hmade.chunks_eq] at hc
  obtain ⟨⟨name, entry⟩, hentry, rfl⟩ := List.mem_map.mp hc
  refine ⟨hasset, ?_, ?_, Bundle.exists_start hsettled hentry, fun m hm => ?_⟩
  · rw [Bundle.map_decode_registry, Bundle.ids_ofEntry, List.map_map]
    rfl
  · exact (Chunk.nodup_ids_ofEntry made.graph name entry).map (fun a b => congrArg ModuleId.mk)
  · have hm' := hm
    rw [Bundle.modulesOf_ofEntry] at hm'
    obtain ⟨hid, hanalysed⟩ := hanalyses m (List.mem_filter.mp hm').1
    obtain ⟨tree, pairs, hpaired⟩ := hanalysed.exists_paired hid
    refine ⟨tree, pairs, hpaired, fun f hf => ?_⟩
    have hlit := (hpaired.finds f hf).literal
    refine ⟨hlit, Script.Call.splice?_standFor hlit f.2.id, ?_, Script.Literal.decode_quote _, ?_⟩
    · rintro t rfl
      rw [hpaired.source_eq]
      exact Script.exists_append_of_standFor hf hlit
    · have hd : f.2 ∈ m.dependencies := hpaired.dependencies_eq ▸ List.mem_map_of_mem hf
      exact Bundle.serves_of_dependency hsettled hm hd

/-- a file with a quote in its name -/
def quotedFiles : Memory :=
  .ofList [(⟨"/p/main.js"⟩, .text "require('./a\"b');"), (⟨"/p/a\"b.js"⟩, .text "exports.x = 1;\n")]

def quoting : Options Unit := (Options.new ⟨"/p"⟩).entry "main" "./main"

/-- the quote is escaped in the key and in the call -/
theorem registry_quoting : ∃ made c,
    (compilation quoting ModuleGraph.capacity).EndsIn
      (Dialogue.Known (quotedFiles.answer Script.parser)) (.ok made) ∧ c ∈ made.chunks ∧
    Bundle.registry c made.graph = [("\"./main.js\"", "require(\"./a\\\"b.js\");\n"),
      ("\"./a\\\"b.js\"", "exports.x = 1;\n")] ∧
    ∀ m ∈ Bundle.modulesOf c made.graph, ∀ d ∈ m.dependencies,
      Bundle.Serves c made.graph d.id := by
  have hr : ((compilation quoting ModuleGraph.capacity).result
      (quotedFiles.answer Script.parser)).toOption.map
        (fun made => made.chunks.map (fun c => Bundle.registry c made.graph)) =
      some [[("\"./main.js\"", "require(\"./a\\\"b.js\");\n"),
        ("\"./a\\\"b.js\"", "exports.x = 1;\n")]] := by
    decide +kernel
  generalize quoting = o at hr ⊢
  generalize quotedFiles.answer Script.parser = answer at hr ⊢
  cases hmade : (compilation o ModuleGraph.capacity).result answer with
  | error e =>
    rw [hmade] at hr
    cases hr
  | ok made =>
    rw [hmade] at hr
    obtain ⟨c, hc, hregistry⟩ := List.map_eq_singleton_iff.mp (Option.some.inj hr)
    have hmem : c ∈ made.chunks := hc ▸ List.mem_cons_self
    have hend := Dialogue.endsIn_known.mpr hmade
    refine ⟨made, c, hend, hmem, hregistry, fun m hm d hd => ?_⟩
    obtain ⟨tree, pairs, hpaired, hserves⟩ := (registry_compilation hend hmem).2.2.2.2 m hm
    rw [← hpaired.dependencies_eq] at hd
    obtain ⟨f, hf, rfl⟩ := List.mem_map.mp hd
    exact (hserves f hf).2.2.2.2

end Bindle
