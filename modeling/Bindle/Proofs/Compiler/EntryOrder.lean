import Bindle.Proofs.Compiler.Compilation
import Bindle.Proofs.Compiler.Lifecycle
import Bindle.Proofs.Graph.Success

/-!
# The order of the entries

Entries that were built leave a graph that is closed: all its files can be analysed and depend on each
other only.  In such a graph other entries among its files are built too, and no other module comes of
them (`built_of_perm`).  So two orders of the same entries come to the same modules, which only stand
in another order, and to the same chunks (`compile_of_perm`).
-/

namespace Bindle

/-! ## compilations that differ in their order only -/

structure Module.SameUpToOrder (m m' : Module) : Prop where
  id_eq : m'.id = m.id
  path_eq : m'.path = m.path
  dependencies_eq : m'.dependencies = m.dependencies
  source_eq : m'.source = m.source
  chunkNames_perm : m'.chunkNames.Perm m.chunkNames

structure Chunk.SameUpToOrder (c c' : Chunk) : Prop where
  name_eq : c'.name = c.name
  entry_eq : c'.entry = c.entry
  ids_perm : c'.ids.Perm c.ids

/-- chunks have different names and modules have different ids, so what belongs together is one -/
structure Compilation.SameUpToOrder (made made' : Compilation) : Prop where
  ids_perm : made'.graph.ids.Perm made.graph.ids
  modules : ∀ m ∈ made.graph.modules, ∃ m' ∈ made'.graph.modules, m.SameUpToOrder m'
  names_perm : (made'.chunks.map Chunk.name).Perm (made.chunks.map Chunk.name)
  chunks : ∀ c ∈ made.chunks, ∃ c' ∈ made'.chunks, c.SameUpToOrder c'
  files : ∀ p, p ∈ made'.files ↔ p ∈ made.files

/-! ## known answers -/

section

variable {answer : (q : Question) → q.Answer}

theorem Dialogue.endsIn_known_unique {α : Type} {d : Dialogue α} {a b : α}
    (h : d.EndsIn (Known answer) a) (h' : d.EndsIn (Known answer) b) : a = b :=
  (endsIn_known.mp h).symm.trans (endsIn_known.mp h')

theorem Settings.Analysed.unique {s : Settings} {p : Path} {found found' : List Dependency × String}
    (h : s.Analysed (Dialogue.Known answer) p found)
    (h' : s.Analysed (Dialogue.Known answer) p found') : found = found' := by
  obtain ⟨a, ha, ho⟩ := h.exists_analyse
  obtain ⟨a', ha', ho'⟩ := h'.exists_analyse
  rw [Dialogue.endsIn_known_unique ha ha', ho'] at ho
  exact (Except.ok.inj ho).symm

end

/-! ## two ways to build -/

section

variable {s : Settings} {fits : (q : Question) → q.Answer → Prop} {limit : Nat}
  {entries entries' : List (String × String)} {built built' : List (String × ModuleId)}
  {g g' : Growth}

theorem mem_left_of_forall₂ {α β : Type} {R : α → β → Prop} {as : List α} {bs : List β}
    (h : List.Forall₂ R as bs) {a : α} (ha : a ∈ as) : ∃ b ∈ bs, R a b := by
  induction h with
  | nil => exact absurd ha List.not_mem_nil
  | cons hab _ ih =>
    rcases List.mem_cons.mp ha with rfl | ha
    · exact ⟨_, List.mem_cons_self, hab⟩
    · obtain ⟨b, hb, hr⟩ := ih ha
      exact ⟨b, List.mem_cons_of_mem _ hb, hr⟩

/-- modules with plain paths are known by their ids -/
theorem Settings.path_eq_of_id (hs : s.KeepsPlain) {p q : Path} (hp : p.IsPlain) (hq : q.IsPlain)
    (h : s.idOf p = s.idOf q) : p = q := hp.eq_of_id hs.root hq h

/-- the files of a graph -/
def ModuleGraph.IsFile (g : ModuleGraph) (p : Path) : Prop := ∃ m ∈ g.modules, m.path = p

section

variable (hs : s.KeepsPlain)
  (h : (buildEntries s limit entries {}).EndsIn fits (.ok built, g))

include hs h

/-- a plain path with the id of a module is that of the module -/
theorem isFile_of_id_mem {p : Path} (hp : p.IsPlain) (hid : s.idOf p ∈ g.graph.ids) :
    g.graph.IsFile p := by
  obtain ⟨m, hm, hm_id⟩ := ModuleGraph.mem_ids.mp hid
  have hpath := (hs.filedIn h).path hm
  exact ⟨m, hm, Settings.path_eq_of_id hs hpath hp
    ((analyses_of_buildEntries h m hm).1.symm.trans hm_id)⟩

/-- **A graph that was built is closed.** -/
theorem closed_of_buildEntries : s.Closed fits g.graph.IsFile g.graph.ids := by
  have hanalyses := analyses_of_buildEntries h
  constructor
  · rintro p ⟨m, hm, rfl⟩
    obtain ⟨-, hanalysed⟩ := hanalyses m hm
    refine ⟨_, hanalysed, fun d hd => ?_⟩
    refine isFile_of_id_mem hs h ((hs.filedIn h).dependency hm hd) ?_
    rw [← hanalysed.id_eq hd]
    exact (settled_of_buildEntries h).resolved m.id d.id ⟨m, hm, rfl, List.mem_map_of_mem hd⟩
  · rintro p ⟨m, hm, rfl⟩
    rw [← (hanalyses m hm).1]
    exact ModuleGraph.mem_ids.mpr ⟨m, hm, rfl⟩

theorem exists_file_of_mem {e : String × String} (he : e ∈ entries) :
    ∃ p, g.graph.IsFile p ∧ (resolve s.extensions s.root e.2 none).EndsIn fits (.ok p) := by
  obtain ⟨b, hb, -, p, hp, hid⟩ := mem_left_of_forall₂ (built_of_buildEntries h).entries he
  refine ⟨p, isFile_of_id_mem hs h (hs.resolved hs.root hp) ?_, hp⟩
  rw [← hid]
  exact (settled_of_buildEntries h).entered b hb

/-- **Entries in another order are built too, and no other module comes of them.** -/
theorem built_of_perm (hperm : entries'.Perm entries) : ∃ built' g',
    (buildEntries s limit entries' {}).EndsIn fits (.ok built', g') ∧
      g'.graph.ids ⊆ g.graph.ids := by
  have hsize : g.graph.ids.length ≤ limit := by
    rw [ModuleGraph.length_ids]
    exact size_le_of_buildEntries h (Nat.zero_le _)
  exact exists_buildEntries (closed_of_buildEntries hs h) hsize
    (fun e he => exists_file_of_mem hs h (hperm.mem_iff.mp he)) (List.nil_subset _)

end

/-! ## the same modules -/

section

variable {answer : (q : Question) → q.Answer} (hs : s.KeepsPlain)
  (h : (buildEntries s limit entries {}).EndsIn (Dialogue.Known answer) (.ok built, g))
  (h' : (buildEntries s limit entries' {}).EndsIn (Dialogue.Known answer) (.ok built', g'))
  (hperm : entries'.Perm entries)

include h h' hperm

/-- with known answers an entry stands for one module -/
theorem built_perm : built'.Perm built := by
  have hunique : Relator.RightUnique (fun (e : String × String) (b : String × ModuleId) =>
      b.1 = e.1 ∧ ∃ p, (resolve s.extensions s.root e.2 none).EndsIn (Dialogue.Known answer) (.ok p) ∧
        b.2 = s.idOf p) := by
    rintro e ⟨n, id⟩ ⟨n', id'⟩ ⟨hname, p, hp, hid⟩ ⟨hname', p', hp', hid'⟩
    obtain rfl : p = p' := Except.ok.inj (Dialogue.endsIn_known_unique hp hp')
    exact Prod.ext (hname.trans hname'.symm) (hid.trans hid'.symm)
  exact List.rel_perm_imp hunique (built_of_buildEntries h').entries
    (built_of_buildEntries h).entries hperm

include hs

theorem ids_subset_of_perm : g'.graph.ids ⊆ g.graph.ids := by
  obtain ⟨built₁, g₁, h₁, hids⟩ := built_of_perm hs h hperm
  obtain ⟨-, rfl⟩ := Prod.mk.inj (Dialogue.endsIn_known_unique h' h₁)
  exact hids

theorem ids_perm : g'.graph.ids.Perm g.graph.ids :=
  (List.perm_ext_iff_of_nodup g'.graph.distinct g.graph.distinct).mpr fun _ =>
    ⟨fun ha => ids_subset_of_perm hs h h' hperm ha,
      fun ha => ids_subset_of_perm hs h' h hperm.symm ha⟩

/-- a module comes of its file, whatever was built before it -/
theorem exists_same_module {m : Module} (hm : m ∈ g.graph.modules) :
    ∃ m' ∈ g'.graph.modules, m'.id = m.id ∧ m'.path = m.path ∧
      m'.dependencies = m.dependencies ∧ m'.source = m.source := by
  have hid : m.id ∈ g'.graph.ids :=
    (ids_perm hs h h' hperm).mem_iff.mpr (ModuleGraph.mem_ids.mpr ⟨m, hm, rfl⟩)
  obtain ⟨m', hm', hid'⟩ := ModuleGraph.mem_ids.mp hid
  obtain ⟨hidOf, hanalysed⟩ := analyses_of_buildEntries h m hm
  obtain ⟨hidOf', hanalysed'⟩ := analyses_of_buildEntries h' m' hm'
  have hpath : m'.path = m.path :=
    Settings.path_eq_of_id hs ((hs.filedIn h').path hm')
      ((hs.filedIn h).path hm) (hidOf'.symm.trans (hid'.trans hidOf))
  rw [hpath] at hanalysed'
  obtain ⟨hdeps, hsource⟩ := Prod.mk.inj (hanalysed'.unique hanalysed)
  exact ⟨m', hm', hid', hpath, hdeps, hsource⟩

theorem depends_of_perm {a b : ModuleId} (hab : g.graph.Depends a b) : g'.graph.Depends a b := by
  obtain ⟨m, hm, rfl, hb⟩ := hab
  obtain ⟨m', hm', hid, -, hdeps, -⟩ := exists_same_module hs h h' hperm hm
  refine ⟨m', hm', hid, ?_⟩
  rwa [Module.dependencyIds, hdeps]

theorem reaches_iff_of_perm {a b : ModuleId} : g'.graph.Reaches a b ↔ g.graph.Reaches a b :=
  ⟨Relation.ReflTransGen.mono (fun _ _ => depends_of_perm hs h' h hperm.symm) a b,
    Relation.ReflTransGen.mono (fun _ _ => depends_of_perm hs h h' hperm) a b⟩

theorem reached_iff_of_perm {n : String} {a : ModuleId} :
    (∃ id, (n, id) ∈ built' ∧ g'.graph.Reaches id a) ↔
      ∃ id, (n, id) ∈ built ∧ g.graph.Reaches id a := by
  have hbuilt := built_perm h h' hperm
  refine exists_congr fun id => and_congr hbuilt.mem_iff ?_
  exact reaches_iff_of_perm hs h h' hperm

theorem sameUpToOrder_module {m : Module} (hm : m ∈ g.graph.modules) :
    ∃ m' ∈ g'.graph.modules, m.SameUpToOrder m' := by
  obtain ⟨m', hm', hid, hpath, hdeps, hsource⟩ := exists_same_module hs h h' hperm hm
  refine ⟨m', hm', hid, hpath, hdeps, hsource, ?_⟩
  rw [(settled_of_buildEntries h').names m' hm', (settled_of_buildEntries h).names m hm, hid]
  refine (List.perm_ext_iff_of_nodup ModuleGraph.nodup_namesReaching
    ModuleGraph.nodup_namesReaching).mpr fun n => ?_
  rw [ModuleGraph.mem_namesReaching, ModuleGraph.mem_namesReaching]
  exact reached_iff_of_perm hs h h' hperm

theorem ids_ofEntry_perm (n : String) (entry : ModuleId) :
    (Chunk.ofEntry g'.graph n entry).ids.Perm (Chunk.ofEntry g.graph n entry).ids := by
  have hsub : ∀ g : ModuleGraph, (Chunk.ofEntry g n entry).ids.Sublist g.ids := fun g =>
    List.filter_sublist.map Module.id
  refine (List.perm_ext_iff_of_nodup ((hsub _).nodup g'.graph.distinct)
    ((hsub _).nodup g.graph.distinct)).mpr fun a => ?_
  by_cases ha : a ∈ g.graph.ids
  · obtain ⟨m, hm, rfl⟩ := ModuleGraph.mem_ids.mp ha
    obtain ⟨m', hm', hid, -⟩ := exists_same_module hs h h' hperm hm
    rw [(settled_of_buildEntries h).mem_ids_ofEntry hm, ← hid,
      (settled_of_buildEntries h').mem_ids_ofEntry hm', hid]
    exact reached_iff_of_perm hs h h' hperm
  · exact iff_of_false (fun hc => ha (ids_subset_of_perm hs h h' hperm ((hsub _).subset hc)))
      fun hc => ha ((hsub _).subset hc)

theorem mem_files_of_perm {p : Path} (hp : p ∈ g.files) : p ∈ g'.files := by
  obtain ⟨m, hm, hmem⟩ := ((hs.filedIn h).mem_files p).mp hp
  obtain ⟨m', hm', -, hpath, hdeps, -⟩ := exists_same_module hs h h' hperm hm
  refine ((hs.filedIn h').mem_files p).mpr ⟨m', hm', ?_⟩
  rwa [Module.files, hpath, hdeps]

end

end

/-! ## compilations -/

variable {σ : Type} {o : Options σ} {limit : Nat} {answer : (q : Question) → q.Answer}
  {entries' : List (String × String)} {made : Compilation}

/-- file names that are different in one order of the chunks are so in any order -/
theorem exists_compilationOf {built built' : List (String × ModuleId)} {g g' : Growth}
    (hmade : Compiled o built g made) (hbuilt : built'.Perm built) :
    ∃ made', compilationOf { o with entries := entries' } built' g' = .ok made' := by
  have hnodup : ((built.map Prod.fst).map o.filenameFor).Nodup := by
    rw [← names_assemble made.graph, ← hmade.chunks_eq, List.map_map]
    exact hmade.nodup_filenames
  exact exists_compilationOf_iff.mpr (((hbuilt.map _).map _).nodup_iff.mpr hnodup)

theorem sameUpToOrder_of_compiled {built built' : List (String × ModuleId)} {g g' : Growth}
    {made' : Compilation} (hs : o.settings.KeepsPlain) (hperm : entries'.Perm o.entries)
    (h : (buildEntries o.settings limit o.entries {}).EndsIn (Dialogue.Known answer) (.ok built, g))
    (h' : (buildEntries o.settings limit entries' {}).EndsIn (Dialogue.Known answer)
      (.ok built', g'))
    (hmade : Compiled o built g made)
    (hmade' : Compiled { o with entries := entries' } built' g' made') :
    made.SameUpToOrder made' := by
  have hbuilt := built_perm h h' hperm
  constructor
  · rw [hmade.graph_eq, hmade'.graph_eq]
    exact ids_perm hs h h' hperm
  · rw [hmade.graph_eq, hmade'.graph_eq]
    exact fun m hm => sameUpToOrder_module hs h h' hperm hm
  · rw [hmade.chunks_eq, hmade'.chunks_eq, names_assemble, names_assemble]
    exact hbuilt.map Prod.fst
  · rw [hmade.chunks_eq, hmade'.chunks_eq, hmade.graph_eq, hmade'.graph_eq]
    intro c hc
    obtain ⟨⟨n, entry⟩, hmem, rfl⟩ := List.mem_map.mp hc
    exact ⟨_, List.mem_map_of_mem (hbuilt.mem_iff.mpr hmem), rfl, rfl,
      ids_ofEntry_perm hs h h' hperm n entry⟩
  · rw [hmade.files_eq, hmade'.files_eq]
    exact fun p => ⟨mem_files_of_perm hs h' h hperm.symm, mem_files_of_perm hs h h' hperm⟩

theorem compilation_of_perm (hs : o.settings.KeepsPlain) (hperm : entries'.Perm o.entries)
    (h : (compilation o limit).result answer = .ok made) :
    ∃ made', (compilation { o with entries := entries' } limit).result answer = .ok made' ∧
      made.SameUpToOrder made' := by
  obtain ⟨built, g, hbuilt, hmade⟩ := compiled_of_compilation (Dialogue.endsIn_known.mpr h)
  obtain ⟨built', g', hbuilt', -⟩ := built_of_perm hs hbuilt hperm
  have hexists : ∃ made', compilationOf { o with entries := entries' } built' g' = .ok made' :=
    exists_compilationOf hmade (built_perm hbuilt hbuilt' hperm)
  obtain ⟨made', hmade'⟩ := hexists
  exact ⟨made', Dialogue.endsIn_known.mp (endsIn_compilation.mpr ⟨_, hbuilt', hmade'.symm⟩),
    sameUpToOrder_of_compiled hs hperm hbuilt hbuilt' hmade (compiled_of_compilationOf hmade')⟩

namespace Compiler

/-- **The order of the entries does not count.**  Where one order compiles every other does, and the
two compilations have the same modules, chunks and files, each in an order of its own.  The root has
to be absolute, and an extension must not have a slash or be `.` or `..`. -/
theorem compile_of_perm {c c₁ : Compiler σ} {parser : Parser} {m : Memory}
    (hroot : c.options.root.isAbsolute = true)
    (hextensions : ∀ e ∈ c.options.extensions, '/' ∉ e.toList ∧ e ≠ "." ∧ e ≠ "..")
    (hperm : entries'.Perm c.options.entries)
    (h : c.compile (Memory.host parser) m = ((.ok made, c₁), m)) :
    ∃ made' c₂,
      compile (Memory.host parser) { c with options := { c.options with entries := entries' } } m =
        ((.ok made', c₂), m) ∧
      made.SameUpToOrder made' := by
  have hs : c.options.settings.KeepsPlain := ⟨hroot, hextensions⟩
  obtain ⟨made', hmade', hsame⟩ := compilation_of_perm hs hperm (result_of_compile h)
  exact ⟨made', _, compile_memory _ m hmade', hsame⟩

/-- two modules that need each other, from both sides -/
def ofCycle : Compiler Unit :=
  .ofOptions (((Options.new ⟨"/p"⟩).entry "main" "./a").entry "alt" "./b")

theorem compile_swapped : ∃ made made' c₁ c₂,
    ofCycle.compile (Memory.host Script.parser) cyclicFiles = ((.ok made, c₁), cyclicFiles) ∧
      compile (Memory.host Script.parser)
          { ofCycle with
            options := { ofCycle.options with entries := [("alt", "./b"), ("main", "./a")] } }
          cyclicFiles = ((.ok made', c₂), cyclicFiles) ∧
      made.graph.ids = [⟨"./a.js"⟩, ⟨"./b.js"⟩] ∧ made.SameUpToOrder made' := by
  have hr : ((compilation ofCycle.options ModuleGraph.capacity).result
      (cyclicFiles.answer Script.parser)).map (fun made => made.graph.ids) =
        .ok [⟨"./a.js"⟩, ⟨"./b.js"⟩] := by
    decide +kernel
  have hextensions : ∀ e ∈ ofCycle.options.extensions, '/' ∉ e.toList ∧ e ≠ "." ∧ e ≠ ".." := by
    decide +kernel
  have hperm : [("alt", "./b"), ("main", "./a")].Perm ofCycle.options.entries :=
    .swap ("main", "./a") ("alt", "./b") []
  cases hmade : (compilation ofCycle.options ModuleGraph.capacity).result
      (cyclicFiles.answer Script.parser) with
  | error e =>
    rw [hmade] at hr
    cases hr
  | ok made =>
    rw [hmade] at hr
    have h := compile_memory ofCycle cyclicFiles hmade
    obtain ⟨made', c₂, h', hsame⟩ := compile_of_perm rfl hextensions hperm h
    exact ⟨made, made', _, c₂, h, h', Except.ok.inj hr, hsame⟩

end Compiler

end Bindle
