import Bindle.Compiler.Stages
import Bindle.Proofs.Files.Host
import Mathlib.Data.List.Induction
import Mathlib.Data.List.Nodup

/-!
# What a compilation is made of

`Compiled o built g made` says how a compilation comes from the entries `built` and the graph that was
made for them: the chunks are assembled from the graph, and every chunk has its bundle among the
assets, under a name that no other chunk has.

* `Options.Collides`           the first chunk whose file name is taken, with the one that took it;
* `Options.Owns`               the table of the file names that are taken, as rendering goes on;
* `renderChunks_eq_error_iff`  rendering fails on these two, and on nothing else, and so does all that
                               comes after building (`compilationOf_eq_error_iff`);
* `buildCompilation_eq`        the stages make the graph, and from it a compilation, and their state
                               tells how far they came.
-/

namespace Bindle

variable {σ : Type} {o : Options σ} {fits : (q : Question) → q.Answer → Prop} {limit : Nat}

/-! ## assets -/

section

variable {g : ModuleGraph} {chunks : List Chunk} {owners assets made : Table String}

/-- an asset that has an owner stays what it is -/
theorem get?_renderChunks_of_owner (h : renderChunks o g chunks owners assets = .ok made)
    {filename : String} (howner : owners.get? filename ≠ none) :
    made.get? filename = assets.get? filename := by
  induction chunks generalizing owners assets with
  | nil =>
    cases h
    rfl
  | cons c cs ih =>
    unfold renderChunks at h
    cases hfree : owners.get? (o.filenameFor c.name) with
    | some first =>
      simp only [hfree] at h
      cases h
    | none =>
      simp only [hfree] at h
      have hne : o.filenameFor c.name ≠ filename := fun he => howner (he ▸ hfree)
      rw [ih h (by rwa [Table.get?_insert, if_neg hne]), Table.get?_insert, if_neg hne]

theorem get?_renderChunks (h : renderChunks o g chunks owners assets = .ok made) {c : Chunk}
    (hc : c ∈ chunks) : made.get? (o.filenameFor c.name) = some (Bundle.text c g) := by
  induction chunks generalizing owners assets with
  | nil => exact absurd hc List.not_mem_nil
  | cons c' cs ih =>
    unfold renderChunks at h
    cases hfree : owners.get? (o.filenameFor c'.name) with
    | some first =>
      simp only [hfree] at h
      cases h
    | none =>
      simp only [hfree] at h
      rcases List.mem_cons.mp hc with rfl | hc
      · rw [get?_renderChunks_of_owner h (by simp), Table.get?_insert, if_pos rfl]
      · exact ih h hc

end

/-! ## the first collision -/

/-- the chunk `second` is the first whose file name is taken, and the chunk `first` has taken it -/
def Options.Collides (o : Options σ) (names : List String) (filename first second : String) : Prop :=
  ∃ before after, names = before ++ second :: after ∧ (before.map o.filenameFor).Nodup ∧
    first ∈ before ∧ o.filenameFor first = filename ∧ o.filenameFor second = filename

theorem Options.Collides.sublist {names : List String} {filename first second : String}
    (h : o.Collides names filename first second) : [first, second].Sublist names := by
  obtain ⟨before, after, rfl, -, hfirst, -, -⟩ := h
  exact (List.singleton_sublist.mpr hfirst).append (List.singleton_sublist.mpr List.mem_cons_self)

theorem Options.nodup_concat_iff {done : List String} {name : String} :
    ((done ++ [name]).map o.filenameFor).Nodup ↔
      o.filenameFor name ∉ done.map o.filenameFor ∧ (done.map o.filenameFor).Nodup := by
  rw [List.map_append, List.map_singleton, List.nodup_append_comm, List.singleton_append,
    List.nodup_cons]

/-- there is a first collision wherever a file name is given twice -/
theorem Options.exists_collides_iff {names : List String} :
    (∃ filename first second, o.Collides names filename first second) ↔
      ¬ (names.map o.filenameFor).Nodup := by
  constructor
  · rintro ⟨filename, first, second, before, after, rfl, -, hfirst, hname, hsame⟩ hnodup
    rw [List.map_append, List.map_cons] at hnodup
    have hfree := (List.nodup_cons.mp (List.nodup_middle.mp hnodup)).1
    exact hfree (List.mem_append_left _ (List.mem_map.mpr ⟨first, hfirst, hname.trans hsame.symm⟩))
  · intro htwice
    induction names using List.reverseRecOn with
    | nil => exact absurd List.nodup_nil htwice
    | append_singleton names name ih =>
      by_cases hnodup : (names.map o.filenameFor).Nodup
      · have htaken : o.filenameFor name ∈ names.map o.filenameFor := by
          by_contra hfree
          exact htwice (Options.nodup_concat_iff.mpr ⟨hfree, hnodup⟩)
        obtain ⟨first, hfirst, hname⟩ := List.mem_map.mp htaken
        exact ⟨_, first, name, names, [], rfl, hnodup, hfirst, hname, rfl⟩
      · obtain ⟨filename, first, second, before, after, rfl, hrest⟩ := ih hnodup
        exact ⟨filename, first, second, before, after ++ [name], List.append_assoc _ _ _, hrest⟩

/-- the chunks `done` are the owners of their file names -/
def Options.Owns (o : Options σ) (done : List String) (owners : Table String) : Prop :=
  ∀ filename first, owners.get? filename = some first ↔
    first ∈ done ∧ o.filenameFor first = filename

namespace Options.Owns

variable {done : List String} {owners : Table String} {name : String}

theorem empty : o.Owns [] {} := fun _ _ =>
  iff_of_false (fun h => by cases h) (fun h => absurd h.1 List.not_mem_nil)

theorem get?_eq_none_iff (h : o.Owns done owners) :
    owners.get? (o.filenameFor name) = none ↔ o.filenameFor name ∉ done.map o.filenameFor := by
  rw [Option.eq_none_iff_forall_ne_some, List.mem_map]
  constructor
  · rintro hnone ⟨first, hfirst, hname⟩
    exact hnone first ((h _ first).mpr ⟨hfirst, hname⟩)
  · rintro hfree first hsome
    exact hfree ⟨first, (h _ first).mp hsome⟩

/-- one more chunk takes a file name that is free -/
theorem insert (h : o.Owns done owners) (hfree : owners.get? (o.filenameFor name) = none) :
    o.Owns (done ++ [name]) (owners.insert (o.filenameFor name) name) := by
  intro filename first
  rw [Table.get?_insert, List.mem_append, List.mem_singleton, or_and_right, ← h filename first]
  by_cases hname : o.filenameFor name = filename
  · subst hname
    rw [if_pos rfl, hfree, Option.some.injEq]
    constructor
    · rintro rfl
      exact .inr ⟨rfl, rfl⟩
    · rintro (hnone | ⟨rfl, -⟩)
      · cases hnone
      · rfl
  · rw [if_neg hname]
    constructor
    · exact .inl
    · rintro (hsome | ⟨rfl, hsame⟩)
      · exact hsome
      · exact absurd hsame hname

end Options.Owns

/-! ## rendering -/

section

variable {g : ModuleGraph} {done : List String} {owners assets : Table String} {e : BuildError}

theorem collides_of_renderChunks {chunks : List Chunk} (howns : o.Owns done owners)
    (hnodup : (done.map o.filenameFor).Nodup)
    (h : renderChunks o g chunks owners assets = .error e) :
    ∃ filename first second, o.Collides (done ++ chunks.map Chunk.name) filename first second ∧
      e = .assetConflict filename first second := by
  induction chunks generalizing done owners assets with
  | nil => cases h
  | cons c cs ih =>
    unfold renderChunks at h
    cases hfree : owners.get? (o.filenameFor c.name) with
    | some first =>
      simp only [hfree] at h
      cases h
      obtain ⟨hfirst, hname⟩ := (howns _ first).mp hfree
      exact ⟨_, first, c.name, ⟨done, _, rfl, hnodup, hfirst, hname, rfl⟩, rfl⟩
    | none =>
      simp only [hfree] at h
      have hnew := howns.get?_eq_none_iff.mp hfree
      rw [List.map_cons, List.append_cons]
      exact ih (howns.insert hfree) (Options.nodup_concat_iff.mpr ⟨hnew, hnodup⟩) h

theorem renderChunks_of_collides {before after : List Chunk} {c : Chunk} {first : String}
    (howns : o.Owns done owners)
    (hnodup : ((done ++ before.map Chunk.name).map o.filenameFor).Nodup)
    (hfirst : first ∈ done ++ before.map Chunk.name)
    (hname : o.filenameFor first = o.filenameFor c.name) :
    renderChunks o g (before ++ c :: after) owners assets =
      .error (.assetConflict (o.filenameFor c.name) first c.name) := by
  induction before generalizing done owners assets with
  | nil =>
    rw [List.map_nil, List.append_nil] at hfirst
    rw [List.nil_append]
    unfold renderChunks
    simp only [(howns _ first).mpr ⟨hfirst, hname⟩]
  | cons b before ih =>
    rw [List.map_cons, List.append_cons] at hnodup hfirst
    have hbegins : ((done ++ [b.name]).map o.filenameFor).Nodup :=
      hnodup.sublist ((List.sublist_append_left _ _).map _)
    have hfree := howns.get?_eq_none_iff.mpr (Options.nodup_concat_iff.mp hbegins).1
    rw [List.cons_append]
    unfold renderChunks
    simp only [hfree]
    exact ih (howns.insert hfree) hnodup hfirst

/-- **Rendering fails on the first collision.** -/
theorem renderChunks_eq_error_iff {chunks : List Chunk} :
    renderChunks o g chunks {} {} = .error e ↔ ∃ filename first second,
      o.Collides (chunks.map Chunk.name) filename first second ∧
        e = .assetConflict filename first second := by
  constructor
  · exact collides_of_renderChunks .empty .nil
  · rintro ⟨filename, first, second, ⟨before, after, hnames, hnodup, hfirst, hname, rfl⟩, rfl⟩
    obtain ⟨before, rest, rfl, rfl, hrest⟩ := List.map_eq_append_iff.mp hnames
    obtain ⟨c, after, rfl, rfl, -⟩ := List.map_eq_cons_iff.mp hrest
    exact renderChunks_of_collides .empty hnodup hfirst hname

theorem exists_renderChunks_iff {chunks : List Chunk} :
    (∃ assets, renderChunks o g chunks {} {} = .ok assets) ↔
      ((chunks.map Chunk.name).map o.filenameFor).Nodup := by
  rw [← not_iff_not, ← Options.exists_collides_iff]
  cases hassets : renderChunks o g chunks {} {} with
  | error e =>
    obtain ⟨filename, first, second, hcollides, -⟩ := renderChunks_eq_error_iff.mp hassets
    exact iff_of_true (fun ⟨_, h⟩ => by cases h) ⟨filename, first, second, hcollides⟩
  | ok assets =>
    refine iff_of_false (fun h => h ⟨assets, rfl⟩) fun ⟨filename, first, second, hcollides⟩ => ?_
    rw [renderChunks_eq_error_iff.mpr ⟨filename, first, second, hcollides, rfl⟩] at hassets
    cases hassets

end

/-! ## compilations -/

theorem names_assemble (g : ModuleGraph) (built : List (String × ModuleId)) :
    (Chunk.assemble g built).map Chunk.name = built.map Prod.fst := by
  rw [Chunk.assemble, List.map_map]
  rfl

section

variable {built : List (String × ModuleId)} {g : Growth}

/-- the compilation that comes of a graph and its entries -/
def compilationOf (o : Options σ) (built : List (String × ModuleId)) (g : Growth) :
    Except BuildError Compilation :=
  (renderChunks o g.graph (Chunk.assemble g.graph built) {} {}).map fun assets =>
    ⟨g.graph, Chunk.assemble g.graph built, assets, g.files⟩

/-- what is built fails to compile only on the first collision -/
theorem compilationOf_eq_error_iff {e : BuildError} : compilationOf o built g = .error e ↔
    ∃ filename first second, o.Collides (built.map Prod.fst) filename first second ∧
      e = .assetConflict filename first second := by
  rw [← names_assemble g.graph built, ← renderChunks_eq_error_iff (g := g.graph), compilationOf]
  generalize renderChunks o g.graph (Chunk.assemble g.graph built) {} {} = r
  cases r with
  | error e' => simp only [Except.map, Except.error.injEq]
  | ok assets => exact iff_of_false (fun h => by cases h) (fun h => by cases h)

theorem compilationOf_eq_conflict_iff {filename first second : String} :
    compilationOf o built g = .error (.assetConflict filename first second) ↔
      o.Collides (built.map Prod.fst) filename first second := by
  rw [compilationOf_eq_error_iff]
  constructor
  · rintro ⟨_, _, _, hcollides, heq⟩
    cases heq
    exact hcollides
  · exact fun hcollides => ⟨filename, first, second, hcollides, rfl⟩

theorem exists_compilationOf_iff : (∃ made, compilationOf o built g = .ok made) ↔
    ((built.map Prod.fst).map o.filenameFor).Nodup := by
  rw [← names_assemble g.graph built, ← exists_renderChunks_iff (g := g.graph), compilationOf]
  generalize renderChunks o g.graph (Chunk.assemble g.graph built) {} {} = r
  cases r with
  | error e => exact iff_of_false (fun ⟨_, h⟩ => by cases h) (fun ⟨_, h⟩ => by cases h)
  | ok assets => exact iff_of_true ⟨_, rfl⟩ ⟨_, rfl⟩

end

/-- what a compilation makes of the entries, whether they were built or not -/
def outcomeOf (o : Options σ) :
    Except BuildError (List (String × ModuleId)) × Growth → Except BuildError Compilation
  | (.error e, _) => .error e
  | (.ok built, g) => compilationOf o built g

/-- the state that the stages come to, from `state` on -/
def reachedOf (o : Options σ) (state : BuildState) :
    Except BuildError (List (String × ModuleId)) × Growth → BuildState
  | (.error _, _) => state
  | (.ok built, g) =>
    match compilationOf o built g with
    | .error _ => .chunksAssembled
    | .ok _ => .rendered

/-- **The stages up to the assets** ask for nothing but the graph.  Their state is as before if the
graph could not be built, and tells of the chunks if two of them had one file name. -/
theorem buildCompilation_eq (o : Options σ) (limit : Nat) (state : BuildState) :
    (buildCompilation o limit).run.run state =
      (buildEntries o.settings limit o.entries {}).bind fun r =>
        .done (outcomeOf o r, reachedOf o state r) := by
  show ((((buildEntries o.settings limit o.entries {}).bind _).bind _).bind _) = _
  rw [Dialogue.bind_assoc, Dialogue.bind_assoc]
  refine congrArg _ (funext fun r => ?_)
  obtain ⟨built, g⟩ := r
  cases built with
  | error e => rfl
  | ok built =>
    -- what is left of the stages goes on with the assets
    show ExceptT.bindCont (m := StateT BuildState Dialogue) (fun assets => do
        Stages.transition .rendered
        return Compilation.mk g.graph (Chunk.assemble g.graph built) assets g.files)
      (renderChunks o g.graph (Chunk.assemble g.graph built) {} {}) BuildState.chunksAssembled = _
    dsimp only [outcomeOf, reachedOf, compilationOf]
    cases renderChunks o g.graph (Chunk.assemble g.graph built) {} {} with
    | error e => rfl
    | ok assets => rfl

theorem compilation_eq (o : Options σ) (limit : Nat) : compilation o limit =
    (buildEntries o.settings limit o.entries {}).bind (fun r => .done (outcomeOf o r)) := by
  show ((buildCompilation o limit).run.run .running).bind _ = _
  rw [buildCompilation_eq, Dialogue.bind_assoc]
  rfl

theorem endsIn_compilation {result : Except BuildError Compilation} :
    (compilation o limit).EndsIn fits result ↔
      ∃ r, (buildEntries o.settings limit o.entries {}).EndsIn fits r ∧ result = outcomeOf o r := by
  rw [compilation_eq, Dialogue.endsIn_bind]
  exact exists_congr fun r => and_congr_right fun _ => Dialogue.endsIn_done

theorem ask_compilation {α : Type} (h : Host (StateM α)) {s s' : α}
    {r : Except BuildError (List (String × ModuleId)) × Growth}
    (hbuilt : h.ask (buildEntries o.settings limit o.entries {}) s = (r, s')) :
    h.ask (compilation o limit) s = (outcomeOf o r, s') := by
  rw [compilation_eq, h.ask_bind, hbuilt]
  rfl

structure Compiled (o : Options σ) (built : List (String × ModuleId)) (g : Growth)
    (made : Compilation) : Prop where
  graph_eq : made.graph = g.graph
  chunks_eq : made.chunks = Chunk.assemble made.graph built
  assets_eq : renderChunks o made.graph made.chunks {} {} = .ok made.assets
  files_eq : made.files = g.files

theorem Compiled.bundle {built : List (String × ModuleId)} {g : Growth} {made : Compilation}
    (h : Compiled o built g made) {c : Chunk} (hc : c ∈ made.chunks) :
    made.assets.get? (o.filenameFor c.name) = some (Bundle.text c made.graph) :=
  get?_renderChunks h.assets_eq hc

/-- no two chunks have one file name -/
theorem Compiled.nodup_filenames {built : List (String × ModuleId)} {g : Growth}
    {made : Compilation} (h : Compiled o built g made) :
    (made.chunks.map (fun c => o.filenameFor c.name)).Nodup := by
  have hnodup := exists_renderChunks_iff.mp ⟨_, h.assets_eq⟩
  rwa [List.map_map] at hnodup

theorem compiled_of_compilationOf {built : List (String × ModuleId)} {g : Growth}
    {made : Compilation} (h : compilationOf o built g = .ok made) : Compiled o built g made := by
  cases hassets : renderChunks o g.graph (Chunk.assemble g.graph built) {} {} with
  | error e =>
    rw [compilationOf, hassets] at h
    cases h
  | ok assets =>
    rw [compilationOf, hassets] at h
    cases h
    exact ⟨rfl, rfl, hassets, rfl⟩

/-- a compilation that was made comes from entries that were all built -/
theorem compiled_of_compilation {made : Compilation}
    (h : (compilation o limit).EndsIn fits (.ok made)) :
    ∃ built g, (buildEntries o.settings limit o.entries {}).EndsIn fits (.ok built, g) ∧
      Compiled o built g made := by
  obtain ⟨⟨result, g⟩, hbuilt, hmade⟩ := endsIn_compilation.mp h
  cases result with
  | error e => cases hmade
  | ok built => exact ⟨built, g, hbuilt, compiled_of_compilationOf hmade.symm⟩

end Bindle
