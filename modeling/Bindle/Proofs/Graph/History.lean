import Bindle.Proofs.Build.Resolve
import Bindle.Proofs.Graph.Success

/-!
# The history of a graph

A graph is made by requests in turn, for the module at a path or for an entry.  A request that fails
leaves behind what it has added, and the next one goes on from there.

* `Request.serve`       what a request does to a growth;
* `Request.Comes`       what comes of a request that has all the room it takes;
* `Serves`              requests in turn, each with its result;
* `Module.bare`         a module apart from the chunks that it is in;
* `ModuleGraph.Named`   every module is in some chunk, and in none twice;
* `Records.IsIndexed`   what the list of modules and its index are to each other.

The main result is `precedes_of_serves`: whatever was asked for before and whatever the files answer, a
request adds modules at the end and chunks to modules, and takes nothing away, and it does so by steps
that keep the list and its index together.
-/

namespace Bindle

/-! ## requests -/

inductive Request where
  | module (name : String) (p : Path)
  | entry (name specifier : String)
  deriving DecidableEq, Inhabited

namespace Request

/-- the chunk that is asked for -/
def name : Request → String
  | module name _ => name
  | entry name _ => name

def serve (s : Settings) (limit : Nat) : Request → Growth →
    Dialogue (Except BuildError ModuleId × Growth)
  | module name p, g => build s limit name p g
  | entry name specifier, g => buildEntry s limit name specifier g

/-- the path that a request begins with -/
def StartsAt (s : Settings) (fits : (q : Question) → q.Answer → Prop) (p : Path) : Request → Prop
  | module _ q => p = q
  | entry _ specifier => (resolve s.extensions s.root specifier none).EndsIn fits (.ok p)

/-- what comes of a request that has all the room it takes -/
def Comes (s : Settings) (fits : (q : Question) → q.Answer → Prop) (r : Request) (g : Growth)
    (result : Except BuildError ModuleId) (g' : Growth) : Prop :=
  (∃ limit, (r.serve s limit g).EndsIn fits (result, g')) ∧
    ∀ l, result ≠ .error (.tooManyModules l)

end Request

/-- requests in turn take a growth to another one; each has its result, and none puts an end to the
others -/
inductive Serves (s : Settings) (fits : (q : Question) → q.Answer → Prop) :
    Growth → List (Request × Except BuildError ModuleId) → Growth → Prop where
  | nil (g : Growth) : Serves s fits g [] g
  | cons {g g₁ g' : Growth} {r : Request} {result : Except BuildError ModuleId}
      {rest : List (Request × Except BuildError ModuleId)}
      (h : r.Comes s fits g result g₁) (hrest : Serves s fits g₁ rest g') :
      Serves s fits g ((r, result) :: rest) g'

variable {s : Settings} {fits : (q : Question) → q.Answer → Prop} {name : String} {cut : Prop}

/-- **What a request does.**  One for an entry that stands for no file changes nothing; any other grows
the graph from the path that it begins with, by the recursion that has no bound. -/
theorem Request.comes_iff {r : Request} {g g' : Growth} {result : Except BuildError ModuleId} :
    r.Comes s fits g result g' ↔
    (∃ name specifier e, r = .entry name specifier ∧ result = .error e ∧ g' = g ∧
      (resolve s.extensions s.root specifier none).EndsIn fits (.error e)) ∨
    ∃ p failure, r.StartsAt s fits p ∧ Grows s fits r.name False [p] g (failure, g') ∧
      result = failure.elim (.ok (s.idOf p)) .error := by
  constructor
  · rintro ⟨⟨limit, h⟩, hroom⟩
    cases r with
    | module name p =>
      obtain ⟨failure, hgrow, hresult⟩ := grows_of_build h hroom
      exact .inr ⟨p, failure, rfl, hgrow, hresult⟩
    | entry name specifier =>
      obtain ⟨resolved, hresolved, h⟩ := Dialogue.endsIn_bind.mp h
      cases resolved with
      | error e =>
        cases Dialogue.endsIn_done.mp h
        exact .inl ⟨name, specifier, e, rfl, rfl, rfl, hresolved⟩
      | ok p =>
        obtain ⟨failure, hgrow, hresult⟩ := grows_of_build h hroom
        exact .inr ⟨p, failure, hresolved, hgrow, hresult⟩
  · rintro (⟨name, specifier, e, rfl, rfl, rfl, hrefused⟩ | ⟨p, failure, hstart, hgrow, rfl⟩)
    · refine ⟨⟨0, Dialogue.endsIn_bind.mpr ⟨_, hrefused, .done _⟩⟩, ?_⟩
      obtain ⟨-, rfl⟩ := resolve_eq_error_iff.mp hrefused
      exact fun _ => nofun
    · obtain ⟨room, hroom⟩ := hgrow.exists_room
      have hbuild : (build s (g.graph.size + room) r.name p g).EndsIn fits
          (failure.elim (.ok (s.idOf p)) .error, g') := by
        refine Dialogue.endsIn_bind.mpr ⟨(failure, g'), hroom _ _ (by omega), ?_⟩
        cases failure <;> exact .done _
      refine ⟨⟨g.graph.size + room, ?_⟩, fun l he => ?_⟩
      · cases r with
        | module name q =>
          obtain rfl : p = q := hstart
          exact hbuild
        | entry name specifier => exact Dialogue.endsIn_bind.mpr ⟨.ok p, hstart, hbuild⟩
      · cases failure with
        | none => cases he
        | some e => exact hgrow.ne_tooManyModules l (congrArg some (Except.error.inj he))

/-! ## modules and their order -/

namespace Module.Enters

variable {m m' : Module}

theorem bare_eq (h : m.Enters name m') : m'.bare = m.bare := by
  rcases h with rfl | ⟨-, rfl⟩ <;> rfl

theorem chunkNames_prefix (h : m.Enters name m') : m.chunkNames <+: m'.chunkNames := by
  rcases h with rfl | ⟨-, rfl⟩
  · exact List.prefix_refl _
  · exact List.prefix_append _ _

end Module.Enters

namespace ModuleGraph

variable {g g' : ModuleGraph}

/-- every module is in some chunk, and in none twice -/
def Named (g : ModuleGraph) : Prop := ∀ m ∈ g.modules, m.chunkNames ≠ [] ∧ m.chunkNames.Nodup

theorem Extends.named (h : Extends name g g') (hg : g.Named) : g'.Named := by
  intro m' hm'
  rcases h.origin m' hm' with ⟨m, hm, rfl | ⟨hout, rfl⟩⟩ | ⟨-, hnames⟩
  · exact hg m' hm
  · refine ⟨List.append_ne_nil_of_right_ne_nil _ (List.cons_ne_nil _ _), ?_⟩
    refine List.nodup_append.mpr ⟨(hg m hm).2, List.nodup_singleton _, ?_⟩
    intro n hn n' hn' he
    rw [List.mem_singleton.mp hn'] at he
    exact hout (he ▸ hn)
  · rw [hnames]
    exact ⟨List.cons_ne_nil _ _, List.nodup_singleton _⟩

end ModuleGraph

/-- growing that goes well puts what it begins with into the chunk -/
theorem Grows.isIn_head {p : Path} {rest : List Path} {g : Growth} {r : Grown}
    (h : Grows s fits name cut (p :: rest) g r) (hr : r.1 = none) :
    r.2.graph.IsIn name (s.idOf p) := by
  cases h with
  | known hid hrest =>
    have hext : ModuleGraph.Extends name (g.graph.join name [s.idOf p]) r.2.graph := hrest.extends
    exact hext.isIn (ModuleGraph.isIn_join_self hid)
  | @fresh _ _ _ _ _ found hid _ _ hrest =>
    have hext : ModuleGraph.Extends name (g.graph.insert (s.moduleOf name p found)) r.2.graph :=
      hrest.extends
    exact hext.isIn ((ModuleGraph.isIn_insert hid).mpr (.inr ⟨rfl, List.mem_cons_self⟩))
  | failed => cases hr
  | full => cases hr

theorem Grows.bare_prefix {paths : List Path} {g : Growth} {r : Grown}
    (h : Grows s fits name cut paths g r) :
    g.graph.modules.map Module.bare <+: r.2.graph.modules.map Module.bare := by
  induction h with
  | done => exact List.prefix_refl _
  | known _ _ ih =>
    rw [Growth.graph_join, ModuleGraph.bare_join] at ih
    exact ih
  | fresh hid _ _ _ ih =>
    refine List.IsPrefix.trans ?_ ih
    rw [Growth.graph_addModule, Growth.graph_addFiles, ModuleGraph.modules_insert hid,
      List.map_append]
    exact List.prefix_append _ _
  | failed => exact List.prefix_refl _
  | full => exact List.prefix_refl _

/-! ## records -/

namespace Records

/-- the index leads to the modules, and to nothing else -/
structure IsIndexed (r : Records) : Prop where
  place?_eq_some_iff : ∀ id i, r.place? id = some i ↔ (r.modules[i]?).map Module.id = some id
  nodup : (r.modules.map Module.id).Nodup
  find?_eq_some_iff : ∀ id m, r.find? id = some m ↔ m ∈ r.modules ∧ m.id = id
  contains_iff : ∀ id, r.contains id = true ↔ id ∈ r.modules.map Module.id

theorem InStep.isIndexed {r : Records} (h : r.InStep) : r.IsIndexed :=
  ⟨h, h.nodup, fun _ _ => h.find?_eq_some_iff, fun _ => h.contains_iff⟩

theorem after_append (r : Records) (steps steps' : List Step) :
    r.after (steps ++ steps') = (r.after steps).after steps' := List.foldl_append

end Records

/-- joining a chunk is adding it to modules, one after the other -/
theorem ModuleGraph.exists_after_join (g : ModuleGraph) (name : String) (pending : List ModuleId) :
    ∃ steps, (g.join name pending).toRecords = g.toRecords.after steps := by
  induction g, pending using ModuleGraph.join.induct name with
  | case1 g =>
    rw [join_nil]
    exact ⟨[], rfl⟩
  | case2 g id pending hfind ih =>
    rw [join_cons_of_not_isOutside (not_isOutside_of_find?_eq_none hfind)]
    exact ih
  | case3 g id pending m hfind hin ih =>
    rw [join_cons_of_not_isOutside (not_isOutside_of_inChunk hfind hin)]
    exact ih
  | case4 g id pending m hfind hout ih =>
    obtain ⟨steps, hsteps⟩ := ih
    obtain ⟨hm, hid⟩ := find?_eq_some_iff.mp hfind
    rw [join_cons_of_isOutside hm hid fun h => hout (Module.inChunk_iff.mpr h), hsteps]
    exact ⟨.addChunk id name :: steps, rfl⟩

theorem Grows.exists_after {paths : List Path} {g : Growth} {r : Grown}
    (h : Grows s fits name cut paths g r) :
    ∃ steps, r.2.graph.toRecords = g.graph.toRecords.after steps := by
  induction h with
  | done => exact ⟨[], rfl⟩
  | @known p rest g r _ _ ih =>
    obtain ⟨joined, hjoined⟩ := g.graph.exists_after_join name [s.idOf p]
    obtain ⟨steps, hsteps⟩ := ih
    refine ⟨joined ++ steps, ?_⟩
    rw [hsteps, Growth.graph_join, hjoined, Records.after_append]
  | @fresh p rest g r a found _ _ _ _ ih =>
    obtain ⟨steps, hsteps⟩ := ih
    exact ⟨.insert (s.moduleOf name p found) :: steps, hsteps⟩
  | failed => exact ⟨[], rfl⟩
  | full => exact ⟨[], rfl⟩

/-! ## histories -/

/-- a growth later on -/
structure Growth.Precedes (g g' : Growth) : Prop where
  /-- the modules come first, in their order -/
  bare_prefix : g.graph.modules.map Module.bare <+: g'.graph.modules.map Module.bare
  /-- and what has changed is that they came into further chunks -/
  kept : ∀ m ∈ g.graph.modules, ∃ m' ∈ g'.graph.modules, m'.bare = m.bare ∧
    m.chunkNames <+: m'.chunkNames
  files : g.files.Sublist g'.files

theorem Growth.Precedes.refl (g : Growth) : g.Precedes g :=
  ⟨List.prefix_refl _, fun m hm => ⟨m, hm, rfl, List.prefix_refl _⟩, List.Sublist.refl _⟩

theorem Grows.precedes {paths : List Path} {g : Growth} {r : Grown}
    (h : Grows s fits name cut paths g r) : g.Precedes r.2 := by
  refine ⟨h.bare_prefix, fun m hm => ?_, h.sublist_files⟩
  obtain ⟨m', hm', henters⟩ := h.extends.kept m hm
  exact ⟨m', hm', henters.bare_eq, henters.chunkNames_prefix⟩

/-- **One request.** -/
theorem Request.Comes.precedes {r : Request} {g g' : Growth} {result : Except BuildError ModuleId}
    (h : r.Comes s fits g result g') : g.Precedes g' ∧ (g.graph.Named → g'.graph.Named) ∧
      ∃ steps, g'.graph.toRecords = g.graph.toRecords.after steps := by
  rcases Request.comes_iff.mp h with ⟨-, -, -, -, -, rfl, -⟩ | ⟨p, failure, -, hgrow, -⟩
  · exact ⟨.refl _, id, [], rfl⟩
  · have hext : ModuleGraph.Extends r.name g.graph g'.graph := hgrow.extends
    exact ⟨hgrow.precedes, hext.named, hgrow.exists_after⟩

/-- what every request keeps that grows the graph, a history keeps -/
theorem Serves.keeps {Q : Growth → Prop} {g g' : Growth}
    {calls : List (Request × Except BuildError ModuleId)} (h : Serves s fits g calls g')
    (hQ : ∀ c ∈ calls, ∀ p g failure g', c.1.StartsAt s fits p →
      Grows s fits c.1.name False [p] g (failure, g') →
      c.2 = failure.elim (.ok (s.idOf p)) .error → Q g → Q g')
    (hg : Q g) : Q g' := by
  induction h with
  | nil => exact hg
  | @cons g g₁ g' r result rest hserve _ ih =>
    obtain ⟨hfirst, hothers⟩ := List.forall_mem_cons.mp hQ
    refine ih hothers ?_
    rcases Request.comes_iff.mp hserve with
      ⟨-, -, -, -, -, rfl, -⟩ | ⟨p, failure, hstart, hgrow, hresult⟩
    · exact hg
    · exact hfirst p g failure g₁ hstart hgrow hresult hg

theorem Serves.named {g g' : Growth} {calls : List (Request × Except BuildError ModuleId)}
    (h : Serves s fits g calls g') (hg : g.graph.Named) : g'.graph.Named :=
  h.keeps (fun _ _ _ _ _ _ _ hgrow _ hnamed => hgrow.extends.named hnamed) hg

theorem Serves.exists_after {g g' : Growth} {calls : List (Request × Except BuildError ModuleId)}
    (h : Serves s fits g calls g') :
    ∃ steps, g'.graph.toRecords = g.graph.toRecords.after steps := by
  refine h.keeps (Q := fun g' => ∃ steps, g'.graph.toRecords = g.graph.toRecords.after steps)
    (fun c _ p g₁ failure g₂ _ hgrow _ ⟨steps, hsteps⟩ => ?_) ⟨[], rfl⟩
  obtain ⟨steps', hsteps'⟩ := hgrow.exists_after
  exact ⟨steps ++ steps', by rw [hsteps', hsteps, Records.after_append]⟩

theorem Request.Comes.isIn {r : Request} {g g' : Growth} {id : ModuleId}
    (h : r.Comes s fits g (.ok id) g') : g'.graph.IsIn r.name id := by
  rcases Request.comes_iff.mp h with ⟨-, -, e, -, hresult, -, -⟩ | ⟨p, failure, -, hgrow, hresult⟩
  · cases hresult
  · cases failure with
    | some e => cases hresult
    | none =>
      cases hresult
      exact hgrow.isIn_head rfl

/-- **A graph only grows.**  Whatever was asked for before, whether it went well or not, and whatever
the files answer, also when they change between two questions: a request leaves every module where it
is and as it is, but for further chunks, and forgets no file.  Every module is in some chunk, and in
none twice.  The list of modules and its index have come from nothing by insertions and additions to
chunks, the last of them made by the request; after each of these steps, those of the request included,
the index has every id with its place, no id is there twice, and what is looked up is what the list
has. -/
theorem precedes_of_serves {before : List (Request × Except BuildError ModuleId)} {g g' : Growth}
    {r : Request} {result : Except BuildError ModuleId}
    (hbefore : Serves s (fun _ _ => True) {} before g)
    (h : r.Comes s (fun _ _ => True) g result g') :
    g.Precedes g' ∧
      (∃ old new, g.graph.toRecords = ({} : Records).after old ∧
        g'.graph.toRecords = ({} : Records).after (old ++ new) ∧
        ∀ steps, steps <+: old ++ new → (({} : Records).after steps).IsIndexed) ∧
      g'.graph.ids.Nodup ∧
      (∀ id m, g'.graph.find? id = some m ↔ m ∈ g'.graph.modules ∧ m.id = id) ∧
      (∀ id, g'.graph.contains id = true ↔ id ∈ g'.graph.ids) ∧
      (∀ m ∈ g'.graph.modules, m.chunkNames ≠ [] ∧ m.chunkNames.Nodup) ∧
      ∀ id, result = .ok id → g'.graph.IsIn r.name id := by
  obtain ⟨hprecedes, hnamed, new, hnew⟩ := h.precedes
  obtain ⟨old, hold⟩ : ∃ old, g.graph.toRecords = ({} : Records).after old := hbefore.exists_after
  have hall : g'.graph.toRecords = ({} : Records).after (old ++ new) := by
    rw [hnew, hold, Records.after_append]
  have hindexed : ∀ steps, (({} : Records).after steps).IsIndexed :=
    fun steps => (Records.inStep_empty.after steps).isIndexed
  have hlast : g'.graph.toRecords.IsIndexed := hall ▸ hindexed (old ++ new)
  refine ⟨hprecedes, ⟨old, new, hold, hall, fun steps _ => hindexed steps⟩, hlast.nodup,
    hlast.find?_eq_some_iff, hlast.contains_iff, ?_, ?_⟩
  · have hempty : ({} : Growth).graph.Named := fun _ hm => absurd hm List.not_mem_nil
    exact hnamed (hbefore.named hempty)
  · rintro id rfl
    exact h.isIn

/-- the second file needs one that is missing -/
def brokenFiles : Memory := .ofList [(⟨"/p/a.js"⟩, .text "require('./b');"),
  (⟨"/p/b.js"⟩, .text "require('./c');")]

/-- the first file has changed, and a further one needs it -/
def changedFiles : Memory := .ofList [(⟨"/p/a.js"⟩, .text ""),
  (⟨"/p/d.js"⟩, .text "require('./a');")]

def Growth.names (g : Growth) : List (ModuleId × List String) :=
  g.graph.modules.map fun m => (m.id, m.chunkNames)

/-- the module that the failed request has left comes into the chunk of the next one, and stays as the
old files made it -/
theorem precedes_of_changed : ∃ e g g',
    Serves ⟨⟨"/p"⟩, [".js"], []⟩ (fun _ _ => True) {} [(.entry "main" "./a", .error e)] g ∧
    (Request.entry "alt" "./d").Comes ⟨⟨"/p"⟩, [".js"], []⟩ (fun _ _ => True) g
      (.ok ⟨"./d.js"⟩) g' ∧
    g.names = [(⟨"./a.js"⟩, ["main"])] ∧
    g'.names = [(⟨"./a.js"⟩, ["main", "alt"]), (⟨"./d.js"⟩, ["alt"])] ∧ g.Precedes g' := by
  generalize hs : (⟨⟨"/p"⟩, [".js"], []⟩ : Settings) = s
  generalize hfirst : ((Request.entry "main" "./a").serve s ModuleGraph.capacity {}).result
    (brokenFiles.answer Script.parser) = first
  generalize hnext : ((Request.entry "alt" "./d").serve s ModuleGraph.capacity first.2).result
    (changedFiles.answer Script.parser) = next
  have hr : first.map id Growth.names = (.error (.resolution "./c" ⟨"/p"⟩ (some ⟨"./b.js"⟩)
        [⟨"/p/c"⟩, ⟨"/p/c.js"⟩]), [(⟨"./a.js"⟩, ["main"])]) ∧
      next.map id Growth.names = (.ok ⟨"./d.js"⟩,
        [(⟨"./a.js"⟩, ["main", "alt"]), (⟨"./d.js"⟩, ["alt"])]) := by
    rw [← hnext, ← hfirst, ← hs]
    decide +kernel
  obtain ⟨result, g⟩ := first
  obtain ⟨result', g'⟩ := next
  obtain ⟨⟨rfl, hnames⟩, hnext'⟩ := hr.imp Prod.mk.inj Prod.mk.inj
  obtain ⟨rfl, hnames'⟩ := hnext'
  have hserves : Serves s (fun _ _ => True) {} [(.entry "main" "./a", _)] g :=
    .cons ⟨⟨_, hfirst ▸ Dialogue.canEndIn_result _ _⟩, by exact fun _ => nofun⟩ (.nil g)
  have hserve := hnext ▸ Dialogue.canEndIn_result (changedFiles.answer Script.parser)
    ((Request.entry "alt" "./d").serve s ModuleGraph.capacity g)
  have hcomes : (Request.entry "alt" "./d").Comes s (fun _ _ => True) g (.ok ⟨"./d.js"⟩) g' :=
    ⟨⟨_, hserve⟩, fun _ => nofun⟩
  exact ⟨_, g, g', hserves, hcomes, hnames, hnames', (precedes_of_serves hserves hcomes).1⟩

end Bindle
