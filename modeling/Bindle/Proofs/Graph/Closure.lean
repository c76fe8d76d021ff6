import Bindle.Compiler.Options
import Bindle.Proofs.Graph.ChunkNames

/-!
# The graph as a closure

`DepthFirst next seen todo out` says what a depth-first search finds: starting from `todo`, and with
`seen` behind it, it comes to the new nodes `out`, in this order.  Here a search has a recursion of
its own; nothing is pending but the nodes that were asked for.

Main result: `closure_buildEntries`.  The graph of some entries is the closure of their modules under
what the files say one by one, and it lists the modules as the search finds them.
-/

namespace Bindle

/-! ## searching -/

inductive DepthFirst {α : Type} (next : α → List α) : List α → List α → List α → Prop where
  | nil (seen : List α) : DepthFirst next seen [] []
  | seen {seen rest out : List α} {a : α} (ha : a ∈ seen) (hrest : DepthFirst next seen rest out) :
      DepthFirst next seen (a :: rest) out
  /-- all that lies behind a new node comes before the nodes beside it -/
  | fresh {seen rest below out : List α} {a : α} (ha : a ∉ seen)
      (hbelow : DepthFirst next (seen ++ [a]) (next a) below)
      (hrest : DepthFirst next (seen ++ a :: below) rest out) :
      DepthFirst next seen (a :: rest) (a :: below ++ out)

namespace DepthFirst

variable {α : Type} {next next' : α → List α} {seen todo todo' out out' : List α}

/-- a search has one outcome -/
theorem unique (h : DepthFirst next seen todo out) (h' : DepthFirst next seen todo out') :
    out' = out := by
  induction h generalizing out' with
  | nil => cases h' with | nil => rfl
  | seen ha _ ih =>
    cases h' with
    | seen _ hrest => exact ih hrest
    | fresh ha' _ _ => exact absurd ha ha'
  | fresh ha _ _ ihbelow ihrest =>
    cases h' with
    | seen ha' _ => exact absurd ha' ha
    | fresh _ hbelow hrest =>
      obtain rfl := ihbelow hbelow
      rw [ihrest hrest]

theorem append (h : DepthFirst next seen todo out) (h' : DepthFirst next (seen ++ out) todo' out') :
    DepthFirst next seen (todo ++ todo') (out ++ out') := by
  induction h with
  | nil seen =>
    rw [List.append_nil] at h'
    exact h'
  | seen ha _ ih => exact .seen ha (ih h')
  | @fresh seen rest below out a ha hbelow _ _ ih =>
    rw [List.append_assoc]
    refine .fresh ha hbelow (ih ?_)
    rwa [← List.append_assoc] at h'

/-- a search for two lists is a search for the first and then one for the second -/
theorem of_append (h : DepthFirst next seen (todo ++ todo') out) :
    ∃ first second, out = first ++ second ∧ DepthFirst next seen todo first ∧
      DepthFirst next (seen ++ first) todo' second := by
  induction todo generalizing seen out with
  | nil => exact ⟨[], out, rfl, .nil seen, by rwa [List.append_nil]⟩
  | cons a todo ih =>
    cases h with
    | seen ha hrest =>
      obtain ⟨first, second, rfl, hfirst, hsecond⟩ := ih hrest
      exact ⟨first, second, rfl, .seen ha hfirst, hsecond⟩
    | @fresh _ _ below out _ ha hbelow hrest =>
      obtain ⟨first, second, rfl, hfirst, hsecond⟩ := ih hrest
      refine ⟨a :: below ++ first, second, (List.append_assoc _ _ _).symm,
        .fresh ha hbelow hfirst, ?_⟩
      rwa [← List.append_assoc]

/-- only what lies behind the new nodes is looked at -/
theorem congr (h : DepthFirst next seen todo out) (heq : ∀ a ∈ out, next' a = next a) :
    DepthFirst next' seen todo out := by
  induction h with
  | nil seen => exact .nil seen
  | seen ha _ ih => exact .seen ha (ih heq)
  | @fresh seen rest below out a ha _ _ ihbelow ihrest =>
    refine .fresh ha ?_ (ihrest (fun b hb => heq b (List.mem_append_right _ hb)))
    rw [heq a List.mem_cons_self]
    exact ihbelow (fun b hb => heq b (List.mem_append_left _ (List.mem_cons_of_mem _ hb)))

theorem exists_reaches (h : DepthFirst next seen todo out) {a : α} (ha : a ∈ out) :
    ∃ start ∈ todo, Relation.ReflTransGen (fun x y => y ∈ next x) start a := by
  induction h with
  | nil => exact absurd ha List.not_mem_nil
  | seen _ _ ih =>
    obtain ⟨start, hstart, hreach⟩ := ih ha
    exact ⟨start, List.mem_cons_of_mem _ hstart, hreach⟩
  | @fresh seen rest below out b _ _ _ ihbelow ihrest =>
    rcases List.mem_append.mp ha with ha | ha
    · refine ⟨b, List.mem_cons_self, ?_⟩
      rcases List.mem_cons.mp ha with rfl | ha
      · exact .refl
      · obtain ⟨start, hstart, hreach⟩ := ihbelow ha
        exact hreach.head hstart
    · obtain ⟨start, hstart, hreach⟩ := ihrest ha
      exact ⟨start, List.mem_cons_of_mem _ hstart, hreach⟩

end DepthFirst

/-! ## the search that makes a graph -/

namespace ModuleGraph

variable {g g' : ModuleGraph} {name : String} {a b : ModuleId}

/-- the dependencies of a module, by its id -/
def next (g : ModuleGraph) (a : ModuleId) : List ModuleId :=
  match g.find? a with
  | some m => m.dependencyIds
  | none => []

theorem next_id {m : Module} (hm : m ∈ g.modules) : g.next m.id = m.dependencyIds := by
  rw [next, find?_eq_some_iff.mpr ⟨hm, rfl⟩]

theorem mem_next : b ∈ g.next a ↔ g.Depends a b := by
  constructor
  · intro h
    unfold next at h
    split at h
    · rename_i m hm
      have hmem := find?_eq_some_iff.mp hm
      exact ⟨m, hmem.1, hmem.2, h⟩
    · exact absurd h List.not_mem_nil
  · rintro ⟨m, hm, rfl, hb⟩
    rwa [next_id hm]

theorem Extends.next_eq (h : Extends name g g') (ha : a ∈ g.ids) : g'.next a = g.next a := by
  obtain ⟨m, hm, rfl⟩ := mem_ids.mp ha
  obtain ⟨m', hm', hent⟩ := h.kept m hm
  rw [next_id hm, ← hent.id_eq, next_id hm', hent.dependencyIds_eq]

theorem ids_insert {m : Module} (h : m.id ∉ g.ids) : (g.insert m).ids = g.ids ++ [m.id] := by
  rw [ids, modules_insert h, List.map_append, List.map_singleton]
  rfl

end ModuleGraph

variable {s : Settings} {fits : (q : Question) → q.Answer → Prop} {name : String}
  {cut : Prop}

/-- **Growing searches.** -/
theorem Grows.depthFirst {paths : List Path} {g : Growth} {r : Grown}
    (h : Grows s fits name cut paths g r) (hr : r.1 = none) :
    ∃ out, r.2.graph.ids = g.graph.ids ++ out ∧
      DepthFirst r.2.graph.next g.graph.ids (paths.map s.idOf) out := by
  induction h with
  | done g => exact ⟨[], (List.append_nil _).symm, .nil _⟩
  | @known p rest g r hid hrest ih =>
    obtain ⟨out, hids, hout⟩ := ih hr
    rw [Growth.graph_join, ModuleGraph.ids_join] at hids hout
    exact ⟨out, hids, .seen hid hout⟩
  | @fresh p rest g r x found hid hx hfound hrest ih =>
    obtain ⟨out, hids, hout⟩ := ih hr
    have hinsert : (g.graph.insert (s.moduleOf name p found)).ids = g.graph.ids ++ [s.idOf p] :=
      ModuleGraph.ids_insert hid
    rw [Growth.graph_addModule, Growth.graph_addFiles, hinsert] at hids hout
    have hnext : r.2.graph.next (s.idOf p) = (found.1.map Dependency.path).map s.idOf := by
      have hext : ModuleGraph.Extends name _ r.2.graph := hrest.extends
      have hmem : s.moduleOf name p found ∈ (g.graph.insert (s.moduleOf name p found)).modules :=
        ModuleGraph.mem_insert_self hid
      have hmem_ids : s.idOf p ∈ (g.graph.insert (s.moduleOf name p found)).ids :=
        ModuleGraph.mem_ids.mpr ⟨_, hmem, rfl⟩
      refine (hext.next_eq hmem_ids).trans ((ModuleGraph.next_id hmem).trans ?_)
      rw [List.map_map]
      exact List.map_congr_left (fun d hd => (Settings.analysed_of_analyse hx hfound).id_eq hd)
    rw [List.map_append, ← hnext] at hout
    obtain ⟨below, out', rfl, hbelow, hout'⟩ := hout.of_append
    rw [List.append_assoc] at hids hout'
    refine ⟨s.idOf p :: below ++ out', ?_, .fresh hid hbelow hout'⟩
    rw [hids]
    rfl
  | failed => cases hr
  | full => cases hr

/-- the modules of a graph are what analysing their files gives -/
def Settings.Analyses (s : Settings) (fits : (q : Question) → q.Answer → Prop) (g : ModuleGraph) :
    Prop :=
  ∀ m ∈ g.modules, m.id = s.idOf m.path ∧ s.Analysed fits m.path (m.dependencies, m.source)

theorem Settings.Analyses.join {g : ModuleGraph} (h : s.Analyses fits g) (pending : List ModuleId) :
    s.Analyses fits (g.join name pending) := by
  intro m' hm'
  obtain ⟨m, hm, hbare⟩ := ModuleGraph.exists_bare_of_mem_join hm'
  obtain ⟨hid, hpath, -, hdeps, hsource⟩ := Module.mk.inj hbare
  rw [← hid, ← hpath, ← hdeps, ← hsource]
  exact h m hm

theorem Settings.Analyses.insert {g : ModuleGraph} (h : s.Analyses fits g) {p : Path}
    {found : List Dependency × String} (hid : s.idOf p ∉ g.ids) (hfound : s.Analysed fits p found) :
    s.Analyses fits (g.insert (s.moduleOf name p found)) := by
  intro m hm
  rw [ModuleGraph.modules_insert hid] at hm
  rcases List.mem_append.mp hm with hm | hm
  · exact h m hm
  · rw [List.mem_singleton.mp hm]
    exact ⟨rfl, hfound⟩

theorem Grows.analyses {paths : List Path} {g : Growth} {r : Grown}
    (h : Grows s fits name cut paths g r) (hg : s.Analyses fits g.graph) :
    s.Analyses fits r.2.graph := by
  induction h with
  | done => exact hg
  | known _ _ ih => exact ih (hg.join _)
  | fresh hid ha hfound _ ih =>
    exact ih (hg.insert hid (Settings.analysed_of_analyse ha hfound))
  | failed => exact hg
  | full => exact hg

/-! ## all entries -/

/-- what building the entries `todo` makes of a graph: the modules `built` -/
structure Built (s : Settings) (fits : (q : Question) → q.Answer → Prop)
    (todo : List (String × String)) (built : List (String × ModuleId)) (g g' : ModuleGraph) :
    Prop where
  /-- an entry stands for the module of the file that its specifier resolves to -/
  entries : List.Forall₂ (fun e b => b.1 = e.1 ∧
    ∃ p, (resolve s.extensions s.root e.2 none).EndsIn fits (.ok p) ∧ b.2 = s.idOf p) todo built
  analyses : s.Analyses fits g → s.Analyses fits g'
  next_eq : ∀ a ∈ g.ids, g'.next a = g.next a
  search : ∃ out, g'.ids = g.ids ++ out ∧ DepthFirst g'.next g.ids (built.map Prod.snd) out

theorem built_of_buildEntries {limit : Nat} {todo : List (String × String)}
    {built : List (String × ModuleId)} {g g' : Growth}
    (h : (buildEntries s limit todo g).EndsIn fits (.ok built, g')) :
    Built s fits todo built g.graph g'.graph := by
  induction todo generalizing built g with
  | nil =>
    cases Dialogue.endsIn_done.mp h
    exact ⟨.nil, fun hg => hg, fun _ _ => rfl, [], (List.append_nil _).symm, .nil _⟩
  | cons e todo ih =>
    obtain ⟨id, g₁, rest, hfirst, hrest, rfl⟩ := buildEntries_cons h
    obtain ⟨p, hp, hgrow, rfl⟩ := grows_of_buildEntry hfirst
    have hext : ModuleGraph.Extends e.1 g.graph g₁.graph := hgrow.extends
    obtain ⟨first, hids₁, hout₁⟩ := hgrow.depthFirst rfl
    have hb := ih hrest
    obtain ⟨second, hids₂, hout₂⟩ := hb.search
    refine ⟨.cons ⟨rfl, p, hp, rfl⟩ hb.entries, fun hg => hb.analyses (hgrow.analyses hg), ?_,
      first ++ second, ?_, ?_⟩
    · exact fun a ha => (hb.next_eq a (hext.ids_subset ha)).trans (hext.next_eq ha)
    · rw [hids₂, hids₁, List.append_assoc]
    · have hfirst' : DepthFirst g'.graph.next g.graph.ids [s.idOf p] first :=
        hout₁.congr (fun a ha => hb.next_eq a (hids₁ ▸ List.mem_append_right _ ha))
      rw [hids₁] at hout₂
      exact hfirst'.append hout₂

theorem analyses_of_buildEntries {limit : Nat} {todo : List (String × String)}
    {built : List (String × ModuleId)} {g : Growth}
    (h : (buildEntries s limit todo {}).EndsIn fits (.ok built, g)) : s.Analyses fits g.graph :=
  (built_of_buildEntries h).analyses (fun _ hm => absurd hm List.not_mem_nil)

/-- **The graph of a build is the closure of its entries.**  Its modules are what analysing their
files one by one gives, all their dependencies are there, and nothing else is; they are listed as a
depth-first search from the entries finds them. -/
theorem closure_buildEntries {σ : Type} {o : Options σ} {answer : (q : Question) → q.Answer}
    {limit : Nat} {built : List (String × ModuleId)} {g : Growth}
    (h : (buildEntries o.settings limit o.entries {}).result answer = (.ok built, g)) :
    List.Forall₂ (fun e b => b.1 = e.1 ∧ ∃ p,
      (resolve o.extensions o.root e.2 none).result answer = .ok p ∧
        b.2 = ModuleId.ofPath o.root p) o.entries built ∧
    g.graph.ids.Nodup ∧
    (∀ m ∈ g.graph.modules, m.id = ModuleId.ofPath o.root m.path ∧
      o.settings.Analysed (Dialogue.Known answer) m.path (m.dependencies, m.source)) ∧
    (∀ m ∈ g.graph.modules, ∀ d ∈ m.dependencies, d.id ∈ g.graph.ids) ∧
    (∀ m ∈ g.graph.modules, ∃ b ∈ built, g.graph.Reaches b.2 m.id) ∧
    ∀ out, DepthFirst g.graph.next [] (built.map Prod.snd) out ↔ out = g.graph.ids := by
  have hend := Dialogue.endsIn_known.mpr h
  have hsettled := settled_of_buildEntries hend
  have hanalyses := analyses_of_buildEntries hend
  have hb := built_of_buildEntries hend
  obtain ⟨out, hids, hsearch⟩ := hb.search
  obtain rfl : g.graph.ids = out := hids
  refine ⟨hb.entries.imp ?_, g.graph.distinct, ?_, ?_, ?_, ?_⟩
  · rintro e b ⟨hname, p, hp, hid⟩
    exact ⟨hname, p, Dialogue.endsIn_known.mp hp, hid⟩
  · exact hanalyses
  · exact fun m hm d hd => hsettled.resolved m.id d.id ⟨m, hm, rfl, List.mem_map_of_mem hd⟩
  · intro m hm
    obtain ⟨start, hstart, hreach⟩ :=
      hsearch.exists_reaches (ModuleGraph.mem_ids.mpr ⟨m, hm, rfl⟩)
    obtain ⟨b, hbmem, rfl⟩ := List.mem_map.mp hstart
    exact ⟨b, hbmem, Relation.ReflTransGen.mono (fun _ _ => ModuleGraph.mem_next.mp) _ _ hreach⟩
  · refine fun out => ⟨fun hout => hsearch.unique hout, ?_⟩
    rintro rfl
    exact hsearch

def branchingFiles : Memory :=
  .ofList [(⟨"/p/main.js"⟩, .text "require('./a'); require('./c');"),
    (⟨"/p/a.js"⟩, .text "require('./b');"), (⟨"/p/b.js"⟩, .text "require('./main');"),
    (⟨"/p/c.js"⟩, .text "require('./b');")]

def branching : Options Unit := ((Options.new ⟨"/p"⟩).entry "main" "./main").entry "alt" "./c"

/-- what lies behind the first dependency comes before the second, and a module that is found again is
not listed again -/
theorem closure_branching : ∃ built g,
    (buildEntries branching.settings ModuleGraph.capacity branching.entries {}).result
      (branchingFiles.answer Script.parser) = (.ok built, g) ∧
    g.graph.ids = [⟨"./main.js"⟩, ⟨"./a.js"⟩, ⟨"./b.js"⟩, ⟨"./c.js"⟩] ∧
    DepthFirst g.graph.next [] (built.map Prod.snd) g.graph.ids ∧
    ∀ m ∈ g.graph.modules, m.id = ModuleId.ofPath ⟨"/p"⟩ m.path ∧
      branching.settings.Analysed (Dialogue.Known (branchingFiles.answer Script.parser)) m.path
        (m.dependencies, m.source) := by
  have hr : ((buildEntries branching.settings ModuleGraph.capacity branching.entries {}).result
      (branchingFiles.answer Script.parser)).map id (fun g => g.graph.ids) =
      (.ok [("main", ⟨"./main.js"⟩), ("alt", ⟨"./c.js"⟩)],
        [⟨"./main.js"⟩, ⟨"./a.js"⟩, ⟨"./b.js"⟩, ⟨"./c.js"⟩]) := by
    decide +kernel
  have hroot : branching.root = ⟨"/p"⟩ := rfl
  rw [← hroot]
  generalize branching = o at hr ⊢
  generalize branchingFiles.answer Script.parser = answer at hr ⊢
  cases h : (buildEntries o.settings ModuleGraph.capacity o.entries {}).result answer with
  | mk built g =>
    rw [h] at hr
    obtain ⟨rfl, hids⟩ := Prod.mk.inj hr
    have hc := closure_buildEntries h
    exact ⟨_, g, rfl, hids, (hc.2.2.2.2.2 _).mpr rfl, hc.2.2.1⟩

end Bindle
