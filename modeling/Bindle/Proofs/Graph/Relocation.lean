import Bindle.Proofs.Files.Moved
import Bindle.Proofs.Graph.Success

/-!
# Graphs of projects that were moved

The paths in a graph count for nothing but the questions that are asked.  `ModuleGraph.relocate f g`,
which is `g` with other paths, takes new modules and chunks as `g` does; so a build of files that were
moved goes as the build did where they were before.

* `relocate`                  modules, graphs and growths with other paths;
* `ModuleGraph.StaysBelow`    no dependency leads above a directory;
* `Settings.Moves`            one growing does below one home what another does below another;
* `buildEntries_relocate`     the entries of a project that was moved are built.
-/

namespace Bindle

/-! ## other paths -/

def Dependency.relocate (f : Path → Path) (d : Dependency) : Dependency :=
  { d with path := f d.path }

namespace Module

def relocate (f : Path → Path) (m : Module) : Module :=
  { m with path := f m.path, dependencies := m.dependencies.map (Dependency.relocate f) }

variable {f : Path → Path}

theorem dependencyIds_relocate (m : Module) : (m.relocate f).dependencyIds = m.dependencyIds := by
  show (m.dependencies.map (Dependency.relocate f)).map Dependency.id = _
  rw [List.map_map]
  rfl

end Module

namespace Records

def relocate (f : Path → Path) (r : Records) : Records :=
  { r with modules := r.modules.map (Module.relocate f) }

variable {f : Path → Path} {r r' : Records}

/-- ids stay where they are -/
theorem InStep.relocate (h : r.InStep) : (r.relocate f).InStep := by
  intro id i
  show r.place? id = some i ↔ ((r.modules.map (Module.relocate f))[i]?).map Module.id = some id
  rw [List.getElem?_map, Option.map_map]
  exact h id i

/-- records in step are known by their list -/
theorem InStep.eq_of_modules_eq (h : r.InStep) (h' : r'.InStep) (hmodules : r.modules = r'.modules) :
    r = r' := by
  have hindex : r.index = r'.index := by
    refine Table.ext_get? fun k => Option.ext fun i => ?_
    exact (h ⟨k⟩ i).trans (hmodules ▸ (h' ⟨k⟩ i).symm)
  cases r
  cases r'
  cases hmodules
  cases hindex
  rfl

end Records

namespace ModuleGraph

def relocate (f : Path → Path) (g : ModuleGraph) : ModuleGraph :=
  ⟨g.toRecords.relocate f, g.inStep.relocate⟩

variable {f : Path → Path} {g g' : ModuleGraph} {name : String} {a : ModuleId}

theorem eq_of_modules_eq (h : g.modules = g'.modules) : g = g' :=
  eq_of_toRecords_eq (g.inStep.eq_of_modules_eq g'.inStep h)

theorem ids_relocate (f : Path → Path) (g : ModuleGraph) : (g.relocate f).ids = g.ids := by
  show (g.modules.map (Module.relocate f)).map Module.id = _
  rw [List.map_map]
  rfl

theorem size_relocate (f : Path → Path) (g : ModuleGraph) : (g.relocate f).size = g.size := by
  rw [← length_ids, ids_relocate, length_ids]

theorem find?_relocate (f : Path → Path) (g : ModuleGraph) (a : ModuleId) :
    (g.relocate f).find? a = (g.find? a).map (Module.relocate f) := by
  show (g.place? a).bind (fun i => (g.modules.map (Module.relocate f))[i]?) =
    ((g.place? a).bind (g.modules[·]?)).map (Module.relocate f)
  rw [Option.map_bind]
  exact congrArg _ (funext fun i => List.getElem?_map)

/-- the index is the same -/
theorem contains_relocate (f : Path → Path) (g : ModuleGraph) (a : ModuleId) :
    (g.relocate f).contains a = g.contains a := rfl

theorem insert_relocate (f : Path → Path) (g : ModuleGraph) (m : Module) :
    (g.relocate f).insert (m.relocate f) = (g.insert m).relocate f := by
  refine eq_of_modules_eq ?_
  by_cases h : m.id ∈ g.ids
  · rw [insert_of_mem (m := m.relocate f) ((ids_relocate f g).symm ▸ h), insert_of_mem h]
  · rw [modules_insert (m := m.relocate f) ((ids_relocate f g).symm ▸ h)]
    show _ = (g.insert m).modules.map _
    rw [modules_insert h, List.map_append]
    rfl

theorem addChunk_relocate (f : Path → Path) (g : ModuleGraph) (id : ModuleId) (name : String) :
    (g.relocate f).addChunk id name = (g.addChunk id name).relocate f := by
  refine eq_of_modules_eq ?_
  rw [modules_addChunk]
  show (g.modules.map _).map _ = (g.addChunk id name).modules.map _
  rw [modules_addChunk, List.map_map, List.map_map]
  refine List.map_congr_left fun m _ => ?_
  show (if m.id = id then (m.relocate f).addChunk name else m.relocate f) =
    Module.relocate f (if m.id = id then m.addChunk name else m)
  rw [apply_ite (Module.relocate f)]
  rfl

theorem isOutside_relocate : (g.relocate f).IsOutside name a ↔ g.IsOutside name a := by
  constructor
  · rintro ⟨m', hm', hid, hout⟩
    obtain ⟨m, hm, rfl⟩ := List.mem_map.mp hm'
    exact ⟨m, hm, hid, hout⟩
  · rintro ⟨m, hm, hid, hout⟩
    exact ⟨_, List.mem_map_of_mem hm, hid, hout⟩

theorem join_relocate (f : Path → Path) (g : ModuleGraph) (name : String)
    (pending : List ModuleId) :
    (g.relocate f).join name pending = (g.join name pending).relocate f := by
  induction g, pending using join.induct name with
  | case1 g => rw [join_nil, join_nil]
  | case2 g id pending hfind ih =>
    have hout : ¬ g.IsOutside name id := not_isOutside_of_find?_eq_none hfind
    rw [join_cons_of_not_isOutside hout,
      join_cons_of_not_isOutside (mt isOutside_relocate.mp hout), ih]
  | case3 g id pending m hfind hin ih =>
    have hout : ¬ g.IsOutside name id := not_isOutside_of_inChunk hfind hin
    rw [join_cons_of_not_isOutside hout,
      join_cons_of_not_isOutside (mt isOutside_relocate.mp hout), ih]
  | case4 g id pending m hfind hin ih =>
    obtain ⟨hm, hid⟩ := find?_eq_some_iff.mp hfind
    have hout : name ∉ m.chunkNames := fun h => hin (Module.inChunk_iff.mpr h)
    rw [join_cons_of_isOutside hm hid hout,
      join_cons_of_isOutside (m := m.relocate f) (List.mem_map_of_mem hm) hid hout,
      addChunk_relocate, Module.dependencyIds_relocate, ih]

end ModuleGraph

namespace Growth

def relocate (f : Path → Path) (g : Growth) : Growth := ⟨g.graph.relocate f, g.files.map f⟩

theorem join_relocate (f : Path → Path) (g : Growth) (name : String) (id : ModuleId) :
    (g.relocate f).join name id = (g.join name id).relocate f := by
  show (⟨(g.graph.relocate f).join name [id], g.files.map f⟩ : Growth) = _
  rw [ModuleGraph.join_relocate]
  rfl

theorem addModule_relocate (f : Path → Path) (g : Growth) (m : Module) :
    (g.relocate f).addModule (m.relocate f) = (g.addModule m).relocate f := by
  show (⟨(g.graph.relocate f).insert (m.relocate f), g.files.map f⟩ : Growth) = _
  rw [ModuleGraph.insert_relocate]
  rfl

/-- all files lie below a directory -/
def LiesBelow (r : Path) (g : Growth) : Prop := ∀ p ∈ g.files, r.LiesBelow p

section

variable {r r' : Path} (hr : r.IsHome) (hr' : r'.IsHome) {g : Growth} {paths : List Path}
  (hpaths : ∀ p ∈ paths, r.LiesBelow p) (hg : g.LiesBelow r)

include hr hpaths hg

theorem LiesBelow.addFiles : (g.addFiles paths).LiesBelow r := fun p hp =>
  ((FiledIn.mem_addFiles (fun _ => hr.isPlain) hpaths hg p).mp hp).elim (hg p) (hpaths p)

include hr'

theorem addFiles_relocate :
    (g.relocate (r.move r')).addFiles (paths.map (r.move r')) =
      (g.addFiles paths).relocate (r.move r') := by
  induction paths generalizing g with
  | nil => rfl
  | cons p paths ih =>
    obtain ⟨hp, hothers⟩ := List.forall_mem_cons.mp hpaths
    have hone : (g.addFiles [p]).LiesBelow r :=
      LiesBelow.addFiles hr (fun q hq => List.mem_singleton.mp hq ▸ hp) hg
    have hinsert := Path.insertSorted_move hr hr' hp hg
    show (Growth.mk (g.graph.relocate _) (Path.insertSorted _ (g.files.map _))).addFiles _ = _
    rw [hinsert]
    exact ih hothers hone

end

end Growth

/-! ## a module at its new place -/

/-- no dependency leads above `r` on the way from the directory of its module -/
def ModuleGraph.StaysBelow (r : Path) (g : ModuleGraph) : Prop :=
  ∀ m ∈ g.modules, ∀ d ∈ m.dependencies, r.Stays (m.path.parent?.getD r) d.specifier

instance (r : Path) (g : ModuleGraph) : Decidable (g.StaysBelow r) :=
  inferInstanceAs (Decidable (∀ m ∈ g.modules, ∀ d ∈ m.dependencies, _))

theorem ModuleGraph.StaysBelow.of_keeps {r : Path} {g g' : ModuleGraph} (h : g'.StaysBelow r)
    (hkeeps : g.Keeps g') : g.StaysBelow r := by
  intro m hm d hd
  obtain ⟨m', hm', hpath, hdeps, -⟩ := hkeeps m hm
  rw [← hpath]
  exact h m' hm' d (hdeps ▸ hd)

namespace Settings

def withRoot (s : Settings) (r : Path) : Settings := { s with root := r }

/-- the files `a` of a project were moved to `b`, and its root to `r'` -/
structure Moved (s : Settings) (r' : Path) (a b : Memory) : Prop where
  home : s.root.IsHome
  home' : r'.IsHome
  rules : s.rules = []
  extensions : ∀ e ∈ s.extensions, '/' ∉ e.toList ∧ e.toList.head? ≠ some '\\'
  files : a.Moved s.root r' b

namespace Moved

variable {s : Settings} {r' : Path} {a b : Memory} (hs : s.Moved r' a b) {parser : Parser}
  {p : Path}

include hs

theorem idOf_move (hp : s.root.LiesBelow p) :
    (s.withRoot r').idOf (s.root.move r' p) = s.idOf p := Path.ofPath_move hs.home hs.home' hp

theorem moduleOf_move (hp : s.root.LiesBelow p) (name : String) (found : List Dependency × String) :
    (s.withRoot r').moduleOf name (s.root.move r' p)
        (found.1.map (Dependency.relocate (s.root.move r')), found.2) =
      (s.moduleOf name p found).relocate (s.root.move r') := by
  unfold moduleOf
  rw [hs.idOf_move hp]
  rfl

theorem extract_move (hp : s.root.LiesBelow p) {calls : List Script.Call} {x : Extraction}
    (h : (extract (s.site p) calls).EndsIn (Dialogue.Known (a.answer parser)) x)
    (hok : x.failure = none)
    (hstays : ∀ d ∈ x.dependencies, s.root.Stays (p.parent?.getD s.root) d.specifier) :
    (extract ((s.withRoot r').site (s.root.move r' p)) calls).EndsIn
        (Dialogue.Known (b.answer parser))
        { x with dependencies := x.dependencies.map (Dependency.relocate (s.root.move r')) } ∧
      ∀ d ∈ x.dependencies, s.root.LiesBelow d.path := by
  induction calls generalizing x with
  | nil =>
    obtain rfl := Dialogue.endsIn_done.mp h
    exact ⟨.done _, fun d hd => absurd hd List.not_mem_nil⟩
  | cons c cs ih =>
    unfold extract at h ⊢
    cases hc : c.argument with
    | dynamic written =>
      simp only [hc] at h
      obtain rfl := Dialogue.endsIn_done.mp h
      cases hok
    | literal specifier =>
      simp only [hc] at h ⊢
      obtain ⟨resolved, hresolved, h⟩ := Dialogue.endsIn_bind.mp h
      cases resolved with
      | error e =>
        obtain rfl := Dialogue.endsIn_done.mp h
        cases hok
      | ok path =>
        obtain ⟨rest, hrest, h⟩ := Dialogue.endsIn_bind.mp h
        obtain rfl := Dialogue.endsIn_done.mp h
        obtain ⟨hfirst, hothers⟩ := List.forall_mem_cons.mp hstays
        obtain ⟨hpath, hmoved⟩ := resolve_move hs.files hs.home hs.home' hs.extensions
          (Path.beside_parent hs.home hs.home' hp) hfirst parser
          (some ((s.withRoot r').idOf (s.root.move r' p))) (Dialogue.endsIn_known.mp hresolved)
        obtain ⟨hrest', hdeps⟩ := ih hrest hok hothers
        refine ⟨Dialogue.endsIn_bind.mpr ⟨_, Dialogue.endsIn_known.mpr hmoved, ?_⟩,
          List.forall_mem_cons.mpr ⟨hpath, hdeps⟩⟩
        refine Dialogue.endsIn_bind.mpr ⟨_, hrest', Dialogue.endsIn_done.mpr ?_⟩
        have hid : ModuleId.ofPath ((s.withRoot r').site (s.root.move r' p)).root
            (s.root.move r' path) = ModuleId.ofPath s.root path :=
          Path.ofPath_move hs.home hs.home' hpath
        rw [hid]
        rfl

/-- **A file that was moved is the same module.** -/
theorem analysed_move (hp : s.root.LiesBelow p) {found : List Dependency × String}
    (h : s.Analysed (Dialogue.Known (a.answer parser)) p found)
    (hstays : ∀ d ∈ found.1, s.root.Stays (p.parent?.getD s.root) d.specifier) :
    (s.withRoot r').Analysed (Dialogue.Known (b.answer parser)) (s.root.move r' p)
        (found.1.map (Dependency.relocate (s.root.move r')), found.2) ∧
      ∀ d ∈ found.1, s.root.LiesBelow d.path := by
  obtain ⟨raw, source, tree, x, htext, hload, hparsed, hx, hok, rfl⟩ := h
  obtain ⟨hx', hdeps⟩ := hs.extract_move hp hx hok hstays
  rw [hs.rules] at hload
  obtain rfl : raw = source := Except.ok.inj hload
  refine ⟨⟨raw, raw, tree, _, ?_, ?_, hparsed, hx', hok, rfl⟩, hdeps⟩
  · obtain ⟨names, -, -, hnames⟩ := hp
    obtain rfl : p = ⟨s.root.text ++ String.ofList (Path.below names)⟩ := congrArg Path.mk hnames
    rw [Path.move_of_text rfl]
    exact (hs.files.readText_append hs.home hs.home' htext.symm).symm
  · show Rule.load s.rules _ _ raw = _
    rw [hs.rules]
    rfl

/-- and it is found with the same files -/
theorem analyse_move (hp : s.root.LiesBelow p) {x : Analysis} {found : List Dependency × String}
    (hx : (s.analyse p).EndsIn (Dialogue.Known (a.answer parser)) x) (ho : x.outcome = .ok found)
    (hstays : ∀ d ∈ found.1, s.root.Stays (p.parent?.getD s.root) d.specifier) :
    (∃ x', ((s.withRoot r').analyse (s.root.move r' p)).EndsIn
        (Dialogue.Known (b.answer parser)) x' ∧
      x'.outcome = .ok (found.1.map (Dependency.relocate (s.root.move r')), found.2) ∧
      x'.files = x.files.map (s.root.move r')) ∧
    x.files = p :: found.1.map Dependency.path ∧ ∀ q ∈ x.files, s.root.LiesBelow q := by
  obtain ⟨hanalysed, hfiles⟩ := analysed_and_files_of_analyse hx ho
  obtain ⟨hanalysed', hbelow⟩ := hs.analysed_move hp hanalysed hstays
  obtain ⟨x', hx', ho'⟩ := hanalysed'.exists_analyse
  obtain ⟨-, hfiles'⟩ := analysed_and_files_of_analyse hx' ho'
  refine ⟨⟨x', hx', ho', ?_⟩, hfiles, fun q hq => ?_⟩
  · rw [hfiles', hfiles, List.map_cons, List.map_map, List.map_map]
    rfl
  · rw [hfiles] at hq
    rcases List.mem_cons.mp hq with rfl | hq
    · exact hp
    · obtain ⟨d, hd, rfl⟩ := List.mem_map.mp hq
      exact hbelow d hd

end Moved

end Settings

/-! ## growing at a new place -/

section

variable {s : Settings} {r' : Path} {a b : Memory} (hs : s.Moved r' a b) (parser : Parser)
  {name : String} {limit : Nat}

/-- what comes to a good end with `d` comes to the same end with `d'`, at the new place -/
def Settings.Moves (s : Settings) (r' : Path) (a b : Memory) (parser : Parser)
    (d d' : Dialogue Grown) : Prop :=
  ∀ g, g.graph.StaysBelow s.root → d.EndsIn (Dialogue.Known (a.answer parser)) (none, g) →
    d'.EndsIn (Dialogue.Known (b.answer parser)) (none, g.relocate (s.root.move r')) ∧
      g.LiesBelow s.root

include hs

theorem moves_walk {unknown unknown' : Path → List Path → Growth → Dialogue Grown}
    (hunknown : ∀ p rest g, s.root.LiesBelow p → (∀ q ∈ rest, s.root.LiesBelow q) →
      g.LiesBelow s.root → s.idOf p ∉ g.graph.ids →
      s.Moves r' a b parser (unknown p rest g) (unknown' (s.root.move r' p)
        (rest.map (s.root.move r')) (g.relocate (s.root.move r'))))
    {paths : List Path} (hpaths : ∀ p ∈ paths, s.root.LiesBelow p) {g : Growth}
    (hg : g.LiesBelow s.root) :
    s.Moves r' a b parser (walk s name unknown paths g)
      (walk (s.withRoot r') name unknown' (paths.map (s.root.move r'))
        (g.relocate (s.root.move r'))) := by
  induction paths generalizing g with
  | nil =>
    intro g' _ h
    obtain ⟨-, rfl⟩ := Prod.mk.inj (Dialogue.endsIn_done.mp h)
    exact ⟨.done _, hg⟩
  | cons p rest ih =>
    obtain ⟨hp, hrest⟩ := List.forall_mem_cons.mp hpaths
    have hcontains : (g.graph.relocate (s.root.move r')).contains
        ((s.withRoot r').idOf (s.root.move r' p)) = g.graph.contains (s.idOf p) := by
      rw [ModuleGraph.contains_relocate, hs.idOf_move hp]
    rw [List.map_cons]
    unfold walk
    show Settings.Moves s r' a b parser _ (if (g.graph.relocate _).contains _ then _ else _)
    rw [hcontains]
    by_cases hid : g.graph.contains (s.idOf p) = true
    · rw [if_pos hid, if_pos hid, hs.idOf_move hp, Growth.join_relocate]
      exact ih hrest hg
    · rw [if_neg hid, if_neg hid]
      exact hunknown p rest g hp hrest hg fun hmem => hid (ModuleGraph.contains_iff.mpr hmem)

theorem moves_expand {onward onward' : Onward}
    (hkeeps : ∀ paths g g', (onward paths g).EndsIn (Dialogue.Known (a.answer parser)) (none, g') →
      g.graph.Keeps g'.graph)
    (honward : ∀ paths g, (∀ q ∈ paths, s.root.LiesBelow q) → g.LiesBelow s.root →
      s.Moves r' a b parser (onward paths g)
        (onward' (paths.map (s.root.move r')) (g.relocate (s.root.move r'))))
    {p : Path} {rest : List Path} {g : Growth} (hp : s.root.LiesBelow p)
    (hrest : ∀ q ∈ rest, s.root.LiesBelow q) (hg : g.LiesBelow s.root)
    (hid : s.idOf p ∉ g.graph.ids) :
    s.Moves r' a b parser (expand s name onward p rest g)
      (expand (s.withRoot r') name onward' (s.root.move r' p) (rest.map (s.root.move r'))
        (g.relocate (s.root.move r'))) := by
  intro g' hstays h
  obtain ⟨x, hx, h⟩ := Dialogue.endsIn_bind.mp h
  cases ho : x.outcome with
  | error e =>
    simp only [ho] at h
    cases Dialogue.endsIn_done.mp h
  | ok found =>
    simp only [ho] at h
    -- the module is there at the end, so its dependencies stay below the root
    have hdeps := (hstays.of_keeps (hkeeps _ _ _ h)) _ (ModuleGraph.mem_insert_self hid)
    obtain ⟨⟨x', hx', ho', hfiles'⟩, hfiles, hbelow⟩ := hs.analyse_move hp hx ho hdeps
    have hpaths : ∀ q ∈ found.1.map Dependency.path ++ rest, s.root.LiesBelow q := by
      intro q hq
      rcases List.mem_append.mp hq with hq | hq
      · exact hbelow q (hfiles ▸ List.mem_cons_of_mem p hq)
      · exact hrest q hq
    have hadded : ((g.addFiles x.files).addModule (s.moduleOf name p found)).LiesBelow s.root :=
      Growth.LiesBelow.addFiles hs.home hbelow hg
    obtain ⟨hend, hg'⟩ := honward _ _ hpaths hadded g' hstays h
    refine ⟨Dialogue.endsIn_bind.mpr ⟨x', hx', ?_⟩, hg'⟩
    simp only [ho']
    rw [hfiles', Growth.addFiles_relocate hs.home hs.home' hbelow hg, hs.moduleOf_move hp,
      Growth.addModule_relocate]
    rw [List.map_append, List.map_map] at hend
    rw [List.map_map]
    exact hend

theorem moves_grow {room : Nat} {paths : List Path} (hpaths : ∀ p ∈ paths, s.root.LiesBelow p)
    {g : Growth} (hg : g.LiesBelow s.root) :
    s.Moves r' a b parser (grow s name limit room paths g)
      (grow (s.withRoot r') name limit room (paths.map (s.root.move r'))
        (g.relocate (s.root.move r'))) := by
  induction room generalizing paths g with
  | zero =>
    refine moves_walk hs parser (fun p rest g _ _ _ _ g' _ h => ?_) hpaths hg
    cases Dialogue.endsIn_done.mp h
  | succ room ih =>
    refine moves_walk hs parser (fun p rest g hp hrest hg hid => ?_) hpaths hg
    refine moves_expand hs parser (fun paths g g' h => ?_) (fun _ _ hpaths hg => ih hpaths hg)
      hp hrest hg hid
    have hext : ModuleGraph.Extends name g.graph g'.graph := (grows_of_grow h).extends
    exact hext.keeps

/-! ## entries at a new place -/

theorem buildEntry_relocate {specifier : String} {id : ModuleId} {g g' : Growth}
    (h : (buildEntry s limit name specifier g).EndsIn (Dialogue.Known (a.answer parser))
      (.ok id, g'))
    (hentry : s.root.Stays s.root specifier) (hstays : g'.graph.StaysBelow s.root)
    (hg : g.LiesBelow s.root) :
    (buildEntry (s.withRoot r') limit name specifier (g.relocate (s.root.move r'))).EndsIn
        (Dialogue.Known (b.answer parser)) (.ok id, g'.relocate (s.root.move r')) ∧
      g'.LiesBelow s.root := by
  obtain ⟨resolved, hresolved, h⟩ := Dialogue.endsIn_bind.mp h
  cases resolved with
  | error e => cases Dialogue.endsIn_done.mp h
  | ok p =>
    obtain ⟨hp, hmoved⟩ := resolve_move hs.files hs.home hs.home' hs.extensions
      (Path.beside_self s.root r') hentry parser none (Dialogue.endsIn_known.mp hresolved)
    obtain ⟨⟨failure, g₁⟩, hgrow, h⟩ := Dialogue.endsIn_bind.mp h
    cases failure with
    | some e => cases Dialogue.endsIn_done.mp h
    | none =>
      cases Dialogue.endsIn_done.mp h
      have hpaths : ∀ q ∈ [p], s.root.LiesBelow q := fun q hq => List.mem_singleton.mp hq ▸ hp
      obtain ⟨hend, hg'⟩ := moves_grow hs parser hpaths hg g' hstays hgrow
      refine ⟨Dialogue.endsIn_bind.mpr ⟨.ok _, Dialogue.endsIn_known.mpr hmoved, ?_⟩, hg'⟩
      refine Dialogue.endsIn_bind.mpr ⟨(none, g'.relocate (s.root.move r')), ?_, ?_⟩
      · show (grow _ _ _ (limit - (g.graph.relocate _).size) _ _).EndsIn _ _
        rw [ModuleGraph.size_relocate]
        exact hend
      · rw [← hs.idOf_move hp]
        exact .done _

/-- **The entries of a project that was moved are built, to the same modules.** -/
theorem buildEntries_relocate {entries : List (String × String)} {built : List (String × ModuleId)}
    {g g' : Growth}
    (h : (buildEntries s limit entries g).EndsIn (Dialogue.Known (a.answer parser)) (.ok built, g'))
    (hentries : ∀ e ∈ entries, s.root.Stays s.root e.2) (hstays : g'.graph.StaysBelow s.root)
    (hg : g.LiesBelow s.root) :
    (buildEntries (s.withRoot r') limit entries (g.relocate (s.root.move r'))).EndsIn
        (Dialogue.Known (b.answer parser)) (.ok built, g'.relocate (s.root.move r')) ∧
      g'.LiesBelow s.root := by
  induction entries generalizing built g with
  | nil =>
    cases Dialogue.endsIn_done.mp h
    exact ⟨.done _, hg⟩
  | cons e entries ih =>
    obtain ⟨hentry, hothers⟩ := List.forall_mem_cons.mp hentries
    obtain ⟨id, g₁, rest, hfirst, hrest, rfl⟩ := buildEntries_cons h
    obtain ⟨hfirst', hg₁⟩ := buildEntry_relocate hs parser hfirst hentry
      (hstays.of_keeps (keeps_of_buildEntries hrest)) hg
    obtain ⟨hrest', hg'⟩ := ih hrest hothers hg₁
    refine ⟨Dialogue.endsIn_bind.mpr ⟨_, hfirst', ?_⟩, hg'⟩
    exact Dialogue.endsIn_bind.mpr ⟨_, hrest', .done _⟩

end

end Bindle
