import Bindle.Proofs.Build.Failures
import Bindle.Proofs.Graph.Closure
import Bindle.Proofs.Graph.Files
import Mathlib.Data.List.Perm.Subperm

/-!
# When building succeeds

Growing can fail on a file that cannot be analysed, and for want of room.  So it succeeds where all
files that it can come to are analysed and there is room for the modules of all of them, whatever is
there already and whatever is gone through (`succeeds_grow`); a graph that was built is such a world
for any other way to build it.

* `Settings.Closed`           files that can be analysed, with all that they depend on;
* `ModuleGraph.HasRoom`       a graph within some modules, with room for the others;
* `exists_buildEntries`       entries among such files are built;
* `grows_iff_exists_room`     growing without a bound is growing that has room;
* `Fills`                     how much of the room is taken up;
* `Growth.FiledIn`            the files of a growth are those of its modules, and of one kind.
-/

namespace Bindle

variable {s : Settings} {fits : (q : Question) → q.Answer → Prop} {name : String} {limit : Nat}
  {cut : Prop}

/-! ## enough room -/

/-- the files of `P` can be analysed and depend on each other only; `ids` has the ids of them all -/
structure Settings.Closed (s : Settings) (fits : (q : Question) → q.Answer → Prop) (P : Path → Prop)
    (ids : List ModuleId) : Prop where
  analysed : ∀ p, P p → ∃ found, s.Analysed fits p found ∧ ∀ d ∈ found.1, P d.path
  mem_ids : ∀ p, P p → s.idOf p ∈ ids

namespace ModuleGraph

variable {g : ModuleGraph} {ids : List ModuleId} {room : Nat}

structure HasRoom (g : ModuleGraph) (ids : List ModuleId) (room : Nat) : Prop where
  ids_subset : g.ids ⊆ ids
  length_le : ids.length ≤ g.size + room

theorem length_ids : g.ids.length = g.size := List.length_map _

theorem size_join (pending : List ModuleId) : (g.join name pending).size = g.size := by
  rw [← length_ids, ids_join, length_ids]

theorem size_insert {m : Module} (h : m.id ∉ g.ids) : (g.insert m).size = g.size + 1 := by
  rw [← length_ids, ids_insert h, List.length_append, length_ids]
  rfl

theorem HasRoom.join (h : g.HasRoom ids room) (pending : List ModuleId) :
    (g.join name pending).HasRoom ids room :=
  ⟨by rw [ids_join]; exact h.ids_subset, by rw [size_join]; exact h.length_le⟩

theorem HasRoom.insert (h : g.HasRoom ids (room + 1)) {m : Module} (hnew : m.id ∉ g.ids)
    (hm : m.id ∈ ids) : (g.insert m).HasRoom ids room := by
  constructor
  · rw [ids_insert hnew]
    exact List.append_subset.mpr ⟨h.ids_subset, List.cons_subset.mpr ⟨hm, List.nil_subset _⟩⟩
  · have hlength := h.length_le
    rw [size_insert hnew]
    omega

/-- without room nothing is missing -/
theorem HasRoom.mem_ids (h : g.HasRoom ids 0) {a : ModuleId} (ha : a ∈ ids) : a ∈ g.ids := by
  have hperm : g.ids.Perm ids :=
    (List.subperm_of_subset g.distinct h.ids_subset).perm_of_length_le
      (h.length_le.trans_eq length_ids.symm)
  exact hperm.mem_iff.mpr ha

end ModuleGraph

section

variable {P : Path → Prop} {ids : List ModuleId}

/-- a growth comes to a good end among the modules `ids` -/
def Succeeds (fits : (q : Question) → q.Answer → Prop) (ids : List ModuleId) (d : Dialogue Grown) :
    Prop :=
  ∃ g', d.EndsIn fits (none, g') ∧ g'.graph.ids ⊆ ids

theorem succeeds_walk {room : Nat} {unknown : Path → List Path → Growth → Dialogue Grown}
    (hunknown : ∀ p rest g, P p → (∀ q ∈ rest, P q) → s.idOf p ∉ g.graph.ids →
      g.graph.HasRoom ids room → Succeeds fits ids (unknown p rest g))
    {paths : List Path} (hpaths : ∀ p ∈ paths, P p) {g : Growth} (hg : g.graph.HasRoom ids room) :
    Succeeds fits ids (walk s name unknown paths g) := by
  induction paths generalizing g with
  | nil => exact ⟨g, .done _, hg.ids_subset⟩
  | cons p rest ih =>
    obtain ⟨hp, hrest⟩ := List.forall_mem_cons.mp hpaths
    unfold walk
    split
    · exact ih hrest (hg.join _)
    · rename_i hc
      exact hunknown p rest g hp hrest (fun hid => hc (ModuleGraph.contains_iff.mpr hid)) hg

theorem succeeds_expand {onward : Onward} {p : Path} {rest : List Path} {g : Growth}
    {found : List Dependency × String} (hfound : s.Analysed fits p found)
    (honward : ∀ files, Succeeds fits ids (onward (found.1.map Dependency.path ++ rest)
      ((g.addFiles files).addModule (s.moduleOf name p found)))) :
    Succeeds fits ids (expand s name onward p rest g) := by
  obtain ⟨a, ha, ho⟩ := hfound.exists_analyse
  obtain ⟨g', hg', hids⟩ := honward a.files
  refine ⟨g', Dialogue.endsIn_bind.mpr ⟨a, ha, ?_⟩, hids⟩
  simp only [ho]
  exact hg'

/-- **Among files that can be analysed there is only room to run out of.** -/
theorem succeeds_grow (hclosed : s.Closed fits P ids) (name : String) (limit : Nat) {room : Nat}
    {paths : List Path} (hpaths : ∀ p ∈ paths, P p) {g : Growth} (hg : g.graph.HasRoom ids room) :
    Succeeds fits ids (grow s name limit room paths g) := by
  induction room generalizing paths g with
  | zero =>
    refine succeeds_walk (fun p rest g hp _ hnew hg => ?_) hpaths hg
    exact absurd (hg.mem_ids (hclosed.mem_ids p hp)) hnew
  | succ room ih =>
    refine succeeds_walk (fun p rest g hp hrest hnew hg => ?_) hpaths hg
    obtain ⟨found, hfound, hdeps⟩ := hclosed.analysed p hp
    refine succeeds_expand hfound fun files => ih (fun q hq => ?_) ?_
    · rcases List.mem_append.mp hq with hq | hq
      · obtain ⟨d, hd, rfl⟩ := List.mem_map.mp hq
        exact hdeps d hd
      · exact hrest q hq
    · exact hg.insert hnew (hclosed.mem_ids p hp)

theorem exists_buildEntry (hclosed : s.Closed fits P ids) (hlimit : ids.length ≤ limit)
    (name : String) {specifier : String} {p : Path} (hp : P p)
    (hresolved : (resolve s.extensions s.root specifier none).EndsIn fits (.ok p)) {g : Growth}
    (hg : g.graph.ids ⊆ ids) :
    ∃ g', (buildEntry s limit name specifier g).EndsIn fits (.ok (s.idOf p), g') ∧
      g'.graph.ids ⊆ ids := by
  have hroom : g.graph.HasRoom ids (limit - g.graph.size) := ⟨hg, by omega⟩
  obtain ⟨g', hgrow, hids⟩ :=
    succeeds_grow hclosed name limit (fun q hq => List.mem_singleton.mp hq ▸ hp) hroom
  refine ⟨g', Dialogue.endsIn_bind.mpr ⟨.ok p, hresolved, ?_⟩, hids⟩
  exact Dialogue.endsIn_bind.mpr ⟨(none, g'), hgrow, .done _⟩

/-- **Entries among files that can be analysed are built.** -/
theorem exists_buildEntries (hclosed : s.Closed fits P ids) (hlimit : ids.length ≤ limit)
    {entries : List (String × String)}
    (hentries : ∀ e ∈ entries, ∃ p, P p ∧
      (resolve s.extensions s.root e.2 none).EndsIn fits (.ok p)) {g : Growth}
    (hg : g.graph.ids ⊆ ids) :
    ∃ built g', (buildEntries s limit entries g).EndsIn fits (.ok built, g') ∧
      g'.graph.ids ⊆ ids := by
  induction entries generalizing g with
  | nil => exact ⟨[], g, .done _, hg⟩
  | cons e entries ih =>
    obtain ⟨⟨p, hp, hresolved⟩, hothers⟩ := List.forall_mem_cons.mp hentries
    obtain ⟨g₁, hfirst, hg₁⟩ := exists_buildEntry hclosed hlimit e.1 hp hresolved hg
    obtain ⟨built, g₂, hrest, hg₂⟩ := ih hothers hg₁
    refine ⟨(e.1, s.idOf p) :: built, g₂, Dialogue.endsIn_bind.mpr ⟨_, hfirst, ?_⟩, hg₂⟩
    exact Dialogue.endsIn_bind.mpr ⟨_, hrest, .done _⟩

end

/-! ## no bound -/

/-- a file does not fail for want of room -/
theorem Settings.outcome_ne_tooManyModules {p : Path} {a : Analysis}
    (ha : (s.analyse p).EndsIn fits a) (l : Nat) : a.outcome ≠ .error (.tooManyModules l) :=
  fun ho => by cases (failsOn_of_analyse ha ho).blamed

theorem Grows.ne_tooManyModules {paths : List Path} {g : Growth} {r : Grown}
    (h : Grows s fits name False paths g r) (l : Nat) : r.1 ≠ some (.tooManyModules l) := by
  induction h with
  | done => exact nofun
  | known _ _ ih => exact ih
  | fresh _ _ _ _ ih => exact ih
  | failed _ ha he =>
    rintro ⟨⟩
    exact Settings.outcome_ne_tooManyModules ha l he
  | full hcut => exact hcut.elim

/-- some room is enough, and so is all beyond it -/
theorem Grows.exists_room {paths : List Path} {g : Growth} {r : Grown}
    (h : Grows s fits name False paths g r) :
    ∃ room, ∀ limit room', room ≤ room' → (grow s name limit room' paths g).EndsIn fits r := by
  have hgrow : ∀ limit room', ∃ unknown, grow s name limit room' = walk s name unknown := by
    intro limit room'
    cases room' <;> exact ⟨_, rfl⟩
  have hunknown : ∀ {p rest} {g : Growth}, s.idOf p ∉ g.graph.ids → ∀ unknown,
      walk s name unknown (p :: rest) g = unknown p rest g :=
    fun hid unknown => if_neg fun hc => hid (ModuleGraph.contains_iff.mp hc)
  induction h with
  | done g =>
    refine ⟨0, fun limit room' _ => ?_⟩
    obtain ⟨unknown, hwalk⟩ := hgrow limit room'
    rw [hwalk]
    exact .done _
  | @known p rest g r hid _ ih =>
    obtain ⟨room, hroom⟩ := ih
    refine ⟨room, fun limit room' hle => ?_⟩
    have hrest := hroom limit room' hle
    obtain ⟨unknown, hwalk⟩ := hgrow limit room'
    rw [hwalk] at hrest ⊢
    unfold walk
    rw [if_pos (ModuleGraph.contains_iff.mpr hid)]
    exact hrest
  | @fresh p rest g r a found hid ha hfound _ ih =>
    obtain ⟨room, hroom⟩ := ih
    refine ⟨room + 1, fun limit room' hle => ?_⟩
    obtain ⟨room', rfl⟩ : ∃ n, room' = n + 1 := ⟨room' - 1, by omega⟩
    rw [grow, hunknown hid]
    refine Dialogue.endsIn_bind.mpr ⟨a, ha, ?_⟩
    simp only [hfound]
    exact hroom limit room' (Nat.le_of_succ_le_succ hle)
  | @failed p rest g a e hid ha he =>
    refine ⟨1, fun limit room' hle => ?_⟩
    obtain ⟨room', rfl⟩ : ∃ n, room' = n + 1 := ⟨room' - 1, by omega⟩
    rw [grow, hunknown hid]
    refine Dialogue.endsIn_bind.mpr ⟨a, ha, ?_⟩
    simp only [he]
    exact .done _
  | full hcut => exact hcut.elim

/-- **Growing without a bound is growing that has room.** -/
theorem grows_iff_exists_room {paths : List Path} {g : Growth} {r : Grown} :
    Grows s fits name False paths g r ↔
      (∃ limit room, (grow s name limit room paths g).EndsIn fits r) ∧
        ∀ l, r.1 ≠ some (.tooManyModules l) := by
  constructor
  · intro h
    obtain ⟨room, hroom⟩ := h.exists_room
    exact ⟨⟨room, room, hroom room room (Nat.le_refl _)⟩, h.ne_tooManyModules⟩
  · rintro ⟨⟨limit, room, h⟩, hroom⟩
    exact (grows_of_grow h).uncut hroom

/-! ## no more modules than there is room for -/

/-- growing takes up no more than the room, and fails for want of room when all is taken up -/
structure Fills (limit room : Nat) (g : ModuleGraph) (r : Grown) : Prop where
  size_le : r.2.graph.size ≤ g.size + room
  size_eq : ∀ limit', r.1 = some (.tooManyModules limit') →
    limit' = limit ∧ r.2.graph.size = g.size + room

theorem Fills.of_join {room : Nat} {g : ModuleGraph} {r : Grown} {pending : List ModuleId}
    (h : Fills limit room (g.join name pending) r) : Fills limit room g r := by
  obtain ⟨hle, heq⟩ := h
  rw [ModuleGraph.size_join] at hle heq
  exact ⟨hle, heq⟩

theorem fills_of_grow {room : Nat} {paths : List Path} {g : Growth} {r : Grown}
    (h : (grow s name limit room paths g).EndsIn fits r) : Fills limit room g.graph r := by
  induction room generalizing paths g r with
  | zero =>
    refine walk_induct (Q := fun _ g r => Fills limit 0 g.graph r)
      (fun g => ⟨Nat.le_refl _, fun _ he => by cases he⟩) (fun _ _ _ _ _ hrest => hrest.of_join)
      (fun p rest g r _ hend => ?_) h
    rw [Dialogue.endsIn_done.mp hend]
    refine ⟨Nat.le_refl _, fun limit' he => ?_⟩
    cases he
    exact ⟨rfl, rfl⟩
  | succ room ih =>
    refine walk_induct (Q := fun _ g r => Fills limit (room + 1) g.graph r)
      (fun g => ⟨Nat.le_add_right _ _, fun _ he => by cases he⟩)
      (fun _ _ _ _ _ hrest => hrest.of_join) (fun p rest g r hid hend => ?_) h
    obtain ⟨a, ha, hend⟩ := Dialogue.endsIn_bind.mp hend
    cases ho : a.outcome with
    | error e =>
      simp only [ho] at hend
      rw [Dialogue.endsIn_done.mp hend]
      refine ⟨Nat.le_add_right _ _, fun limit' he => ?_⟩
      cases he
      exact absurd ho (Settings.outcome_ne_tooManyModules ha limit')
    | ok found =>
      simp only [ho] at hend
      obtain ⟨hle, heq⟩ := ih hend
      rw [Growth.graph_addModule, Growth.graph_addFiles, ModuleGraph.size_insert hid] at hle heq
      refine ⟨by omega, fun limit' he => ?_⟩
      obtain ⟨hlimit, hfull⟩ := heq limit' he
      exact ⟨hlimit, by omega⟩

theorem size_le_of_buildEntry {specifier : String} {g g' : Growth}
    {result : Except BuildError ModuleId}
    (h : (buildEntry s limit name specifier g).EndsIn fits (result, g'))
    (hg : g.graph.size ≤ limit) : g'.graph.size ≤ limit := by
  obtain ⟨resolved, -, h⟩ := Dialogue.endsIn_bind.mp h
  cases resolved with
  | error e =>
    cases Dialogue.endsIn_done.mp h
    exact hg
  | ok p =>
    obtain ⟨⟨failure, g₁⟩, hgrow, h⟩ := Dialogue.endsIn_bind.mp h
    have hsize : g₁.graph.size ≤ g.graph.size + (limit - g.graph.size) := (fills_of_grow hgrow).size_le
    cases failure with
    | none =>
      cases Dialogue.endsIn_done.mp h
      omega
    | some e =>
      cases Dialogue.endsIn_done.mp h
      omega

theorem size_le_of_buildEntries {entries : List (String × String)}
    {built : List (String × ModuleId)} {g g' : Growth}
    (h : (buildEntries s limit entries g).EndsIn fits (.ok built, g'))
    (hg : g.graph.size ≤ limit) : g'.graph.size ≤ limit := by
  induction entries generalizing built g with
  | nil =>
    cases Dialogue.endsIn_done.mp h
    exact hg
  | cons e entries ih =>
    obtain ⟨id, g₁, rest, hfirst, hrest, rfl⟩ := buildEntries_cons h
    exact ih hrest (size_le_of_buildEntry hfirst hg)

/-! ## files -/

/-- the files of a growth are those of its modules, and all of one kind -/
structure Growth.FiledIn (P : Path → Prop) (g : Growth) : Prop where
  within : ∀ p ∈ g.files, P p
  mem_files : ∀ p, p ∈ g.files ↔ ∃ m ∈ g.graph.modules, p ∈ m.files

namespace Growth.FiledIn

variable {P : Path → Prop} {g : Growth}

theorem empty : ({} : Growth).FiledIn P :=
  ⟨fun _ hp => absurd hp List.not_mem_nil,
    fun _ => ⟨fun hp => absurd hp List.not_mem_nil, fun ⟨_, hm, _⟩ => absurd hm List.not_mem_nil⟩⟩

theorem path (h : g.FiledIn P) {m : Module} (hm : m ∈ g.graph.modules) : P m.path :=
  h.within _ ((h.mem_files _).mpr ⟨m, hm, List.mem_cons_self⟩)

theorem dependency (h : g.FiledIn P) {m : Module} (hm : m ∈ g.graph.modules) {d : Dependency}
    (hd : d ∈ m.dependencies) : P d.path :=
  h.within _ ((h.mem_files _).mpr ⟨m, hm, List.mem_cons_of_mem _ (List.mem_map_of_mem hd)⟩)

theorem join (h : g.FiledIn P) (id : ModuleId) : (g.join name id).FiledIn P :=
  ⟨h.within, fun p => (h.mem_files p).trans (ModuleGraph.mem_files_join [id] p).symm⟩

variable (hP : ∀ p, P p → p.IsPlain)

include hP

theorem mem_addFiles {paths : List Path} (hpaths : ∀ p ∈ paths, P p) (hg : ∀ p ∈ g.files, P p)
    (p : Path) : p ∈ (g.addFiles paths).files ↔ p ∈ g.files ∨ p ∈ paths := by
  refine ⟨mem_of_mem_addFiles, fun hp => ?_⟩
  rcases hp with hp | hp
  · exact (sublist_addFiles g paths).subset hp
  · -- a plain path has one spelling only
    obtain ⟨q, hq, he⟩ := exists_mem_addFiles (g := g) hp
    have hqP : P q := (mem_of_mem_addFiles hq).elim (hg q) (hpaths q)
    rwa [← (hP q hqP).eq_of_components (hP p (hpaths p hp)) he]

/-- the files of a new module are added with it -/
theorem add (h : g.FiledIn P) {m : Module} (hnew : m.id ∉ g.graph.ids)
    (hm : ∀ p ∈ m.files, P p) : ((g.addFiles m.files).addModule m).FiledIn P := by
  have hmem := mem_addFiles hP hm h.within
  constructor
  · intro p hp
    rcases (hmem p).mp hp with hp | hp
    · exact h.within p hp
    · exact hm p hp
  · intro p
    rw [Growth.graph_addModule, Growth.graph_addFiles, ModuleGraph.modules_insert hnew]
    refine (hmem p).trans ?_
    rw [h.mem_files p]
    simp [or_and_right, exists_or]

end Growth.FiledIn

namespace ModuleGraph

/-- every module is there again, perhaps with other chunks -/
def Keeps (g g' : ModuleGraph) : Prop :=
  ∀ m ∈ g.modules, ∃ m' ∈ g'.modules, m'.path = m.path ∧ m'.dependencies = m.dependencies ∧
    m'.source = m.source

theorem Keeps.refl (g : ModuleGraph) : g.Keeps g := fun m hm => ⟨m, hm, rfl, rfl, rfl⟩

theorem Keeps.trans {g g' g'' : ModuleGraph} (h : g.Keeps g') (h' : g'.Keeps g'') : g.Keeps g'' := by
  intro m hm
  obtain ⟨m', hm', hpath, hdeps, hsource⟩ := h m hm
  obtain ⟨m'', hm'', hpath', hdeps', hsource'⟩ := h' m' hm'
  exact ⟨m'', hm'', hpath'.trans hpath, hdeps'.trans hdeps, hsource'.trans hsource⟩

theorem Extends.keeps {g g' : ModuleGraph} (h : Extends name g g') : g.Keeps g' := by
  intro m hm
  obtain ⟨m', hm', rfl | ⟨-, rfl⟩⟩ := h.kept m hm
  · exact ⟨m', hm', rfl, rfl, rfl⟩
  · exact ⟨_, hm', rfl, rfl, rfl⟩

end ModuleGraph

theorem keeps_of_buildEntries {entries : List (String × String)}
    {built : List (String × ModuleId)} {g g' : Growth}
    (h : (buildEntries s limit entries g).EndsIn fits (.ok built, g')) :
    g.graph.Keeps g'.graph := by
  induction entries generalizing built g with
  | nil =>
    cases Dialogue.endsIn_done.mp h
    exact .refl _
  | cons e entries ih =>
    obtain ⟨id, g₁, rest, hfirst, hrest, rfl⟩ := buildEntries_cons h
    obtain ⟨p, -, hgrow, -⟩ := grows_of_buildEntry hfirst
    have hext : ModuleGraph.Extends e.1 g.graph g₁.graph := hgrow.extends
    exact hext.keeps.trans (ih hrest)

/-- modules of the kind `P` depend on files of this kind only -/
def ModuleGraph.StaysIn (s : Settings) (fits : (q : Question) → q.Answer → Prop) (P : Path → Prop)
    (g : ModuleGraph) : Prop :=
  ∀ m ∈ g.modules, P m.path → s.Analysed fits m.path (m.dependencies, m.source) →
    ∀ d ∈ m.dependencies, P d.path

section

variable {P : Path → Prop} {g g' : Growth}

theorem ModuleGraph.StaysIn.of_keeps {g g' : ModuleGraph} (h : g'.StaysIn s fits P)
    (hkeeps : g.Keeps g') : g.StaysIn s fits P := by
  intro m hm hpath hanalysed d hd
  obtain ⟨m', hm', hpath', hdeps, hsource⟩ := hkeeps m hm
  refine h m' hm' (hpath' ▸ hpath) ?_ d (hdeps ▸ hd)
  rwa [hpath', hdeps, hsource]

/-- if the graph that growing ends in stays within a kind, what comes after a new module is of it -/
theorem Grows.next_of_staysIn {p : Path} {rest : List Path} {r : Grown} {a : Analysis}
    {found : List Dependency × String}
    (hrest : Grows s fits name cut (found.1.map Dependency.path ++ rest)
      ((g.addFiles a.files).addModule (s.moduleOf name p found)) r)
    (hid : s.idOf p ∉ g.graph.ids) (hfound : s.Analysed fits p found)
    (hstays : r.2.graph.StaysIn s fits P) (hpaths : ∀ q ∈ p :: rest, P q) :
    ∀ q ∈ found.1.map Dependency.path ++ rest, P q := by
  obtain ⟨hp, hothers⟩ := List.forall_mem_cons.mp hpaths
  have hmem : s.moduleOf name p found ∈ (g.graph.insert (s.moduleOf name p found)).modules :=
    ModuleGraph.mem_insert_self hid
  have hext : ModuleGraph.Extends name (g.graph.insert (s.moduleOf name p found)) r.2.graph :=
    hrest.extends
  have hdeps := hstays.of_keeps hext.keeps _ hmem hp hfound
  intro q hq
  rcases List.mem_append.mp hq with hq | hq
  · obtain ⟨d, hd, rfl⟩ := List.mem_map.mp hq
    exact hdeps d hd
  · exact hothers q hq

variable (hP : ∀ p, P p → p.IsPlain)

include hP

/-- **All files that growing comes to are of one kind**, if those it begins with are, and those that
modules of this kind depend on. -/
theorem Grows.filedIn {paths : List Path} {r : Grown} (h : Grows s fits name cut paths g r)
    (hr : r.1 = none) (hstays : r.2.graph.StaysIn s fits P) (hpaths : ∀ p ∈ paths, P p)
    (hg : g.FiledIn P) : r.2.FiledIn P := by
  induction h with
  | done => exact hg
  | known _ _ ih => exact ih hr hstays (List.forall_mem_cons.mp hpaths).2 (hg.join _)
  | @fresh p rest g r a found hid ha hfound hrest ih =>
    obtain ⟨hanalysed, hfiles⟩ := Settings.analysed_and_files_of_analyse ha hfound
    have hnext := hrest.next_of_staysIn hid hanalysed hstays hpaths
    refine ih hr hstays hnext ?_
    rw [hfiles]
    refine hg.add hP (m := s.moduleOf name p found) hid (List.forall_mem_cons.mpr ⟨?_, ?_⟩)
    · exact hpaths p List.mem_cons_self
    · exact fun q hq => hnext q (List.mem_append_left _ hq)
  | failed => cases hr
  | full => cases hr

theorem filedIn_of_buildEntries {entries : List (String × String)}
    {built : List (String × ModuleId)}
    (h : (buildEntries s limit entries g).EndsIn fits (.ok built, g'))
    (hentries : ∀ e ∈ entries, ∀ p,
      (resolve s.extensions s.root e.2 none).EndsIn fits (.ok p) → P p)
    (hstays : g'.graph.StaysIn s fits P) (hg : g.FiledIn P) : g'.FiledIn P := by
  induction entries generalizing built g with
  | nil =>
    cases Dialogue.endsIn_done.mp h
    exact hg
  | cons e entries ih =>
    obtain ⟨id, g₁, rest, hfirst, hrest, rfl⟩ := buildEntries_cons h
    obtain ⟨hentry, hothers⟩ := List.forall_mem_cons.mp hentries
    obtain ⟨p, hp, hgrow, rfl⟩ := grows_of_buildEntry hfirst
    refine ih hrest hothers (hgrow.filedIn hP rfl ?_ (fun q hq => ?_) hg)
    · exact hstays.of_keeps (keeps_of_buildEntries hrest)
    · exact List.mem_singleton.mp hq ▸ hentry p hp

end

/-! ## plain files -/

/-- the root is absolute, and no extension leads to another directory -/
structure Settings.KeepsPlain (s : Settings) : Prop where
  root : s.root.isAbsolute = true
  extensions : ∀ e ∈ s.extensions, Path.IsSuffix e

namespace Settings.KeepsPlain

variable {p : Path}

theorem resolved (hs : s.KeepsPlain) {base : Path} (hbase : base.isAbsolute = true)
    {specifier : String} {importer : Option ModuleId}
    (h : (resolve s.extensions base specifier importer).EndsIn fits (.ok p)) : p.IsPlain :=
  Path.isPlain_of_mem_candidates hbase hs.extensions (mem_candidates_of_resolve h)

theorem directory (hs : s.KeepsPlain) (hp : p.IsPlain) :
    (p.parent?.getD s.root).isAbsolute = true :=
  Path.isAbsolute_directory hs.root hp.isAbsolute

/-- a module with a plain path depends on plain paths -/
theorem analysed (hs : s.KeepsPlain) (hp : p.IsPlain) {found : List Dependency × String}
    (h : s.Analysed fits p found) : ∀ d ∈ found.1, d.path.IsPlain := by
  obtain ⟨raw, source, tree, x, -, -, -, hx, hok, rfl⟩ := h
  obtain ⟨pairs, -, hdeps, -, hfinds⟩ := pairs_of_extract hx hok
  intro d hd
  obtain ⟨f, hf, rfl⟩ := List.mem_map.mp (hdeps ▸ hd)
  exact hs.resolved (hs.directory hp) (hfinds f hf).resolved

theorem filedIn (hs : s.KeepsPlain) {entries : List (String × String)}
    {built : List (String × ModuleId)} {g : Growth}
    (h : (buildEntries s limit entries {}).EndsIn fits (.ok built, g)) : g.FiledIn Path.IsPlain :=
  filedIn_of_buildEntries (fun _ hp => hp) h (fun _ _ _ hp => hs.resolved hs.root hp)
    (fun _ _ hp hanalysed => hs.analysed hp hanalysed) .empty

end Settings.KeepsPlain

end Bindle
