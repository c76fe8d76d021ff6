import Bindle.Proofs.Graph.Growth
import Bindle.Proofs.Path.Plain

/-!
# The files of a growth

A growth keeps the files that it was made from in an ordered list, each place once, in the spelling in
which it came first.

* `Module.files`    the files that a module was found with;
* `Growth.Filed`    the files of a growth are those of its modules.

Growing adds files and takes none away (`Grows.sublist_files`), and when it goes well they are those
of the modules (`filed_of_buildEntries`).
-/

namespace Bindle

variable {s : Settings} {fits : (q : Question) → q.Answer → Prop} {name : String} {limit : Nat}
  {cut : Prop}

/-! ## ordered lists -/

theorem Path.sublist_insertSorted (p : Path) (ps : List Path) : ps.Sublist (insertSorted p ps) := by
  induction ps with
  | nil => exact List.nil_sublist _
  | cons q ps ih =>
    unfold insertSorted
    split
    · exact List.sublist_cons_self _ _
    · exact List.Sublist.refl _
    · exact ih.cons_cons q

theorem Path.mem_of_mem_insertSorted {p q : Path} {ps : List Path} (h : q ∈ insertSorted p ps) :
    q = p ∨ q ∈ ps := by
  induction ps with
  | nil => exact .inl (List.mem_singleton.mp h)
  | cons r ps ih =>
    unfold insertSorted at h
    split at h
    · exact List.mem_cons.mp h
    · exact .inr h
    · rcases List.mem_cons.mp h with rfl | h
      · exact .inr List.mem_cons_self
      · exact (ih h).imp_right (List.mem_cons_of_mem r)

/-- a place is in the list after it was added, perhaps in another spelling -/
theorem Path.exists_mem_insertSorted (p : Path) (ps : List Path) :
    ∃ q ∈ insertSorted p ps, q.components = p.components := by
  induction ps with
  | nil => exact ⟨p, List.mem_singleton_self p, rfl⟩
  | cons r ps ih =>
    unfold insertSorted
    split
    · exact ⟨p, List.mem_cons_self, rfl⟩
    · rename_i heq
      exact ⟨r, List.mem_cons_self, (eq_of_compareComponents heq).symm⟩
    · obtain ⟨q, hq, he⟩ := ih
      exact ⟨q, List.mem_cons_of_mem r hq, he⟩

/-! ## files that are added -/

namespace Growth

theorem sublist_addFiles (g : Growth) (paths : List Path) :
    g.files.Sublist (g.addFiles paths).files := by
  induction paths generalizing g with
  | nil => exact List.Sublist.refl _
  | cons p paths ih =>
    have hfirst : g.files.Sublist (Path.insertSorted p g.files) := Path.sublist_insertSorted p g.files
    exact hfirst.trans (ih { g with files := Path.insertSorted p g.files })

variable {g : Growth} {paths : List Path}

theorem mem_of_mem_addFiles {q : Path} (h : q ∈ (g.addFiles paths).files) :
    q ∈ g.files ∨ q ∈ paths := by
  induction paths generalizing g with
  | nil => exact .inl h
  | cons p paths ih =>
    have hrest : q ∈ Path.insertSorted p g.files ∨ q ∈ paths :=
      ih (g := { g with files := Path.insertSorted p g.files }) h
    rcases hrest with hq | hq
    · rcases Path.mem_of_mem_insertSorted hq with rfl | hq
      · exact .inr List.mem_cons_self
      · exact .inl hq
    · exact .inr (List.mem_cons_of_mem p hq)

theorem exists_mem_addFiles {p : Path} (hp : p ∈ paths) :
    ∃ q ∈ (g.addFiles paths).files, q.components = p.components := by
  induction paths generalizing g with
  | nil => exact absurd hp List.not_mem_nil
  | cons r paths ih =>
    rcases List.mem_cons.mp hp with rfl | hp
    · obtain ⟨q, hq, he⟩ := Path.exists_mem_insertSorted p g.files
      have hkept := sublist_addFiles { g with files := Path.insertSorted p g.files } paths
      exact ⟨q, hkept.subset hq, he⟩
    · exact ih (g := { g with files := Path.insertSorted r g.files }) hp

end Growth

theorem Grows.sublist_files {paths : List Path} {g : Growth} {r : Grown}
    (h : Grows s fits name cut paths g r) : g.files.Sublist r.2.files := by
  induction h with
  | done => exact List.Sublist.refl _
  | known _ _ ih => exact ih
  | fresh _ _ _ _ ih => exact (Growth.sublist_addFiles _ _).trans ih
  | failed => exact Growth.sublist_addFiles _ _
  | full => exact List.Sublist.refl _

/-! ## files of modules -/

/-- the files that a module was found with -/
def Module.files (m : Module) : List Path := m.path :: m.dependencies.map Dependency.path

theorem ModuleGraph.mem_files_join {g : ModuleGraph} (pending : List ModuleId) (p : Path) :
    (∃ m ∈ (g.join name pending).modules, p ∈ m.files) ↔ ∃ m ∈ g.modules, p ∈ m.files := by
  have hfiles : ∀ g : ModuleGraph,
      (∃ m ∈ g.modules, p ∈ m.files) ↔ ∃ ps ∈ g.modules.map Module.files, p ∈ ps := by
    intro g
    simp only [List.mem_map, exists_exists_and_eq_and]
  rw [hfiles, map_join fun _ => rfl, ← hfiles]

/-- the files of a growth are those of its modules, each in some spelling -/
structure Growth.Filed (g : Growth) : Prop where
  within : ∀ p ∈ g.files, ∃ m ∈ g.graph.modules, p ∈ m.files
  covers : ∀ p, (∃ m ∈ g.graph.modules, p ∈ m.files) → ∃ q ∈ g.files, q.components = p.components

namespace Growth

variable {g : Growth}

theorem Filed.empty : ({} : Growth).Filed :=
  ⟨fun _ hp => absurd hp List.not_mem_nil, fun _ ⟨_, hm, _⟩ => absurd hm List.not_mem_nil⟩

theorem Filed.join (h : g.Filed) (id : ModuleId) : (g.join name id).Filed :=
  ⟨fun p hp => (ModuleGraph.mem_files_join [id] p).mpr (h.within p hp),
    fun p hp => h.covers p ((ModuleGraph.mem_files_join [id] p).mp hp)⟩

/-- the files of a new module are added with it -/
theorem Filed.add (h : g.Filed) {m : Module} (hnew : m.id ∉ g.graph.ids) :
    ((g.addFiles m.files).addModule m).Filed := by
  have hmodules : ((g.addFiles m.files).addModule m).graph.modules = g.graph.modules ++ [m] :=
    ModuleGraph.modules_insert hnew
  constructor
  · intro p hp
    rw [hmodules]
    rcases mem_of_mem_addFiles hp with hp | hp
    · obtain ⟨m', hm', hp⟩ := h.within p hp
      exact ⟨m', List.mem_append_left _ hm', hp⟩
    · exact ⟨m, List.mem_append_right _ List.mem_cons_self, hp⟩
  · rintro p ⟨m', hm', hp⟩
    rw [hmodules] at hm'
    rcases List.mem_append.mp hm' with hm' | hm'
    · obtain ⟨q, hq, he⟩ := h.covers p ⟨m', hm', hp⟩
      exact ⟨q, (sublist_addFiles g m.files).subset hq, he⟩
    · rw [List.mem_singleton.mp hm'] at hp
      exact exists_mem_addFiles hp

end Growth

theorem Grows.filed {paths : List Path} {g : Growth} {r : Grown}
    (h : Grows s fits name cut paths g r) (hr : r.1 = none) (hg : g.Filed) : r.2.Filed := by
  induction h with
  | done => exact hg
  | known _ _ ih => exact ih hr (hg.join _)
  | @fresh p rest g r a found hid ha hfound _ ih =>
    have hfiles : a.files = (s.moduleOf name p found).files :=
      (Settings.analysed_and_files_of_analyse ha hfound).2
    refine ih hr ?_
    rw [hfiles]
    exact hg.add hid
  | failed => cases hr
  | full => cases hr

theorem filed_of_buildEntries {entries : List (String × String)}
    {built : List (String × ModuleId)} {g g' : Growth}
    (h : (buildEntries s limit entries g).EndsIn fits (.ok built, g')) (hg : g.Filed) :
    g'.Filed := by
  induction entries generalizing built g with
  | nil =>
    cases Dialogue.endsIn_done.mp h
    exact hg
  | cons e entries ih =>
    obtain ⟨id, g₁, rest, hfirst, hrest, rfl⟩ := buildEntries_cons h
    obtain ⟨p, -, hgrow, -⟩ := grows_of_buildEntry hfirst
    exact ih hrest (hgrow.filed rfl hg)

end Bindle
