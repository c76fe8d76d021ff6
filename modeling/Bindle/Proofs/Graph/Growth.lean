import Bindle.Graph.Grow
import Bindle.Proofs.Build.Extract
import Bindle.Proofs.Graph.Reach

/-!
# What growing does to a graph

* `Grows s fits name cut paths g r`   going through `paths` for the chunk `name` takes `g` to the end `r`:
                                      one rule for each thing that can happen to the first path;
* `Extends name g g'`                 what a chunk can have done to a graph: modules were added that are
                                      in this chunk only, and some have entered it.

Where `cut` is false this is the recursion without a bound; where it is true it may be cut off for want
of room.  Every way of growing is a `Grows` (`grows_of_grow`), without a cut if it had room
(`Grows.uncut`), and every `Grows` extends the graph (`Grows.extends`), whether it ends well or not.
-/

namespace Bindle

/-! ## entering a chunk -/

def Module.Enters (name : String) (m m' : Module) : Prop :=
  m' = m ∨ name ∉ m.chunkNames ∧ m' = m.addChunk name

namespace Module.Enters

variable {name : String} {m m' m'' : Module}

theorem refl (m : Module) : m.Enters name m := .inl rfl

theorem id_eq (h : m.Enters name m') : m'.id = m.id := by
  rcases h with rfl | ⟨-, rfl⟩ <;> rfl

theorem dependencyIds_eq (h : m.Enters name m') : m'.dependencyIds = m.dependencyIds := by
  rcases h with rfl | ⟨-, rfl⟩ <;> rfl

theorem chunkNames_subset (h : m.Enters name m') : m.chunkNames ⊆ m'.chunkNames := by
  rcases h with rfl | ⟨-, rfl⟩
  · exact List.Subset.refl _
  · exact List.subset_append_left _ _

theorem trans (h : m.Enters name m') (h' : m'.Enters name m'') : m.Enters name m'' := by
  rcases h with rfl | ⟨hout, rfl⟩
  · exact h'
  · rcases h' with rfl | ⟨hout', -⟩
    · exact .inr ⟨hout, rfl⟩
    · exact absurd (List.mem_append_right _ List.mem_cons_self) hout'

/-- a module of one chunk has nothing left to enter -/
theorem eq_of_chunkNames (h : m.Enters name m') (hm : m.chunkNames = [name]) : m' = m := by
  rcases h with rfl | ⟨hout, -⟩
  · rfl
  · rw [hm] at hout
    exact absurd List.mem_cons_self hout

end Module.Enters

namespace ModuleGraph

structure Extends (name : String) (g g' : ModuleGraph) : Prop where
  kept : ∀ m ∈ g.modules, ∃ m' ∈ g'.modules, m.Enters name m'
  origin : ∀ m' ∈ g'.modules,
    (∃ m ∈ g.modules, m.Enters name m') ∨ m'.id ∉ g.ids ∧ m'.chunkNames = [name]

namespace Extends

variable {name n : String} {g g' g'' : ModuleGraph} {a b : ModuleId}

theorem refl (g : ModuleGraph) : Extends name g g :=
  ⟨fun m hm => ⟨m, hm, .refl m⟩, fun m hm => .inl ⟨m, hm, .refl m⟩⟩

theorem ids_subset (h : Extends name g g') : g.ids ⊆ g'.ids := by
  intro a ha
  obtain ⟨m, hm, rfl⟩ := mem_ids.mp ha
  obtain ⟨m', hm', hent⟩ := h.kept m hm
  exact mem_ids.mpr ⟨m', hm', hent.id_eq⟩

theorem trans (h : Extends name g g') (h' : Extends name g' g'') : Extends name g g'' := by
  constructor
  · intro m hm
    obtain ⟨m', hm', hent⟩ := h.kept m hm
    obtain ⟨m'', hm'', hent'⟩ := h'.kept m' hm'
    exact ⟨m'', hm'', hent.trans hent'⟩
  · intro m'' hm''
    rcases h'.origin m'' hm'' with ⟨m', hm', hent'⟩ | ⟨hnew, hnames⟩
    · rcases h.origin m' hm' with ⟨m, hm, hent⟩ | ⟨hnew, hnames⟩
      · exact .inl ⟨m, hm, hent.trans hent'⟩
      · rw [hent'.eq_of_chunkNames hnames]
        exact .inr ⟨hnew, hnames⟩
    · exact .inr ⟨fun ha => hnew (h.ids_subset ha), hnames⟩

theorem isIn (h : Extends name g g') (ha : g.IsIn n a) : g'.IsIn n a := by
  obtain ⟨m, hm, hid, hn⟩ := ha
  obtain ⟨m', hm', hent⟩ := h.kept m hm
  exact ⟨m', hm', hent.id_eq.trans hid, hent.chunkNames_subset hn⟩

theorem depends (h : Extends name g g') (hab : g.Depends a b) : g'.Depends a b := by
  obtain ⟨m, hm, hid, hb⟩ := hab
  obtain ⟨m', hm', hent⟩ := h.kept m hm
  exact ⟨m', hm', hent.id_eq.trans hid, hent.dependencyIds_eq ▸ hb⟩

theorem reaches (h : Extends name g g') (hab : g.Reaches a b) : g'.Reaches a b :=
  Relation.ReflTransGen.mono (fun _ _ => h.depends) _ _ hab

/-- the module behind a known id is an old one -/
theorem origin_of_mem_ids (h : Extends name g g') {m' : Module} (hm' : m' ∈ g'.modules)
    (hid : m'.id ∈ g.ids) : ∃ m ∈ g.modules, m.Enters name m' :=
  (h.origin m' hm').resolve_right (fun hnew => hnew.1 hid)

/-- known modules get no new dependencies -/
theorem depends_of_mem_ids (h : Extends name g g') (ha : a ∈ g.ids) (hab : g'.Depends a b) :
    g.Depends a b := by
  obtain ⟨m', hm', rfl, hb⟩ := hab
  obtain ⟨m, hm, hent⟩ := h.origin_of_mem_ids hm' ha
  exact ⟨m, hm, hent.id_eq.symm, hent.dependencyIds_eq ▸ hb⟩

theorem of_join (g : ModuleGraph) (name : String) (pending : List ModuleId) :
    Extends name g (g.join name pending) := by
  have henters : ∀ m ∈ g.modules, m.Enters name (g.joined name pending m) := by
    intro m hm
    by_cases h : ∃ id ∈ pending, g.Leads name id m.id
    · obtain ⟨id, hid, hlead⟩ := h
      obtain ⟨m', hm', he, hout⟩ := hlead.isOutside
      rw [eq_of_id_eq hm' hm he] at hout
      exact .inr ⟨hout, joined_of_leads ⟨id, hid, hlead⟩⟩
    · exact .inl (joined_of_not_leads h)
  constructor
  · intro m hm
    refine ⟨_, ?_, henters m hm⟩
    rw [modules_join]
    exact List.mem_map_of_mem hm
  · intro m' hm'
    rw [modules_join] at hm'
    obtain ⟨m, hm, rfl⟩ := List.mem_map.mp hm'
    exact .inl ⟨m, hm, henters m hm⟩

theorem of_insert {m : Module} (h : m.id ∉ g.ids) (hm : m.chunkNames = [name]) :
    Extends name g (g.insert m) := by
  constructor
  · intro m' hm'
    refine ⟨m', ?_, .refl m'⟩
    rw [modules_insert h]
    exact List.mem_append_left _ hm'
  · intro m' hm'
    rw [modules_insert h] at hm'
    rcases List.mem_append.mp hm' with hm' | hm'
    · exact .inl ⟨m', hm', .refl m'⟩
    · rw [List.mem_singleton.mp hm']
      exact .inr ⟨h, hm⟩

end Extends

end ModuleGraph

/-! ## growing, path by path -/

section

variable (s : Settings) (fits : (q : Question) → q.Answer → Prop) (name : String) (cut : Prop)

inductive Grows : List Path → Growth → Grown → Prop where
  | done (g : Growth) : Grows [] g (none, g)
  /-- a module that is there joins the chunk -/
  | known {p : Path} {rest : List Path} {g : Growth} {r : Grown} (hid : s.idOf p ∈ g.graph.ids)
      (hrest : Grows rest (g.join name (s.idOf p)) r) : Grows (p :: rest) g r
  /-- a module that is not there is added, and its dependencies come next -/
  | fresh {p : Path} {rest : List Path} {g : Growth} {r : Grown} {a : Analysis}
      {found : List Dependency × String} (hid : s.idOf p ∉ g.graph.ids)
      (ha : (s.analyse p).EndsIn fits a) (hfound : a.outcome = .ok found)
      (hrest : Grows (found.1.map Dependency.path ++ rest)
        ((g.addFiles a.files).addModule (s.moduleOf name p found)) r) : Grows (p :: rest) g r
  | failed {p : Path} {rest : List Path} {g : Growth} {a : Analysis} {e : BuildError}
      (hid : s.idOf p ∉ g.graph.ids) (ha : (s.analyse p).EndsIn fits a)
      (he : a.outcome = .error e) : Grows (p :: rest) g (some e, g.addFiles a.files)
  /-- there is no room for one more module -/
  | full {p : Path} {rest : List Path} {g : Growth} (hcut : cut) (hid : s.idOf p ∉ g.graph.ids)
      (limit : Nat) : Grows (p :: rest) g (some (.tooManyModules limit), g)

end

variable {s : Settings} {fits : (q : Question) → q.Answer → Prop} {name : String} {cut : Prop}

namespace Settings

/-- the file at `p` becomes a module with the dependencies and the text `found`: its text goes through
the rules and is parsed, and every call is resolved from the directory of the file -/
def Analysed (s : Settings) (fits : (q : Question) → q.Answer → Prop) (p : Path)
    (found : List Dependency × String) : Prop :=
  ∃ raw source tree x, fits (.text p) (.ok raw) ∧ Rule.load s.rules (s.idOf p) p raw = .ok source ∧
    fits (.parse source) (.ok tree) ∧
    (extract ⟨s.root, s.extensions, s.idOf p, p.parent?.getD s.root⟩ tree.calls).EndsIn fits x ∧
    x.failure = none ∧ found = (x.dependencies, tree.render x.calls)

/-- an analysis that goes well has found the file itself and those behind its dependencies -/
theorem analysed_and_files_of_analyse {p : Path} {a : Analysis} {found : List Dependency × String}
    (h : (s.analyse p).EndsIn fits a) (hfound : a.outcome = .ok found) :
    s.Analysed fits p found ∧ a.files = p :: found.1.map Dependency.path := by
  obtain ⟨text, htext, h⟩ := Dialogue.endsIn_bind.mp h
  cases text with
  | error e =>
    rw [Dialogue.endsIn_done.mp h] at hfound
    cases hfound
  | ok raw =>
    cases hload : Rule.load s.rules (s.idOf p) p raw with
    | error e =>
      simp only [hload] at h
      rw [Dialogue.endsIn_done.mp h] at hfound
      cases hfound
    | ok source =>
      simp only [hload] at h
      obtain ⟨parsed, hparsed, h⟩ := Dialogue.endsIn_bind.mp h
      cases parsed with
      | error e =>
        rw [Dialogue.endsIn_done.mp h] at hfound
        cases hfound
      | ok tree =>
        obtain ⟨x, hx, h⟩ := Dialogue.endsIn_bind.mp h
        cases hf : x.failure with
        | some e =>
          simp only [hf] at h
          rw [Dialogue.endsIn_done.mp h] at hfound
          cases hfound
        | none =>
          simp only [hf] at h
          obtain rfl := Dialogue.endsIn_done.mp h
          cases hfound
          exact ⟨⟨raw, source, tree, x, Dialogue.endsIn_answerTo.mp htext, hload,
            Dialogue.endsIn_answerTo.mp hparsed, hx, hf, rfl⟩, rfl⟩

theorem analysed_of_analyse {p : Path} {a : Analysis} {found : List Dependency × String}
    (h : (s.analyse p).EndsIn fits a) (hfound : a.outcome = .ok found) :
    s.Analysed fits p found := (analysed_and_files_of_analyse h hfound).1

theorem Analysed.exists_analyse {p : Path} {found : List Dependency × String}
    (h : s.Analysed fits p found) : ∃ a, (s.analyse p).EndsIn fits a ∧ a.outcome = .ok found := by
  obtain ⟨raw, source, tree, x, htext, hload, hparsed, hx, hok, rfl⟩ := h
  refine ⟨⟨p :: x.files, .ok (x.dependencies, tree.render x.calls)⟩, ?_, rfl⟩
  refine Dialogue.endsIn_bind.mpr ⟨.ok raw, Dialogue.endsIn_answerTo.mpr htext, ?_⟩
  simp only [hload]
  refine Dialogue.endsIn_bind.mpr ⟨.ok tree, Dialogue.endsIn_answerTo.mpr hparsed, ?_⟩
  refine Dialogue.endsIn_bind.mpr ⟨x, hx, ?_⟩
  simp only [hok]
  exact .done _

theorem Analysed.id_eq {p : Path} {found : List Dependency × String}
    (h : s.Analysed fits p found) {d : Dependency} (hd : d ∈ found.1) : d.id = s.idOf d.path := by
  obtain ⟨raw, source, tree, x, -, -, -, hx, hok, rfl⟩ := h
  obtain ⟨pairs, -, hdeps, -, hfinds⟩ := pairs_of_extract hx hok
  obtain ⟨f, hf, rfl⟩ := List.mem_map.mp (hdeps ▸ hd)
  exact (hfinds f hf).id_eq

end Settings

/-- what a walk does, it does path by path -/
theorem walk_induct {Q : List Path → Growth → Grown → Prop}
    {unknown : Path → List Path → Growth → Dialogue Grown} (hdone : ∀ g, Q [] g (none, g))
    (hknown : ∀ p rest g r, s.idOf p ∈ g.graph.ids → Q rest (g.join name (s.idOf p)) r →
      Q (p :: rest) g r)
    (hunknown : ∀ p rest g r, s.idOf p ∉ g.graph.ids → (unknown p rest g).EndsIn fits r →
      Q (p :: rest) g r)
    {paths : List Path} {g : Growth} {r : Grown} (h : (walk s name unknown paths g).EndsIn fits r) :
    Q paths g r := by
  induction paths generalizing g with
  | nil =>
    rw [Dialogue.endsIn_done.mp h]
    exact hdone g
  | cons p rest ih =>
    unfold walk at h
    split at h
    · rename_i hc
      exact hknown p rest g r (ModuleGraph.contains_iff.mp hc) (ih h)
    · rename_i hc
      exact hunknown p rest g r (fun hid => hc (ModuleGraph.contains_iff.mpr hid)) h

/-- walks that know the same ids and go on to the same end with what is unknown -/
theorem walk_congr {t : Settings} {unknown unknown' : Path → List Path → Growth → Dialogue Grown}
    {r : Grown} (hid : ∀ p, t.idOf p = s.idOf p)
    (hunknown : ∀ p rest g, (unknown p rest g).EndsIn fits r → (unknown' p rest g).EndsIn fits r)
    {paths : List Path} {g : Growth} (h : (walk s name unknown paths g).EndsIn fits r) :
    (walk t name unknown' paths g).EndsIn fits r := by
  induction paths generalizing g with
  | nil => exact h
  | cons p rest ih =>
    unfold walk at h ⊢
    rw [hid]
    split at h
    · rename_i hknown
      rw [if_pos hknown]
      exact ih h
    · rename_i hknown
      rw [if_neg hknown]
      exact hunknown p rest g h

theorem grows_of_expand {onward : Onward}
    (honward : ∀ paths g r, (onward paths g).EndsIn fits r → Grows s fits name cut paths g r)
    {p : Path} {rest : List Path} {g : Growth} {r : Grown} (hid : s.idOf p ∉ g.graph.ids)
    (h : (expand s name onward p rest g).EndsIn fits r) :
    Grows s fits name cut (p :: rest) g r := by
  obtain ⟨a, ha, h⟩ := Dialogue.endsIn_bind.mp h
  cases ho : a.outcome with
  | error e =>
    simp only [ho] at h
    rw [Dialogue.endsIn_done.mp h]
    exact .failed hid ha ho
  | ok found =>
    simp only [ho] at h
    exact .fresh hid ha ho (honward _ _ _ h)

theorem grows_of_grow {limit room : Nat} {paths : List Path} {g : Growth} {r : Grown}
    (h : (grow s name limit room paths g).EndsIn fits r) : Grows s fits name True paths g r := by
  induction room generalizing paths g r with
  | zero =>
    refine walk_induct .done (fun _ _ _ _ => .known) (fun p rest g r hid hr => ?_) h
    rw [Dialogue.endsIn_done.mp hr]
    exact .full trivial hid limit
  | succ room ih =>
    exact walk_induct .done (fun _ _ _ _ => .known)
      (fun _ _ _ _ hid hr => grows_of_expand (fun _ _ _ => ih) hid hr) h

/-- growing that is not cut off needs no rule for it -/
theorem Grows.uncut {paths : List Path} {g : Growth} {r : Grown}
    (h : Grows s fits name cut paths g r) (hroom : ∀ l, r.1 ≠ some (.tooManyModules l)) :
    Grows s fits name False paths g r := by
  induction h with
  | done g => exact .done g
  | known hid _ ih => exact .known hid (ih hroom)
  | fresh hid ha hfound _ ih => exact .fresh hid ha hfound (ih hroom)
  | failed hid ha he => exact .failed hid ha he
  | full _ _ limit => exact absurd rfl (hroom limit)

theorem grow_of_build {limit : Nat} {p : Path} {g : Growth}
    {result : Except BuildError ModuleId} {g' : Growth}
    (h : (build s limit name p g).EndsIn fits (result, g')) :
    ∃ failure, (grow s name limit (limit - g.graph.size) [p] g).EndsIn fits (failure, g') ∧
      result = failure.elim (.ok (s.idOf p)) .error := by
  obtain ⟨⟨failure, g''⟩, hgrow, h⟩ := Dialogue.endsIn_bind.mp h
  refine ⟨failure, ?_⟩
  cases failure with
  | some e =>
    cases Dialogue.endsIn_done.mp h
    exact ⟨hgrow, rfl⟩
  | none =>
    cases Dialogue.endsIn_done.mp h
    exact ⟨hgrow, rfl⟩

theorem grows_of_build {limit : Nat} {p : Path} {g : Growth}
    {result : Except BuildError ModuleId} {g' : Growth}
    (h : (build s limit name p g).EndsIn fits (result, g'))
    (hroom : ∀ l, result ≠ .error (.tooManyModules l)) :
    ∃ failure, Grows s fits name False [p] g (failure, g') ∧
      result = failure.elim (.ok (s.idOf p)) .error := by
  obtain ⟨failure, hgrow, hresult⟩ := grow_of_build h
  refine ⟨failure, (grows_of_grow hgrow).uncut fun l he => hroom l ?_, hresult⟩
  obtain rfl : failure = some (.tooManyModules l) := he
  exact hresult

/-- an entry that was built: what its specifier stands for was gone through to the end -/
theorem grows_of_buildEntry {limit : Nat} {specifier : String} {g : Growth} {id : ModuleId}
    {g' : Growth} (h : (buildEntry s limit name specifier g).EndsIn fits (.ok id, g')) :
    ∃ p, (resolve s.extensions s.root specifier none).EndsIn fits (.ok p) ∧
      Grows s fits name False [p] g (none, g') ∧ id = s.idOf p := by
  obtain ⟨resolved, hresolved, h⟩ := Dialogue.endsIn_bind.mp h
  cases resolved with
  | error e => cases Dialogue.endsIn_done.mp h
  | ok p =>
    obtain ⟨failure, hgrow, hresult⟩ := grows_of_build h fun _ => nofun
    cases failure with
    | some e => cases hresult
    | none =>
      cases hresult
      exact ⟨p, hresolved, hgrow, rfl⟩

theorem buildEntries_cons {limit : Nat} {e : String × String} {entries : List (String × String)}
    {built : List (String × ModuleId)} {g g' : Growth}
    (h : (buildEntries s limit (e :: entries) g).EndsIn fits (.ok built, g')) :
    ∃ id g₁ rest, (buildEntry s limit e.1 e.2 g).EndsIn fits (.ok id, g₁) ∧
      (buildEntries s limit entries g₁).EndsIn fits (.ok rest, g') ∧ built = (e.1, id) :: rest := by
  obtain ⟨⟨first, g₁⟩, hfirst, h⟩ := Dialogue.endsIn_bind.mp h
  cases first with
  | error e => cases Dialogue.endsIn_done.mp h
  | ok id =>
    obtain ⟨⟨others, g₂⟩, hothers, h⟩ := Dialogue.endsIn_bind.mp h
    cases others with
    | error e => cases Dialogue.endsIn_done.mp h
    | ok rest =>
      cases Dialogue.endsIn_done.mp h
      exact ⟨id, g₁, rest, hfirst, hothers, rfl⟩

/-! ## what it does to the graph -/

@[simp] theorem Growth.graph_addFiles (g : Growth) (paths : List Path) :
    (g.addFiles paths).graph = g.graph := rfl

@[simp] theorem Growth.graph_addModule (g : Growth) (m : Module) :
    (g.addModule m).graph = g.graph.insert m := rfl

@[simp] theorem Growth.graph_join (g : Growth) (name : String) (id : ModuleId) :
    (g.join name id).graph = g.graph.join name [id] := rfl

theorem Grows.extends {paths : List Path} {g : Growth} {r : Grown}
    (h : Grows s fits name cut paths g r) : ModuleGraph.Extends name g.graph r.2.graph := by
  induction h with
  | done g => exact .refl g.graph
  | known _ _ ih => exact (ModuleGraph.Extends.of_join _ _ _).trans ih
  | fresh hid _ _ _ ih => exact (ModuleGraph.Extends.of_insert hid rfl).trans ih
  | failed => exact .refl _
  | full => exact .refl _

end Bindle
