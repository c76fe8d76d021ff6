import Bindle.Proofs.Graph.Success

/-!
# Where growing stops

A kind of path that modules hand on to their dependencies is the kind of all modules that come into a
graph, and of the path at which growing stops (`Grows.ofKind`, `Grows.stops`).  It stops on a file
that fails, or where it is cut off for want of room.

Main results: `stops_of_buildEntries`, on the entry that is the first to fail, and
`full_of_buildEntries`, on the room that it takes for building to be cut off.
-/

namespace Bindle

variable {s : Settings} {fits : (q : Question) → q.Answer → Prop} {name : String} {limit : Nat}
  {cut : Prop} {P : Path → Prop}

/-- modules of the kind `P` depend on files of this kind only -/
def Settings.HandsOn (s : Settings) (fits : (q : Question) → q.Answer → Prop) (P : Path → Prop) :
    Prop :=
  ∀ p found, P p → s.Analysed fits p found → ∀ d ∈ found.1, P d.path

def ModuleGraph.OfKind (P : Path → Prop) (g : ModuleGraph) : Prop := ∀ m ∈ g.modules, P m.path

namespace ModuleGraph.OfKind

variable {g : ModuleGraph}

theorem empty : (ModuleGraph.empty).OfKind P := fun _ hm => absurd hm List.not_mem_nil

theorem join (h : g.OfKind P) (pending : List ModuleId) : (g.join name pending).OfKind P := by
  intro m' hm'
  obtain ⟨m, hm, hbare⟩ := exists_bare_of_mem_join hm'
  obtain ⟨-, hpath, -, -, -⟩ := Module.mk.inj hbare
  exact hpath ▸ h m hm

theorem insert (h : g.OfKind P) {m : Module} (hid : m.id ∉ g.ids) (hm : P m.path) :
    (g.insert m).OfKind P := by
  intro m' hm'
  rw [modules_insert hid] at hm'
  rcases List.mem_append.mp hm' with hm' | hm'
  · exact h m' hm'
  · rw [List.mem_singleton.mp hm']
    exact hm

end ModuleGraph.OfKind

/-- the paths that are gone through next are of the kind of those gone through before -/
theorem Settings.HandsOn.next (hP : s.HandsOn fits P) {p : Path} {rest : List Path} {a : Analysis}
    {found : List Dependency × String} (hpaths : ∀ q ∈ p :: rest, P q)
    (ha : (s.analyse p).EndsIn fits a) (hfound : a.outcome = .ok found) :
    ∀ q ∈ found.1.map Dependency.path ++ rest, P q := by
  obtain ⟨hp, hrest⟩ := List.forall_mem_cons.mp hpaths
  intro q hq
  rcases List.mem_append.mp hq with hq | hq
  · obtain ⟨d, hd, rfl⟩ := List.mem_map.mp hq
    exact hP p found hp (Settings.analysed_of_analyse ha hfound) d hd
  · exact hrest q hq

/-- growing keeps a graph of one kind, if what is in the graph that it ends in leads nowhere else -/
theorem Grows.ofKind_of_staysIn {paths : List Path} {g : Growth} {r : Grown}
    (h : Grows s fits name cut paths g r) (hstays : r.2.graph.StaysIn s fits P)
    (hpaths : ∀ p ∈ paths, P p) (hg : g.graph.OfKind P) : r.2.graph.OfKind P := by
  induction h with
  | done => exact hg
  | known _ _ ih => exact ih hstays (List.forall_mem_cons.mp hpaths).2 (hg.join _)
  | fresh hid ha hfound hrest ih =>
    have hnext := hrest.next_of_staysIn hid (Settings.analysed_of_analyse ha hfound) hstays hpaths
    exact ih hstays hnext (hg.insert hid (hpaths _ List.mem_cons_self))
  | failed => exact hg
  | full => exact hg

theorem Grows.ofKind {paths : List Path} {g : Growth} {r : Grown}
    (h : Grows s fits name cut paths g r) (hP : s.HandsOn fits P) (hpaths : ∀ p ∈ paths, P p)
    (hg : g.graph.OfKind P) : r.2.graph.OfKind P :=
  h.ofKind_of_staysIn (fun m _ hm hanalysed => hP m.path _ hm hanalysed) hpaths hg

/-- why growing stops at a path -/
def Settings.StopsOn (s : Settings) (fits : (q : Question) → q.Answer → Prop) (p : Path)
    (e : BuildError) : Prop :=
  s.FailsOn fits p e ∨ ∃ limit, e = .tooManyModules limit

/-- **Growing stops at a path of the kind**, and the module of this path is missing. -/
theorem Grows.stops {paths : List Path} {g : Growth} {r : Grown}
    (h : Grows s fits name cut paths g r) (hP : s.HandsOn fits P) (hpaths : ∀ p ∈ paths, P p)
    {e : BuildError} (he : r.1 = some e) :
    ∃ p, P p ∧ s.idOf p ∉ r.2.graph.ids ∧ s.StopsOn fits p e := by
  induction h with
  | done => cases he
  | known _ _ ih => exact ih (List.forall_mem_cons.mp hpaths).2 he
  | fresh _ ha hfound _ ih => exact ih (hP.next hpaths ha hfound) he
  | @failed p rest g a e' hid ha he' =>
    cases he
    exact ⟨p, hpaths p List.mem_cons_self, hid, .inl (Settings.failsOn_of_analyse ha he')⟩
  | @full p rest g _ hid limit =>
    cases he
    exact ⟨p, hpaths p List.mem_cons_self, hid, .inr ⟨limit, rfl⟩⟩

/-- without a bound it is a file that growing fails on -/
theorem Grows.exists_failsOn {paths : List Path} {g : Growth} {r : Grown}
    (h : Grows s fits name False paths g r) (hP : s.HandsOn fits P) (hpaths : ∀ p ∈ paths, P p)
    {e : BuildError} (he : r.1 = some e) : ∃ p, P p ∧ s.FailsOn fits p e := by
  obtain ⟨p, hp, -, hfails | ⟨limit, rfl⟩⟩ := h.stops hP hpaths he
  · exact ⟨p, hp, hfails⟩
  · exact absurd he (h.ne_tooManyModules limit)

/-! ## entries -/

/-- entries fail on the first that fails -/
theorem exists_of_buildEntries {entries : List (String × String)} {e : BuildError}
    {g g' : Growth} (h : (buildEntries s limit entries g).EndsIn fits (.error e, g')) :
    ∃ before entry after built g₁, entries = before ++ entry :: after ∧
      (buildEntries s limit before g).EndsIn fits (.ok built, g₁) ∧
      (buildEntry s limit entry.1 entry.2 g₁).EndsIn fits (.error e, g') := by
  induction entries generalizing g with
  | nil => cases Dialogue.endsIn_done.mp h
  | cons entry entries ih =>
    obtain ⟨⟨first, g₁⟩, hfirst, h⟩ := Dialogue.endsIn_bind.mp h
    cases first with
    | error e' =>
      cases Dialogue.endsIn_done.mp h
      exact ⟨[], entry, entries, [], g, rfl, .done _, hfirst⟩
    | ok id =>
      obtain ⟨⟨others, g₂⟩, hothers, h⟩ := Dialogue.endsIn_bind.mp h
      cases others with
      | ok rest => cases Dialogue.endsIn_done.mp h
      | error e' =>
        cases Dialogue.endsIn_done.mp h
        obtain ⟨before, entry', after, built, g₃, rfl, hbefore, hentry'⟩ := ih hothers
        refine ⟨entry :: before, entry', after, (entry.1, id) :: built, g₃, rfl, ?_, hentry'⟩
        exact Dialogue.endsIn_bind.mpr ⟨_, hfirst, Dialogue.endsIn_bind.mpr ⟨_, hbefore, .done _⟩⟩

theorem ofKind_of_buildEntries {entries : List (String × String)}
    {built : List (String × ModuleId)} {g g' : Growth} (hP : s.HandsOn fits P)
    (hentries : ∀ e ∈ entries, ∀ p,
      (resolve s.extensions s.root e.2 none).EndsIn fits (.ok p) → P p)
    (h : (buildEntries s limit entries g).EndsIn fits (.ok built, g')) (hg : g.graph.OfKind P) :
    g'.graph.OfKind P := by
  induction entries generalizing built g with
  | nil =>
    cases Dialogue.endsIn_done.mp h
    exact hg
  | cons e entries ih =>
    obtain ⟨id, g₁, rest, hfirst, hrest, rfl⟩ := buildEntries_cons h
    obtain ⟨p, hp, hgrow, rfl⟩ := grows_of_buildEntry hfirst
    obtain ⟨hentry, hothers⟩ := List.forall_mem_cons.mp hentries
    refine ih hothers hrest (hgrow.ofKind hP (fun q hq => ?_) hg)
    rw [List.mem_singleton.mp hq]
    exact hentry p hp

/-- a graph that is full, and a path whose module is missing -/
theorem exists_paths_of_full {g : ModuleGraph} {p : Path} (hg : g.OfKind P) (hp : P p)
    (hanalyses : s.Analyses fits g) (hmissing : s.idOf p ∉ g.ids) :
    ∃ paths : List Path, (paths.map s.idOf).Nodup ∧ paths.length = g.size + 1 ∧
      ∀ q ∈ paths, P q := by
  have hids : (g.modules.map Module.path).map s.idOf = g.ids := by
    rw [List.map_map]
    exact List.map_congr_left fun m hm => (hanalyses m hm).1.symm
  refine ⟨p :: g.modules.map Module.path, ?_, ?_, List.forall_mem_cons.mpr ⟨hp, fun q hq => ?_⟩⟩
  · rw [List.map_cons, hids]
    exact List.nodup_cons.mpr ⟨hmissing, g.distinct⟩
  · rw [List.length_cons, List.length_map]
    rfl
  · obtain ⟨m, hm, rfl⟩ := List.mem_map.mp hq
    exact hg m hm

/-- the entry that is the first to fail begins with a path of the kind, and with a graph of modules of
the kind -/
theorem exists_entry_of_buildEntries {entries : List (String × String)} {e : BuildError} {g' : Growth}
    (hP : s.HandsOn fits P)
    (hentries : ∀ e ∈ entries, ∀ p,
      (resolve s.extensions s.root e.2 none).EndsIn fits (.ok p) → P p)
    (h : (buildEntries s limit entries {}).EndsIn fits (.error e, g')) :
    (∃ entry ∈ entries, (resolve s.extensions s.root entry.2 none).EndsIn fits (.error e)) ∨
    ∃ name p g, P p ∧ g.graph.OfKind P ∧ s.Analyses fits g.graph ∧ g.graph.size ≤ limit ∧
      (grow s name limit (limit - g.graph.size) [p] g).EndsIn fits (some e, g') := by
  obtain ⟨before, entry, after, built, g, rfl, hbefore, h⟩ := exists_of_buildEntries h
  have hentry := hentries entry (List.mem_append_right _ List.mem_cons_self)
  have hg : g.graph.OfKind P := ofKind_of_buildEntries hP
    (fun e he => hentries e (List.mem_append_left _ he)) hbefore ModuleGraph.OfKind.empty
  obtain ⟨resolved, hresolved, h⟩ := Dialogue.endsIn_bind.mp h
  cases resolved with
  | error e' =>
    cases Dialogue.endsIn_done.mp h
    exact .inl ⟨entry, List.mem_append_right _ List.mem_cons_self, hresolved⟩
  | ok p =>
    obtain ⟨failure, hgrow, hresult⟩ := grow_of_build h
    cases failure with
    | none => cases hresult
    | some e' =>
      cases hresult
      exact .inr ⟨entry.1, p, g, hentry p hresolved, hg, analyses_of_buildEntries hbefore,
        size_le_of_buildEntries hbefore (Nat.zero_le _), hgrow⟩

/-- **Entries stop on the specifier of one of them, or on a file of the kind.** -/
theorem stops_of_buildEntries {entries : List (String × String)} {e : BuildError} {g' : Growth}
    (hP : s.HandsOn fits P)
    (hentries : ∀ e ∈ entries, ∀ p,
      (resolve s.extensions s.root e.2 none).EndsIn fits (.ok p) → P p)
    (h : (buildEntries s limit entries {}).EndsIn fits (.error e, g'))
    (hroom : ∀ l, e ≠ .tooManyModules l) :
    (∃ entry ∈ entries, (resolve s.extensions s.root entry.2 none).EndsIn fits (.error e)) ∨
    ∃ p, P p ∧ s.FailsOn fits p e := by
  refine (exists_entry_of_buildEntries hP hentries h).imp_right ?_
  rintro ⟨name, p, g, hp, -, -, -, hgrow⟩
  have hgrows : Grows s fits name False [p] g (some e, g') :=
    (grows_of_grow hgrow).uncut fun l he => hroom l (Option.some.inj he)
  exact hgrows.exists_failsOn hP (fun q hq => List.mem_singleton.mp hq ▸ hp) rfl

/-- **Room runs out only when there are more modules of the kind than there is room for.** -/
theorem full_of_buildEntries {entries : List (String × String)} {l : Nat} {g' : Growth}
    (hP : s.HandsOn fits P)
    (hentries : ∀ e ∈ entries, ∀ p,
      (resolve s.extensions s.root e.2 none).EndsIn fits (.ok p) → P p)
    (h : (buildEntries s limit entries {}).EndsIn fits (.error (.tooManyModules l), g')) :
    l = limit ∧ ∃ paths : List Path, (paths.map s.idOf).Nodup ∧ limit < paths.length ∧
      ∀ p ∈ paths, P p := by
  rcases exists_entry_of_buildEntries hP hentries h with
    ⟨entry, -, hrefused⟩ | ⟨name, p, g, hp, hg, hanalyses, hle, hgrow⟩
  · cases (resolve_eq_error_iff.mp hrefused).2
  have hpaths : ∀ q ∈ [p], P q := fun q hq => List.mem_singleton.mp hq ▸ hp
  have hgrows := grows_of_grow hgrow
  obtain ⟨rfl, hsize⟩ := (fills_of_grow hgrow).size_eq l rfl
  obtain ⟨q, hq, hmissing, -⟩ := hgrows.stops hP hpaths rfl
  obtain ⟨paths, hnodup, hlength, hkind⟩ :=
    exists_paths_of_full (hgrows.ofKind hP hpaths hg) hq (hgrows.analyses hanalyses) hmissing
  refine ⟨rfl, paths, hnodup, ?_, hkind⟩
  dsimp only at hsize hlength
  omega

end Bindle
