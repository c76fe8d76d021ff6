import Bindle.Proofs.Files.Spellings
import Bindle.Proofs.Graph.Leftovers

/-!
# The files behind modules

A module has its id from the components of its path and its text from the key of its path.  Without
`\` both tell paths apart alike, so different modules come from different files
(`nodup_keys_of_serves`).  With a `\` one file can become two modules (`not_id_eq_of_key_eq`).

* `Settings.PartsAre`, `Request.PartsAre`   what a build begins with is of one kind;
* `ModuleGraph.SpecifiersAre`               so are the specifiers in the files of a graph.

Then so are the paths of all modules.
-/

namespace Bindle

open Bindle.Path

variable {s : Settings} {fits : (q : Question) → q.Answer → Prop} {Q : List Char → Prop}

/-! ## requests in turn -/

/-- what requests in turn come to, with answers known beforehand -/
def Request.serveAll (s : Settings) (limit : Nat) (answer : (q : Question) → q.Answer) :
    List Request → Growth → List (Request × Except BuildError ModuleId) × Growth
  | [], g => ([], g)
  | r :: rest, g =>
    let first := (r.serve s limit g).result answer
    let others := serveAll s limit answer rest first.2
    ((r, first.1) :: others.1, others.2)

/-- requests that all go well are served in turn -/
theorem Request.serves_serveAll (s : Settings) (limit : Nat) (answer : (q : Question) → q.Answer)
    (requests : List Request) (g : Growth) :
    (∀ c ∈ (serveAll s limit answer requests g).1, c.2.isOk = true) →
      Serves s (Dialogue.Known answer) g (serveAll s limit answer requests g).1
        (serveAll s limit answer requests g).2 := by
  induction requests generalizing g with
  | nil => exact fun _ => .nil g
  | cons r rest ih =>
    intro hok
    obtain ⟨hfirst, hrest⟩ := List.forall_mem_cons.mp hok
    refine .cons ⟨⟨limit, Dialogue.endsIn_known.mpr rfl⟩, fun l he => ?_⟩ (ih _ hrest)
    rw [he] at hfirst
    cases hfirst

/-! ## paths of one kind -/

/-- the root and the extensions are of the kind `Q` -/
structure Settings.PartsAre (Q : List Char → Prop) (s : Settings) : Prop where
  root : s.root.PartsAre Q
  extensions : ∀ e ∈ s.extensions, (⟨e⟩ : Path).PartsAre Q

instance [DecidablePred Q] : Decidable (s.PartsAre Q) :=
  decidable_of_iff (s.root.PartsAre Q ∧ ∀ e ∈ s.extensions, (⟨e⟩ : Path).PartsAre Q)
    ⟨fun h => ⟨h.1, h.2⟩, fun h => ⟨h.1, h.2⟩⟩

/-- the path or the specifier that is asked for is of the kind `Q` -/
def Request.PartsAre (Q : List Char → Prop) : Request → Prop
  | module _ p => p.PartsAre Q
  | entry _ specifier => (⟨specifier⟩ : Path).PartsAre Q

instance [DecidablePred Q] : (r : Request) → Decidable (r.PartsAre Q)
  | .module _ p => inferInstanceAs (Decidable (p.PartsAre Q))
  | .entry _ specifier => inferInstanceAs (Decidable ((⟨specifier⟩ : Path).PartsAre Q))

/-- the specifiers that the files of a graph ask for are of the kind `Q` -/
def ModuleGraph.SpecifiersAre (Q : List Char → Prop) (g : ModuleGraph) : Prop :=
  ∀ m ∈ g.modules, ∀ d ∈ m.dependencies, (⟨d.specifier⟩ : Path).PartsAre Q

instance [DecidablePred Q] (g : ModuleGraph) : Decidable (g.SpecifiersAre Q) :=
  inferInstanceAs (Decidable
    (∀ m ∈ g.modules, ∀ d ∈ m.dependencies, (⟨d.specifier⟩ : Path).PartsAre Q))

section

variable (hQ : IsKind Q) (hs : s.PartsAre Q)

include hQ hs

theorem Settings.PartsAre.directory {p : Path} (hp : p.PartsAre Q) :
    (p.parent?.getD s.root).PartsAre Q := by
  cases hparent : p.parent? with
  | none => exact hs.root
  | some d => exact hp.parent hQ hparent

theorem Settings.PartsAre.dependency {p : Path} (hp : p.PartsAre Q)
    {found : List Dependency × String} (h : s.Analysed fits p found) {d : Dependency}
    (hd : d ∈ found.1) (hspecifier : (⟨d.specifier⟩ : Path).PartsAre Q) : d.path.PartsAre Q := by
  obtain ⟨raw, source, tree, x, -, -, -, hx, hok, rfl⟩ := h
  obtain ⟨pairs, -, hdeps, -, hfinds⟩ := pairs_of_extract hx hok
  obtain ⟨f, hf, rfl⟩ := List.mem_map.mp (hdeps ▸ hd)
  exact partsAre_of_mem_candidates hQ hs.extensions (hs.directory hQ hp) hspecifier
    (mem_candidates_of_resolve (hfinds f hf).resolved)

theorem ModuleGraph.SpecifiersAre.staysIn {g : ModuleGraph} (h : g.SpecifiersAre Q) :
    g.StaysIn s fits (Path.PartsAre Q) :=
  fun m hm hpath hanalysed d hd => hs.dependency hQ hpath hanalysed hd (h m hm d hd)

theorem Request.PartsAre.startsAt {r : Request} (hr : r.PartsAre Q) {p : Path}
    (h : r.StartsAt s fits p) : p.PartsAre Q := by
  cases r with
  | module _ q =>
    obtain rfl : p = q := h
    exact hr
  | entry _ specifier =>
    exact partsAre_of_mem_candidates hQ hs.extensions hs.root hr (mem_candidates_of_resolve h)

end

/-! ## stored files -/

/-- an id comes from the components of a path -/
theorem Settings.idOf_eq_of_components {p q : Path} (h : p.components = q.components) :
    s.idOf p = s.idOf q := by
  have hnormal : p.normalize = q.normalize := by rw [Path.normalize, Path.normalize, h]
  rw [idOf, idOf, ModuleId.ofPath, ModuleId.ofPath, hnormal]

namespace Memory

variable {m : Memory} {parser : Parser} {p q : Path}

theorem mem_paths_of_analysed {found : List Dependency × String}
    (h : s.Analysed (Dialogue.Known (m.answer parser)) p found) : key p ∈ m.paths := by
  obtain ⟨raw, -, -, -, htext, -⟩ := h
  have hread : m.readText p = .ok raw := htext.symm
  refine mem_paths.mpr fun hnone => ?_
  unfold readText read at hread
  rw [hnone] at hread
  cases hread

/-- without `\` the key of a path tells its id -/
theorem idOf_eq_of_key_eq (hp : p.IsUnix) (hq : q.IsUnix) (h : key p = key q) :
    s.idOf p = s.idOf q :=
  Settings.idOf_eq_of_components
    (by rw [components_eq_of_isUnix hp, components_eq_of_isUnix hq, h])

theorem nodup_keys {g : ModuleGraph} {fits : (q : Question) → q.Answer → Prop}
    (hg : s.Analyses fits g) (hunix : g.OfKind IsUnix) :
    (g.modules.map fun a => key a.path).Nodup := by
  have hids : g.modules.Pairwise (fun a b => a.id ≠ b.id) := List.pairwise_map.mp g.distinct
  refine List.pairwise_map.mpr (hids.imp_of_mem fun {a b} ha hb hne hkey => hne ?_)
  rw [(hg a ha).1, (hg b hb).1]
  exact idOf_eq_of_key_eq (hunix a ha) (hunix b hb) hkey

/-- **One file, one module, where there is no `\`.**  Whatever was asked for, and whether it went well
or not: each module comes from a stored file, two from one only if there is a `\` in the path of one of
them, and no two at all when there is none in the root, the extensions, the requests and the specifiers
of the files.  Then there are no more modules than files. -/
theorem nodup_keys_of_serves {calls : List (Request × Except BuildError ModuleId)} {g : Growth}
    (h : Serves s (Dialogue.Known (m.answer parser)) {} calls g) :
    (∀ a ∈ g.graph.modules, key a.path ∈ m.paths) ∧
    (∀ a ∈ g.graph.modules, ∀ b ∈ g.graph.modules, key a.path = key b.path → a.id ≠ b.id →
      '\\' ∈ a.path.text.toList ∨ '\\' ∈ b.path.text.toList) ∧
    (s.PartsAre NoBackslash → (∀ c ∈ calls, c.1.PartsAre NoBackslash) →
      g.graph.SpecifiersAre NoBackslash →
        (g.graph.modules.map fun a => key a.path).Nodup ∧ g.graph.size ≤ m.paths.length) := by
  have hanalysed := h.all_analysed
  have hstored : ∀ a ∈ g.graph.modules, key a.path ∈ m.paths :=
    fun a ha => mem_paths_of_analysed (hanalysed a ha).2
  refine ⟨hstored, fun a ha b hb hkey hne => ?_, fun hs hcalls hspecifiers => ?_⟩
  · by_contra hnone
    obtain ⟨hna, hnb⟩ := not_or.mp hnone
    refine hne ?_
    rw [(hanalysed a ha).1, (hanalysed b hb).1]
    exact idOf_eq_of_key_eq (isUnix_iff.mpr hna) (isUnix_iff.mpr hnb) hkey
  · have hunix : g.graph.OfKind IsUnix :=
      h.ofKind (fun c hc p hp => (hcalls c hc).startsAt isKind_noBackslash hs hp)
        (hspecifiers.staysIn isKind_noBackslash hs)
    have hnodup := nodup_keys hanalysed hunix
    have hsubset : (g.graph.modules.map fun a => key a.path) ⊆ m.paths := by
      intro k hk
      obtain ⟨a, ha, rfl⟩ := List.mem_map.mp hk
      exact hstored a ha
    have hlength := (List.subperm_of_subset hnodup hsubset).length_le
    rw [List.length_map] at hlength
    exact ⟨hnodup, hlength⟩

/-- the files need each other, and are asked for in three ways -/
theorem nodup_keys_of_cycle : ∃ calls g,
    Serves ⟨⟨"/p"⟩, [".js"], []⟩ (Dialogue.Known (cyclicFiles.answer Script.parser)) {} calls g ∧
    calls.map Prod.fst =
      [.entry "main" "./a", .entry "alt" "../p/./a.js", .module "alt" ⟨"/p//b.js"⟩] ∧
    (g.graph.modules.map fun a => key a.path).Nodup ∧
    g.graph.size ≤ cyclicFiles.paths.length := by
  generalize hrun : Request.serveAll ⟨⟨"/p"⟩, [".js"], []⟩ ModuleGraph.capacity
    (cyclicFiles.answer Script.parser)
    [.entry "main" "./a", .entry "alt" "../p/./a.js", .module "alt" ⟨"/p//b.js"⟩] {} = run
  have hr : run.1.map Prod.fst =
        [.entry "main" "./a", .entry "alt" "../p/./a.js", .module "alt" ⟨"/p//b.js"⟩] ∧
      (∀ c ∈ run.1, c.2.isOk = true) ∧ (∀ c ∈ run.1, c.1.PartsAre NoBackslash) ∧
      run.2.graph.SpecifiersAre NoBackslash := by
    rw [← hrun]
    decide +kernel
  obtain ⟨hrequests, hok, hcalls, hspecifiers⟩ := hr
  have hserves := (hrun ▸ Request.serves_serveAll ⟨⟨"/p"⟩, [".js"], []⟩ ModuleGraph.capacity
    (cyclicFiles.answer Script.parser)
    [.entry "main" "./a", .entry "alt" "../p/./a.js", .module "alt" ⟨"/p//b.js"⟩] {}) hok
  have hs : (⟨⟨"/p"⟩, [".js"], []⟩ : Settings).PartsAre NoBackslash := by decide +kernel
  obtain ⟨-, -, hclean⟩ := nodup_keys_of_serves hserves
  obtain ⟨hnodup, hsize⟩ := hclean hs hcalls hspecifiers
  exact ⟨run.1, run.2, hserves, hrequests, hnodup, hsize⟩

/-- the separator on the way to the file may be written in two ways -/
def nestedFile : Memory := .ofList [(⟨"/p/x/b.js"⟩, .text "")]

theorem not_id_eq_of_key_eq :
    ¬ ∀ (s : Settings) (m : Memory) (parser : Parser)
        (calls : List (Request × Except BuildError ModuleId)) (g : Growth),
      Serves s (Dialogue.Known (m.answer parser)) {} calls g →
        ∀ a ∈ g.graph.modules, ∀ b ∈ g.graph.modules, key a.path = key b.path → a.id = b.id := by
  intro h
  generalize hrun : Request.serveAll ⟨⟨"/p"⟩, [".js"], []⟩ ModuleGraph.capacity
    (nestedFile.answer Script.parser) [.entry "main" "./x/b", .entry "alt" "./x\\b"] {} = run
  have hr : run.2.graph.modules.map (fun a => (a.id, key a.path)) =
        [(⟨"./x/b.js"⟩, "/p/x/b.js"), (⟨"./x\\b.js"⟩, "/p/x/b.js")] ∧
      ∀ c ∈ run.1, c.2.isOk = true := by
    rw [← hrun]
    decide +kernel
  obtain ⟨hr, hok⟩ := hr
  have hserves := (hrun ▸ Request.serves_serveAll ⟨⟨"/p"⟩, [".js"], []⟩ ModuleGraph.capacity
    (nestedFile.answer Script.parser) [.entry "main" "./x/b", .entry "alt" "./x\\b"] {}) hok
  have hmodule : ∀ pair ∈ [((⟨"./x/b.js"⟩ : ModuleId), "/p/x/b.js"), (⟨"./x\\b.js"⟩, "/p/x/b.js")],
      ∃ a ∈ run.2.graph.modules, (a.id, key a.path) = pair := by
    intro pair hpair
    exact List.mem_map.mp (hr ▸ hpair)
  obtain ⟨a, ha, hpair⟩ := hmodule _ List.mem_cons_self
  obtain ⟨b, hb, hpair'⟩ := hmodule _ (List.mem_cons_of_mem _ List.mem_cons_self)
  obtain ⟨hid, hkey⟩ := Prod.mk.inj hpair
  obtain ⟨hid', hkey'⟩ := Prod.mk.inj hpair'
  have heq := h _ _ _ _ _ hserves a ha b hb (hkey.trans hkey'.symm)
  rw [hid, hid'] at heq
  revert heq
  decide

end Memory

end Bindle
