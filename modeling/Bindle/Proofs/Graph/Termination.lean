import Bindle.Proofs.Graph.OneFile

/-!
# Building to an end

Growing ends when no id is new, or for want of room.  What it comes to within some room is the same in
more room (`grow_of_le`), so building comes to an end of its own accord where there is some room that
it does not run out of.

* `not_full_of_grow`    while all ids are among finitely many, room does not run out;
* `build_ends`          so it is with tidy paths, because a file has finitely many spellings;
* `full_of_endless`     files that lead to ever new ids use up any room.

In `build_winding` one file does that alone: it needs itself by a path that has a `\` more.
-/

namespace Bindle

open Bindle.Path

variable {s : Settings} {fits : (q : Question) → q.Answer → Prop} {limit : Nat} {name : String}

/-! ## more room -/

/-- **More room changes nothing where there was enough.** -/
theorem grow_of_le {room room' limit' : Nat} (hle : room ≤ room') {paths : List Path} {g : Growth}
    {r : Grown} (hroom : ∀ l, r.1 ≠ some (.tooManyModules l))
    (h : (grow s name limit room paths g).EndsIn fits r) :
    (grow s name limit' room' paths g).EndsIn fits r := by
  induction room generalizing room' paths g with
  | zero =>
    -- a walk without room that ends well meets known modules only
    have hwalk : ∀ unknown, (walk s name unknown paths g).EndsIn fits r := by
      refine fun unknown => walk_congr (fun _ => rfl) (fun p rest g hfull => ?_) h
      rw [Dialogue.endsIn_done.mp hfull] at hroom
      exact absurd rfl (hroom limit)
    cases room' with
    | zero => exact hwalk _
    | succ room' => exact hwalk _
  | succ room ih =>
    obtain ⟨room', rfl⟩ : ∃ n, room' = n + 1 := ⟨room' - 1, by omega⟩
    refine walk_congr (s := s) (fun _ => rfl) (fun p rest g hexpand => ?_) h
    obtain ⟨a, ha, hexpand⟩ := Dialogue.endsIn_bind.mp hexpand
    refine Dialogue.endsIn_bind.mpr ⟨a, ha, ?_⟩
    cases ho : a.outcome with
    | error e =>
      simp only [ho] at hexpand ⊢
      exact hexpand
    | ok found =>
      simp only [ho] at hexpand ⊢
      exact ih (Nat.le_of_succ_le_succ hle) hexpand

theorem build_of_le {limit' : Nat} (hle : limit ≤ limit') {p : Path} {g g' : Growth}
    {result : Except BuildError ModuleId}
    (hroom : ∀ l, result ≠ .error (.tooManyModules l))
    (h : (build s limit name p g).EndsIn fits (result, g')) :
    (build s limit' name p g).EndsIn fits (result, g') := by
  obtain ⟨⟨failure, g₁⟩, hgrow, h⟩ := Dialogue.endsIn_bind.mp h
  refine Dialogue.endsIn_bind.mpr ⟨(failure, g₁), grow_of_le (by omega) (fun l he => ?_) hgrow, h⟩
  obtain rfl : failure = some (.tooManyModules l) := he
  cases Dialogue.endsIn_done.mp h
  exact hroom l rfl

/-! ## finitely many ids -/

/-- **Room for all ids of a kind is enough** for paths of the kind that lead to such paths only. -/
theorem not_full_of_grow {P : Path → Prop} {ids : List ModuleId} (hP : ∀ p, P p → s.idOf p ∈ ids)
    {room : Nat} {paths : List Path} {g : Growth} {r : Grown}
    (h : (grow s name limit room paths g).EndsIn fits r) (hstays : r.2.graph.StaysIn s fits P)
    (hpaths : ∀ p ∈ paths, P p) (hg : g.graph.HasRoom ids room) (l : Nat) :
    r.1 ≠ some (.tooManyModules l) := by
  induction room generalizing paths g r with
  | zero =>
    refine walk_induct (Q := fun paths g r => r.2.graph.StaysIn s fits P → (∀ p ∈ paths, P p) →
        g.graph.HasRoom ids 0 → r.1 ≠ some (.tooManyModules l))
      (fun _ _ _ _ he => by cases he)
      (fun p rest g r _ hrest hstays hpaths hg =>
        hrest hstays (List.forall_mem_cons.mp hpaths).2 (hg.join _))
      (fun p rest g r hid _ _ hpaths hg => ?_) h hstays hpaths hg
    exact absurd (hg.mem_ids (hP p (hpaths p List.mem_cons_self))) hid
  | succ room ih =>
    refine walk_induct (Q := fun paths g r => r.2.graph.StaysIn s fits P → (∀ p ∈ paths, P p) →
        g.graph.HasRoom ids (room + 1) → r.1 ≠ some (.tooManyModules l))
      (fun _ _ _ _ he => by cases he)
      (fun p rest g r _ hrest hstays hpaths hg =>
        hrest hstays (List.forall_mem_cons.mp hpaths).2 (hg.join _))
      (fun p rest g r hid hexpand hstays hpaths hg => ?_) h hstays hpaths hg
    obtain ⟨a, ha, hexpand⟩ := Dialogue.endsIn_bind.mp hexpand
    cases ho : a.outcome with
    | error e =>
      simp only [ho] at hexpand
      rw [Dialogue.endsIn_done.mp hexpand]
      rintro ⟨⟩
      exact Settings.outcome_ne_tooManyModules ha l ho
    | ok found =>
      simp only [ho] at hexpand
      have hnext := (grows_of_grow hexpand).next_of_staysIn hid
        (Settings.analysed_of_analyse ha ho) hstays hpaths
      exact ih hexpand hstays hnext (hg.insert hid (hP p (hpaths p List.mem_cons_self)))

/-! ## finitely many spellings -/

namespace Memory

variable {m : Memory} {parser : Parser}

theorem isFile_of_analysed {p : Path} {found : List Dependency × String}
    (h : s.Analysed (Dialogue.Known (m.answer parser)) p found) {d : Dependency}
    (hd : d ∈ found.1) : m.isFile d.path = true := by
  obtain ⟨raw, source, tree, x, -, -, -, hx, hok, rfl⟩ := h
  obtain ⟨pairs, -, hdeps, -, hfinds⟩ := pairs_of_extract hx hok
  obtain ⟨f, hf, rfl⟩ := List.mem_map.mp (hdeps ▸ hd)
  have hfind := resolve_eq_ok_iff.mp (Dialogue.endsIn_known.mp (hfinds f hf).resolved)
  exact List.find?_some hfind

/-- the ids that tidy paths of stored files can have -/
def speltIds (s : Settings) (m : Memory) : List ModuleId :=
  m.allSpellings.map fun cs => s.idOf ⟨String.ofList cs⟩

theorem idOf_mem_speltIds {p : Path} (hp : p.IsTidy) (hfile : m.isFile p = true) :
    s.idOf p ∈ m.speltIds s := by
  obtain ⟨cs, hcs, hcomponents⟩ := exists_mem_allSpellings hp hfile
  refine List.mem_map.mpr ⟨cs, hcs, Settings.idOf_eq_of_components ?_⟩
  rw [← hcomponents, components, String.toList_ofList]

/-- **Building comes to an end, where no `\` stands before a `/` or at the end.**  This is asked of the
root, the extensions, the path and the specifiers in the files that it comes to, which may need each
other in any way.  Then no more modules are added than the keys of the files have spellings, and one for
the path itself: with room for more than these, building does not fail for want of room, and the same
comes of it however much room there is. -/
theorem build_ends {p : Path} {g g' : Growth} {result : Except BuildError ModuleId}
    (hs : s.PartsAre EndsWell) (hp : p.IsTidy)
    (hlimit : g.graph.size + m.allSpellings.length < limit)
    (h : (build s limit name p g).result (m.answer parser) = (result, g'))
    (hspecifiers : g'.graph.SpecifiersAre EndsWell) :
    (∀ l, result ≠ .error (.tooManyModules l)) ∧
      ∀ limit', limit ≤ limit' →
        (build s limit' name p g).result (m.answer parser) = (result, g') := by
  have hend := Dialogue.endsIn_known.mpr h
  have hroom : ∀ l, result ≠ .error (.tooManyModules l) := by
    intro l
    obtain ⟨⟨failure, g₁⟩, hgrow, hresult⟩ := Dialogue.endsIn_bind.mp hend
    obtain rfl : g₁ = g' := by
      cases failure <;> exact (Prod.mk.inj (Dialogue.endsIn_done.mp hresult)).2.symm
    -- the first path need not be that of a file
    have hids : g.graph.HasRoom (g.graph.ids ++ s.idOf p :: m.speltIds s)
        (limit - g.graph.size) := by
      refine ⟨List.subset_append_left _ _, ?_⟩
      rw [List.length_append, ModuleGraph.length_ids, List.length_cons, speltIds, List.length_map]
      omega
    have hstays : g₁.graph.StaysIn s (Dialogue.Known (m.answer parser))
        (fun q => q.IsTidy ∧ s.idOf q ∈ g.graph.ids ++ s.idOf p :: m.speltIds s) := by
      rintro a ha ⟨htidy, -⟩ hanalysed d hd
      have htidy' := hspecifiers.staysIn isKind_endsWell hs a ha htidy hanalysed d hd
      have hid := idOf_mem_speltIds (s := s) htidy' (isFile_of_analysed hanalysed hd)
      exact ⟨htidy', List.mem_append_right _ (List.mem_cons_of_mem _ hid)⟩
    have hfull := not_full_of_grow (fun q hq => hq.2) hgrow hstays (fun q hq => ?_) hids l
    · cases failure with
      | none =>
        cases Dialogue.endsIn_done.mp hresult
        exact fun he => by cases he
      | some e =>
        cases Dialogue.endsIn_done.mp hresult
        rintro ⟨⟩
        exact hfull rfl
    · rw [List.mem_singleton.mp hq]
      exact ⟨hp, List.mem_append_right _ List.mem_cons_self⟩
  exact ⟨hroom, fun limit' hle => Dialogue.endsIn_known.mp (build_of_le hle hroom hend)⟩

/-- two files that need each other -/
theorem build_ends_cycle : ∃ g', (∀ limit', 9 ≤ limit' →
      (build ⟨⟨"/p"⟩, [".js"], []⟩ limit' "main" ⟨"/p/a.js"⟩ {}).result
        (cyclicFiles.answer Script.parser) = (.ok ⟨"./a.js"⟩, g')) ∧
    g'.graph.ids = [⟨"./a.js"⟩, ⟨"./b.js"⟩] := by
  generalize hrun : (build ⟨⟨"/p"⟩, [".js"], []⟩ 9 "main" ⟨"/p/a.js"⟩ {}).result
    (cyclicFiles.answer Script.parser) = run
  have hr : run.1 = .ok ⟨"./a.js"⟩ ∧ run.2.graph.ids = [⟨"./a.js"⟩, ⟨"./b.js"⟩] ∧
      run.2.graph.SpecifiersAre EndsWell := by
    rw [← hrun]
    decide +kernel
  have hs : (⟨⟨"/p"⟩, [".js"], []⟩ : Settings).PartsAre EndsWell := by decide +kernel
  have hp : (⟨"/p/a.js"⟩ : Path).PartsAre EndsWell := by decide +kernel
  have hlimit : ({} : Growth).graph.size + cyclicFiles.allSpellings.length < 9 := by
    decide +kernel
  obtain ⟨result, g'⟩ := run
  obtain ⟨rfl, hids, hspecifiers⟩ := hr
  exact ⟨g', (build_ends hs hp hlimit hrun hspecifiers).2, hids⟩

end Memory

/-! ## files without end -/

/-- **Files that lead to ever new ids use up any room.** -/
theorem full_of_endless {path : Nat → Path} (hnew : Function.Injective fun n => s.idOf (path n))
    (hnext : ∀ n, ∃ found, s.Analysed fits (path n) found ∧
      found.1.map Dependency.path = [path (n + 1)]) (room n : Nat) {g : Growth}
    (hg : ∀ k, n ≤ k → s.idOf (path k) ∉ g.graph.ids) :
    ∃ g', (grow s name limit room [path n] g).EndsIn fits (some (.tooManyModules limit), g') := by
  have hunknown : ∀ {n : Nat} {g : Growth}, (∀ k, n ≤ k → s.idOf (path k) ∉ g.graph.ids) →
      ∀ unknown, walk s name unknown [path n] g = unknown (path n) [] g := by
    intro n g hg unknown
    unfold walk
    exact if_neg fun hc => hg n (Nat.le_refl n) (ModuleGraph.contains_iff.mp hc)
  induction room generalizing n g with
  | zero =>
    refine ⟨g, ?_⟩
    show (walk s name _ [path n] g).EndsIn fits _
    rw [hunknown hg]
    exact .done _
  | succ room ih =>
    obtain ⟨found, hfound, hpath⟩ := hnext n
    obtain ⟨a, ha, ho⟩ := hfound.exists_analyse
    have hids : ∀ k, n + 1 ≤ k → s.idOf (path k) ∉
        ((g.addFiles a.files).addModule (s.moduleOf name (path n) found)).graph.ids := by
      intro k hk
      have hinsert : (g.graph.insert (s.moduleOf name (path n) found)).ids =
          g.graph.ids ++ [s.idOf (path n)] := ModuleGraph.ids_insert (hg n (Nat.le_refl n))
      rw [Growth.graph_addModule, Growth.graph_addFiles, hinsert, List.mem_append,
        List.mem_singleton]
      rintro (hold | he)
      · exact hg k (Nat.le_of_succ_le hk) hold
      · exact absurd (hnew he) (Nat.ne_of_gt hk)
    obtain ⟨g', hg'⟩ := ih (n + 1) hids
    refine ⟨g', ?_⟩
    show (walk s name _ [path n] g).EndsIn fits _
    rw [hunknown hg]
    refine Dialogue.endsIn_bind.mpr ⟨a, ha, ?_⟩
    simp only [ho]
    rw [hpath, List.append_nil]
    exact hg'

namespace Memory

/-- a file that needs `./\/\`, which is the file itself by its key, and not by its components -/
def windingFile : Memory := .ofList [(⟨"/p/a"⟩, .text "require('./\\\\/\\\\');")]

def windingSettings : Settings := ⟨⟨"/p"⟩, [".js"], []⟩

def windingNames (n : Nat) : List String := "p" :: "a" :: List.replicate n "\\"

def windingPath (n : Nat) : Path := rooted (windingNames n ++ ["\\"])

theorem windingNames_succ (n : Nat) : windingNames (n + 1) = windingNames n ++ ["\\"] := by
  unfold windingNames
  rw [List.replicate_succ']
  rfl

theorem isProper_windingNames (n : Nat) :
    ∀ t ∈ windingNames n ++ ["\\"], (Component.name t).IsProper := by
  intro t ht
  rw [← windingNames_succ, windingNames, List.mem_cons, List.mem_cons] at ht
  rcases ht with rfl | rfl | ht
  · exact ⟨by decide, by decide, by decide, by decide⟩
  · exact ⟨by decide, by decide, by decide, by decide⟩
  · rw [List.eq_of_mem_replicate ht]
    exact ⟨by decide, by decide, by decide, by decide⟩

/-- the way along which the file is found is not in its key -/
theorem key_windingPath (n : Nat) : key (windingPath n) = "/p/a" := by
  have hhome : (⟨"/p/a"⟩ : Path).IsHome :=
    ⟨by decide, by decide, by decide, by decide⟩
  have hnames : windingNames n ++ ["\\"] = ["p", "a"] ++ List.replicate (n + 1) "\\" := by
    rw [← windingNames_succ]
    rfl
  have htext : windingPath n =
      ⟨"/p/a" ++ String.ofList (below (List.replicate (n + 1) "\\"))⟩ := by
    refine congrArg Path.mk ?_
    show (rooted (windingNames n ++ ["\\"])).text = _
    rw [hnames, text_rooted_append (List.cons_ne_nil _ _)]
    rfl
  have hslashes : ∀ c ∈ (below (List.replicate (n + 1) "\\")).map
      (fun c => if c = '\\' then '/' else c), decide (c = '/') = true := by
    intro c hc
    obtain ⟨d, hd, rfl⟩ := List.mem_map.mp hc
    obtain ⟨name, hname, hd⟩ := List.mem_flatMap.mp hd
    rw [List.eq_of_mem_replicate hname] at hd
    have hd' : d ∈ ['/', '\\'] := hd
    rcases List.mem_pair.mp hd' with rfl | rfl
    · decide
    · decide
  rw [htext, key_append hhome, addedKey, String.toList_ofList,
    List.rdropWhile_eq_nil_iff.mpr hslashes]
  rfl

theorem isFile_windingPath (n : Nat) : windingFile.isFile (windingPath n) = true := by
  rw [isFile, key_windingPath]
  decide +kernel

/-- from the directory of the file one comes to the next path -/
theorem normalize_join_winding {d : Path} {n : Nat}
    (hd : d.components = .root :: (windingNames n).map .name) :
    (d.join "./\\/\\").normalize = windingPath (n + 1) := by
  have habs : d.isAbsolute = true := by
    rw [isAbsolute_iff, hd]
    exact List.mem_cons_self
  have hsteps : stepsOf ⟨"./\\/\\"⟩ = ["\\", "\\"].map Component.name := by decide
  rw [Path.normalize, components_join habs (by decide), hd, hsteps, List.cons_append, ← List.map_append,
    normalComponents_names, windingPath, windingNames_succ, List.append_assoc]
  rfl

theorem exists_directory_winding (n : Nat) : ∃ d, (windingPath n).parent? = some d ∧
    d.components = .root :: (windingNames n).map .name := by
  have hne : windingNames n ≠ [] := List.cons_ne_nil _ _
  exact exists_parent? hne (isProper_windingNames n)

theorem readText_winding (n : Nat) :
    windingFile.readText (windingPath n) = .ok "require('./\\\\/\\\\');" := by
  have hfile : windingFile.files.get? "/p/a" = some (.text "require('./\\\\/\\\\');") := by
    decide +kernel
  rw [readText, read, key_windingPath, hfile]
  rfl

theorem exists_tree_winding : ∃ tree c, Script.parser "require('./\\\\/\\\\');" = .ok tree ∧
    tree.calls = [c] ∧ c.argument = .literal "./\\/\\" := by
  have hparsed : (Script.parser "require('./\\\\/\\\\');").map
      (fun tree => tree.calls.map Script.Call.argument) = .ok [.literal "./\\/\\"] := by
    decide +kernel
  cases htree : Script.parser "require('./\\\\/\\\\');" with
  | error e =>
    rw [htree] at hparsed
    cases hparsed
  | ok tree =>
    rw [htree] at hparsed
    obtain ⟨c, hcalls, hliteral⟩ := List.map_eq_singleton_iff.mp (Except.ok.inj hparsed)
    exact ⟨tree, c, rfl, hcalls, hliteral⟩

theorem resolve_winding {d : Path} {n : Nat}
    (hd : d.components = .root :: (windingNames n).map .name) (importer : Option ModuleId) :
    (resolve [".js"] d "./\\/\\" importer).result (windingFile.answer Script.parser) =
      .ok (windingPath (n + 1)) := by
  refine resolve_eq_ok_iff.mpr ?_
  show List.find? _ ((d.join "./\\/\\").normalize :: _) = _
  rw [normalize_join_winding hd]
  exact List.find?_cons_of_pos (isFile_windingPath (n + 1))

/-- each path of the file leads to the next -/
theorem exists_analysed_winding (n : Nat) : ∃ found,
    windingSettings.Analysed (Dialogue.Known (windingFile.answer Script.parser)) (windingPath n)
      found ∧ found.1.map Dependency.path = [windingPath (n + 1)] := by
  obtain ⟨d, hparent, hd⟩ := exists_directory_winding n
  obtain ⟨tree, c, htree, hcalls, hliteral⟩ := exists_tree_winding
  have hextract : (extract (windingSettings.site (windingPath n)) tree.calls).EndsIn
      (Dialogue.Known (windingFile.answer Script.parser))
      ((⟨[], [], none⟩ : Extraction).after c
        ⟨"./\\/\\", windingSettings.idOf (windingPath (n + 1)), windingPath (n + 1)⟩) := by
    rw [hcalls, Settings.site, hparent]
    unfold extract
    simp only [hliteral]
    exact Dialogue.endsIn_bind.mpr ⟨_, Dialogue.endsIn_known.mpr (resolve_winding hd _),
      Dialogue.endsIn_bind.mpr ⟨_, .done _, .done _⟩⟩
  exact ⟨_, ⟨_, _, tree, _, (readText_winding n).symm, rfl, htree.symm, hextract, rfl, rfl⟩, rfl⟩

theorem idOf_windingPath_injective :
    Function.Injective fun n => windingSettings.idOf (windingPath n) := by
  intro i j h
  have hpath : windingPath i = windingPath j :=
    IsPlain.eq_of_id (by decide) ⟨_, isProper_windingNames i, rfl⟩
      ⟨_, isProper_windingNames j, rfl⟩ h
  have hcomponents := congrArg components hpath
  rw [windingPath, windingPath, components_rooted (isProper_windingNames i),
    components_rooted (isProper_windingNames j)] at hcomponents
  have hlength := congrArg List.length hcomponents
  simpa [windingNames] using hlength

/-- **One file uses up any room.** -/
theorem build_winding (limit : Nat) (name : String) : ∃ g',
    (build windingSettings limit name (windingPath 0) {}).result
      (windingFile.answer Script.parser) = (.error (.tooManyModules limit), g') := by
  have hgrow : ∃ g', (grow windingSettings name limit (limit - ({} : Growth).graph.size)
      [windingPath 0] {}).EndsIn (Dialogue.Known (windingFile.answer Script.parser))
      (some (.tooManyModules limit), g') :=
    full_of_endless idOf_windingPath_injective exists_analysed_winding _ 0
      fun _ _ => List.not_mem_nil
  obtain ⟨g', hg'⟩ := hgrow
  exact ⟨g', Dialogue.endsIn_known.mp (Dialogue.endsIn_bind.mpr ⟨_, hg', .done _⟩)⟩

theorem not_build_ends :
    ¬ ∀ (s : Settings) (m : Memory) (parser : Parser) (name : String) (p : Path) (g : Growth),
      ∃ limit, ∀ l, ((build s limit name p g).result (m.answer parser)).1 ≠
        .error (.tooManyModules l) := by
  intro h
  obtain ⟨limit, hlimit⟩ :=
    h windingSettings windingFile Script.parser "main" (windingPath 0) {}
  obtain ⟨g', hg'⟩ := build_winding limit "main"
  exact hlimit limit (congrArg Prod.fst hg')

end Memory

end Bindle
