import Bindle.Proofs.Graph.History
import Bindle.Proofs.Graph.Stopping

/-!
# What failed requests leave behind

A request that fails leaves modules whose dependencies are missing, or are not in the chunk.  A later
request that comes to such a module goes no further, and ends well.

* `Blamed s calls`           the modules that the errors of some calls are about;
* `ModuleGraph.ClosedBut`    every chunk has what its modules depend on, except where some of these
                             modules are reached.

The main result is `isIn_of_reaches_of_buildEntry`: the chunk of an entry has all that the entry
reaches, unless it reaches the blame of an earlier failure.  `not_closed_of_leftovers` shows one that
does.
-/

namespace Bindle

variable {s : Settings} {fits : (q : Question) → q.Answer → Prop} {name : String}

/-! ## chunks that are closed but for some modules -/

namespace ModuleGraph

variable {B : ModuleId → Prop} {g g' : ModuleGraph} {n : String} {a b : ModuleId}

/-- chunks have all that their modules depend on, except for the modules that reach into `B` -/
def ClosedBut (B : ModuleId → Prop) (g : ModuleGraph) : Prop :=
  ∀ n a b, g.IsIn n a → g.Depends a b → g.IsIn n b ∨ g.ReachesInto B a

theorem ClosedBut.empty : (ModuleGraph.empty).ClosedBut B :=
  fun _ _ _ ⟨_, hm, _⟩ => absurd hm List.not_mem_nil

/-- a module that is in some chunk has its dependencies there -/
theorem ClosedBut.resolvedBut (h : g.ClosedBut B) (hg : g.Named) : g.ResolvedBut name B := by
  rintro a b ⟨m, hm, hid, -⟩ hab
  obtain ⟨n, hn⟩ := List.exists_mem_of_ne_nil _ (hg m hm).1
  exact (h n a b ⟨m, hm, hid, hn⟩ hab).imp_left IsIn.mem_ids

/-- other chunks stay as they are -/
theorem Extends.isIn_of_ne (h : Extends name g g') (hne : n ≠ name) (ha : g'.IsIn n a) :
    g.IsIn n a := by
  obtain ⟨m', hm', hid, hn⟩ := ha
  rcases h.origin m' hm' with ⟨m, hm, rfl | ⟨-, rfl⟩⟩ | ⟨-, hnames⟩
  · exact ⟨m', hm, hid, hn⟩
  · rcases List.mem_append.mp hn with hn | hn
    · exact ⟨m, hm, hid, hn⟩
    · exact absurd (List.mem_singleton.mp hn) hne
  · rw [hnames] at hn
    exact absurd (List.mem_singleton.mp hn) hne

/-- from a module that does not reach into `B`, nothing leads out of a closed chunk -/
theorem ClosedBut.isIn_of_reaches (h : g.ClosedBut B) (ha : g.IsIn n a)
    (hnone : ¬ g.ReachesInto B a) (hab : g.Reaches a b) : g.IsIn n b := by
  induction hab with
  | refl => exact ha
  | @tail b c hreach hbc ih =>
    refine (h n b c ih hbc).resolve_right ?_
    rintro ⟨x, hx, hbx⟩
    exact hnone ⟨x, hx, Relation.ReflTransGen.trans hreach hbx⟩

end ModuleGraph

/-- growing keeps chunks closed, but for the file that it fails on -/
theorem Grows.closedBut {B : ModuleId → Prop} {paths : List Path} {g : Growth} {r : Grown}
    (h : Grows s fits name False paths g r)
    (hblamed : ∀ e, r.1 = some e → ∀ x, s.blamed? e = some x → B x) (hnamed : g.graph.Named)
    (hg : g.graph.ClosedBut B) : r.2.graph.ClosedBut B := by
  have hext : ModuleGraph.Extends name g.graph r.2.graph := h.extends
  obtain ⟨-, hnew⟩ := h.spread_or_reachesInto
    (fun p a e ha ho he => hblamed e he _ (Settings.failsOn_of_analyse ha ho).blamed)
    (hg.resolvedBut hnamed)
  intro n a b ha hab
  by_cases hold : g.graph.IsIn n a
  · exact (hg n a b hold (hext.depends_of_mem_ids hold.mem_ids hab)).imp hext.isIn
      hext.reachesInto
  · by_cases hne : n = name
    · subst hne
      exact hnew a b ha hold hab
    · exact absurd (hext.isIn_of_ne hne ha) hold

/-! ## calls -/

/-- the modules that the errors of some calls are about -/
def Blamed (s : Settings) (calls : List (Request × Except BuildError ModuleId)) (x : ModuleId) :
    Prop :=
  ∃ c ∈ calls, ∃ e, c.2 = .error e ∧ s.blamed? e = some x

/-- a call that goes well is no failure -/
theorem exists_failure_of_concat {calls : List (Request × Except BuildError ModuleId)} {r : Request}
    {id : ModuleId} {c : Request × Except BuildError ModuleId} {e : BuildError}
    (hc : c ∈ calls ++ [(r, .ok id)]) (he : c.2 = .error e) : c ∈ calls := by
  rcases List.mem_append.mp hc with hc | hc
  · exact hc
  · rw [List.mem_singleton.mp hc] at he
    cases he

theorem Serves.concat {g g₁ g₂ : Growth} {calls : List (Request × Except BuildError ModuleId)}
    {r : Request} {result : Except BuildError ModuleId} (h : Serves s fits g calls g₁)
    (hserve : r.Comes s fits g₁ result g₂) : Serves s fits g (calls ++ [(r, result)]) g₂ := by
  induction h with
  | nil => exact .cons hserve (.nil g₂)
  | cons hfirst _ ih => exact .cons hfirst (ih hserve)

theorem Serves.closedBut {g : Growth} {calls : List (Request × Except BuildError ModuleId)}
    (h : Serves s fits {} calls g) : g.graph.ClosedBut (Blamed s calls) := by
  have hempty : ({} : Growth).graph.Named ∧ ({} : Growth).graph.ClosedBut (Blamed s calls) :=
    ⟨fun _ hm => absurd hm List.not_mem_nil, .empty⟩
  refine (h.keeps (Q := fun g => g.graph.Named ∧ g.graph.ClosedBut (Blamed s calls))
    (fun c hc p g failure g' _ hgrow hresult ⟨hnamed, hclosed⟩ => ?_) hempty).2
  have hfailure : ∀ e, failure = some e → c.2 = .error e := by
    rintro e rfl
    exact hresult
  exact ⟨hgrow.extends.named hnamed,
    hgrow.closedBut (fun e he x hx => ⟨c, hc, e, hfailure e he, hx⟩) hnamed hclosed⟩

section

variable {calls : List (Request × Except BuildError ModuleId)} {g : Growth}

/-- the modules of a history are of a kind that its requests start at, if its graph stays within it -/
theorem Serves.ofKind {P : Path → Prop} (h : Serves s fits {} calls g)
    (hstarts : ∀ c ∈ calls, ∀ p, c.1.StartsAt s fits p → P p)
    (hstays : g.graph.StaysIn s fits P) : g.graph.OfKind P := by
  -- what stays in the last graph stays in every graph before it
  refine h.keeps (Q := fun g => g.graph.StaysIn s fits P → g.graph.OfKind P)
    (fun c hc p g failure g' hstart hgrow _ hg hstays => ?_) (fun _ => .empty) hstays
  have hext : ModuleGraph.Extends c.1.name g.graph g'.graph := hgrow.extends
  refine hgrow.ofKind_of_staysIn hstays (fun q hq => ?_) (hg (hstays.of_keeps hext.keeps))
  exact List.mem_singleton.mp hq ▸ hstarts c hc p hstart

/-- the modules of a history are what analysing their files gives -/
theorem Serves.all_analysed (h : Serves s fits {} calls g) : s.Analyses fits g.graph :=
  h.keeps (fun _ _ _ _ _ _ _ hgrow _ hg => hgrow.analyses hg)
    (fun _ hm => absurd hm List.not_mem_nil)

end

/-! ## plain files -/

def Request.IsEntry : Request → Prop
  | module .. => False
  | entry .. => True

section

variable {calls : List (Request × Except BuildError ModuleId)} (hs : s.KeepsPlain)
  (hentries : ∀ c ∈ calls, c.1.IsEntry)

include hs

theorem Settings.KeepsPlain.startsAt {r : Request} (hr : r.IsEntry) {p : Path}
    (hp : r.StartsAt s fits p) : p.IsPlain := by
  cases r with
  | module => exact absurd hr id
  | entry => exact hs.resolved hs.root hp

theorem Settings.KeepsPlain.handsOn : s.HandsOn fits Path.IsPlain :=
  fun _ _ hp hfound => hs.analysed hp hfound

include hentries

/-- the graph of entries has the modules of plain files -/
theorem Serves.analyses {g : Growth} (h : Serves s fits {} calls g) :
    g.graph.OfKind Path.IsPlain ∧ s.Analyses fits g.graph := by
  refine ⟨h.ofKind (fun c hc p hp => hs.startsAt (hentries c hc) hp) ?_, h.all_analysed⟩
  exact fun m _ hm hanalysed => hs.handsOn m.path _ hm hanalysed

/-- the blame of a failure lies on a plain file that fails -/
theorem Serves.exists_failsOn {g g' : Growth} (h : Serves s fits g calls g') {x : ModuleId}
    (hx : Blamed s calls x) : ∃ p e, p.IsPlain ∧ s.idOf p = x ∧ s.FailsOn fits p e := by
  obtain ⟨c, hc, e, he, hblamed⟩ := hx
  induction h with
  | nil => exact absurd hc List.not_mem_nil
  | @cons g g₁ g' r result rest hserve _ ih =>
    rcases List.mem_cons.mp hc with rfl | hc
    · obtain rfl : result = .error e := he
      rcases Request.comes_iff.mp hserve with ⟨_, _, e', _, hresult, _, hrefused⟩ |
        ⟨p, failure, hstart, hgrow, hresult⟩
      · -- an entry that stands for no file is nobody's fault
        obtain ⟨-, rfl⟩ := resolve_eq_error_iff.mp hrefused
        cases hresult
        cases hblamed
      · cases failure with
        | none => cases hresult
        | some e' =>
          cases hresult
          have hp := hs.startsAt (hentries _ List.mem_cons_self) hstart
          obtain ⟨q, hq, hfails⟩ :=
            hgrow.exists_failsOn hs.handsOn (fun q hq => List.mem_singleton.mp hq ▸ hp) rfl
          exact ⟨q, e, hq, Option.some.inj (hfails.blamed.symm.trans hblamed), hfails⟩
    · exact ih (fun c hc => hentries c (List.mem_cons_of_mem _ hc)) hc

/-- with answers known beforehand a file that fails is never there -/
theorem Serves.not_mem_of_blamed {answer : (q : Question) → q.Answer} {g : Growth}
    (h : Serves s (Dialogue.Known answer) {} calls g) {x : ModuleId}
    (hx : Blamed s calls x) : x ∉ g.graph.ids := by
  intro hmem
  obtain ⟨p, e, hp, rfl, hfails⟩ := h.exists_failsOn hs hentries hx
  obtain ⟨hplain, hanalyses⟩ := h.analyses hs hentries
  obtain ⟨m, hm, hid⟩ := ModuleGraph.mem_ids.mp hmem
  obtain ⟨hid', hfound⟩ := hanalyses m hm
  obtain rfl := (hplain m hm).eq_of_id hs.root hp (hid'.symm.trans hid)
  exact hfails.not_analysed hfound

end

/-! ## entries -/

/-- **What an entry may be without.**  Calls were made before, of which some may have failed, and now
an entry is built.  All that it reaches is there and in its chunk, unless it reaches a module on which
an earlier call has failed; and when only entries were built before, something is missing if it does
reach such a module. -/
theorem isIn_of_reaches_of_buildEntry {answer : (q : Question) → q.Answer} {limit : Nat}
    {before : List (Request × Except BuildError ModuleId)} {specifier : String} {id : ModuleId}
    {g g' : Growth} (hbefore : Serves s (Dialogue.Known answer) {} before g)
    (h : (buildEntry s limit name specifier g).result answer = (.ok id, g')) :
    ((∀ x, Blamed s before x → ¬ g'.graph.Reaches id x) →
      ∀ a, g'.graph.Reaches id a → g'.graph.IsIn name a) ∧
    (s.KeepsPlain → (∀ c ∈ before, c.1.IsEntry) →
      ((∀ a, g'.graph.Reaches id a → g'.graph.IsIn name a) ↔
        ∀ x, Blamed s before x → ¬ g'.graph.Reaches id x)) := by
  have hserve : (Request.entry name specifier).Comes s (Dialogue.Known answer) g (.ok id) g' :=
    ⟨⟨limit, Dialogue.endsIn_known.mpr h⟩, fun _ => nofun⟩
  have hall := hbefore.concat hserve
  have hclosed : (∀ x, Blamed s before x → ¬ g'.graph.Reaches id x) →
      ∀ a, g'.graph.Reaches id a → g'.graph.IsIn name a := by
    intro hspared a ha
    refine hall.closedBut.isIn_of_reaches hserve.isIn ?_ ha
    rintro ⟨x, ⟨c, hc, e, he, hblamed⟩, hreach⟩
    exact hspared x ⟨c, exists_failure_of_concat hc he, e, he, hblamed⟩ hreach
  refine ⟨hclosed, fun hs hentries => ⟨fun hin x ⟨c, hc, hblamed⟩ hreach => ?_, hclosed⟩⟩
  have hentries' : ∀ c ∈ before ++ [(.entry name specifier, .ok id)], c.1.IsEntry :=
    List.forall_mem_append.mpr ⟨hentries, List.forall_mem_singleton.mpr trivial⟩
  exact hall.not_mem_of_blamed hs hentries' ⟨c, List.mem_append_left _ hc, hblamed⟩
    (hin x hreach).mem_ids

/-! ## leftovers -/

/-- of two projects the first needs a file that is missing -/
def leftoverFiles : Memory := .ofList [(⟨"/p/a.js"⟩, .text "require('./b');"),
  (⟨"/p/b.js"⟩, .text "require('./c');"), (⟨"/p/d.js"⟩, .text "require('./e');"),
  (⟨"/p/e.js"⟩, .text "")]

def plainSettings : Settings := ⟨⟨"/p"⟩, [".js"], []⟩

def missingError : BuildError :=
  .resolution "./c" ⟨"/p"⟩ (some ⟨"./b.js"⟩) [⟨"/p/c"⟩, ⟨"/p/c.js"⟩]

/-- the first project, from the beginning -/
def firstProject : Except BuildError ModuleId × Growth :=
  (buildEntry plainSettings ModuleGraph.capacity "main" "./a" {}).result
    (leftoverFiles.answer Script.parser)

theorem fst_firstProject : firstProject.1 = .error missingError := by decide +kernel

/-- what it leaves behind -/
def leftovers : Growth := firstProject.2

theorem firstProject_eq : firstProject = (.error missingError, leftovers) := by
  unfold leftovers
  rw [← fst_firstProject]

theorem serves_leftovers : Serves plainSettings
    (Dialogue.Known (leftoverFiles.answer Script.parser)) {}
    [(.entry "main" "./a", .error missingError)] leftovers := by
  have hserve : ((Request.entry "main" "./a").serve plainSettings ModuleGraph.capacity {}).EndsIn
      (Dialogue.Known (leftoverFiles.answer Script.parser)) firstProject :=
    Dialogue.endsIn_known.mpr rfl
  rw [firstProject_eq] at hserve
  exact .cons ⟨⟨_, hserve⟩, fun _ => nofun⟩ (.nil _)

/-- the second project is built whole -/
theorem isIn_of_other_project : ∃ g',
    (buildEntry plainSettings ModuleGraph.capacity "alt" "./d" leftovers).result
      (leftoverFiles.answer Script.parser) = (.ok ⟨"./d.js"⟩, g') ∧
    g'.graph.ids = [⟨"./a.js"⟩, ⟨"./d.js"⟩, ⟨"./e.js"⟩] ∧
    ∀ a, g'.graph.Reaches ⟨"./d.js"⟩ a → g'.graph.IsIn "alt" a := by
  have hr : ((buildEntry plainSettings ModuleGraph.capacity "alt" "./d" leftovers).result
      (leftoverFiles.answer Script.parser)).map id
        (fun g => (g.graph.ids, g.graph.next ⟨"./d.js"⟩, g.graph.next ⟨"./e.js"⟩)) =
      (.ok ⟨"./d.js"⟩, [⟨"./a.js"⟩, ⟨"./d.js"⟩, ⟨"./e.js"⟩], [⟨"./e.js"⟩], []) := by
    decide +kernel
  cases hbuilt : (buildEntry plainSettings ModuleGraph.capacity "alt" "./d" leftovers).result
      (leftoverFiles.answer Script.parser) with
  | mk result g' =>
    rw [hbuilt] at hr
    obtain ⟨rfl, hids, hd, he⟩ : result = .ok ⟨"./d.js"⟩ ∧
        g'.graph.ids = [⟨"./a.js"⟩, ⟨"./d.js"⟩, ⟨"./e.js"⟩] ∧
        g'.graph.next ⟨"./d.js"⟩ = [⟨"./e.js"⟩] ∧ g'.graph.next ⟨"./e.js"⟩ = [] := by
      simpa using hr
    refine ⟨g', rfl, hids, (isIn_of_reaches_of_buildEntry serves_leftovers hbuilt).1 ?_⟩
    rintro x ⟨c, hc, e, hfailure, hblamed⟩ hreach
    rw [List.mem_singleton.mp hc] at hfailure
    cases hfailure
    cases hblamed
    have hway : ∀ a, g'.graph.Reaches ⟨"./d.js"⟩ a → a = ⟨"./d.js"⟩ ∨ a = ⟨"./e.js"⟩ := by
      intro a ha
      induction ha with
      | refl => exact .inl rfl
      | tail _ hab ih =>
        have hnext := ModuleGraph.mem_next.mpr hab
        rcases ih with rfl | rfl
        · rw [hd] at hnext
          exact .inr (List.mem_singleton.mp hnext)
        · rw [he] at hnext
          exact absurd hnext List.not_mem_nil
    exact absurd (hway _ hreach) (by decide)

/-- **A graph need not be closed.**  The first project is built once more, and now it is found to be
there; but the file on which it failed is not. -/
theorem not_closed_of_leftovers : ¬ ∀ (s : Settings) (files : Memory)
    (before : List (Request × Except BuildError ModuleId)) (name specifier : String)
    (id : ModuleId) (g g' : Growth),
    (∀ c ∈ before, c.1.IsEntry) →
    Serves s (Dialogue.Known (files.answer Script.parser)) {} before g →
    (buildEntry s ModuleGraph.capacity name specifier g).result (files.answer Script.parser) =
      (.ok id, g') →
    ∀ a, g'.graph.Reaches id a → g'.graph.IsIn name a := by
  intro hall
  have hr : ((buildEntry plainSettings ModuleGraph.capacity "main" "./a" leftovers).result
      (leftoverFiles.answer Script.parser)).map id
        (fun g => (g.graph.ids, g.graph.next ⟨"./a.js"⟩)) =
      (.ok ⟨"./a.js"⟩, [⟨"./a.js"⟩], [⟨"./b.js"⟩]) := by
    decide +kernel
  cases hbuilt : (buildEntry plainSettings ModuleGraph.capacity "main" "./a" leftovers).result
      (leftoverFiles.answer Script.parser) with
  | mk result g' =>
    rw [hbuilt] at hr
    obtain ⟨rfl, hids, hnext⟩ : result = .ok ⟨"./a.js"⟩ ∧ g'.graph.ids = [⟨"./a.js"⟩] ∧
        g'.graph.next ⟨"./a.js"⟩ = [⟨"./b.js"⟩] := by
      simpa using hr
    have hreach : g'.graph.Reaches ⟨"./a.js"⟩ ⟨"./b.js"⟩ :=
      .single (ModuleGraph.mem_next.mp (hnext ▸ List.mem_singleton_self _))
    have hin := hall plainSettings leftoverFiles [(.entry "main" "./a", .error missingError)]
      "main" "./a" _ leftovers g' (List.forall_mem_singleton.mpr trivial) serves_leftovers hbuilt _
      hreach
    have hmem := hin.mem_ids
    rw [hids] at hmem
    exact absurd hmem (by decide)

end Bindle
