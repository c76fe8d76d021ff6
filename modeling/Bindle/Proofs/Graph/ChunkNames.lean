import Bindle.Chunk
import Bindle.Files.Host
import Bindle.Proofs.Graph.Growth
import Mathlib.Data.List.Induction

/-!
# The chunks of a module

A module is in exactly the chunks of the entries that reach it.  New modules get a name from the
paths that are gone through, known ones get it by joining; `Grows.spread` says what both together
give, and `Settled` is what holds between two entries.  Main result: `chunkNames_buildEntries`.
-/

namespace Bindle

namespace ModuleGraph

variable {g g' : ModuleGraph} {name : String} {a b : ModuleId}

/-- all dependencies are there -/
def Resolved (g : ModuleGraph) : Prop := ∀ a b, g.Depends a b → b ∈ g.ids

/-- the dependencies of all modules outside a chunk are there -/
def ResolvedOutside (g : ModuleGraph) (name : String) : Prop :=
  ∀ a b, g.IsOutside name a → g.Depends a b → b ∈ g.ids

theorem Resolved.outside (h : g.Resolved) : g.ResolvedOutside name := fun a b _ hab => h a b hab

/-- some module of the kind `B` is reached; it need not be there -/
def ReachesInto (g : ModuleGraph) (B : ModuleId → Prop) (a : ModuleId) : Prop :=
  ∃ x, B x ∧ g.Reaches a x

/-- the same, except for the modules that reach into `B` -/
def ResolvedBut (g : ModuleGraph) (name : String) (B : ModuleId → Prop) : Prop :=
  ∀ a b, g.IsOutside name a → g.Depends a b → b ∈ g.ids ∨ g.ReachesInto B a

theorem ReachesInto.head {B : ModuleId → Prop} (h : g.ReachesInto B b) (hab : g.Depends a b) :
    g.ReachesInto B a := by
  obtain ⟨x, hx, hreach⟩ := h
  exact ⟨x, hx, hreach.head hab⟩

theorem Extends.reachesInto {B : ModuleId → Prop} (h : Extends name g g')
    (ha : g.ReachesInto B a) : g'.ReachesInto B a := by
  obtain ⟨x, hx, hreach⟩ := ha
  exact ⟨x, hx, h.reaches hreach⟩

theorem Extends.isOutside (h : Extends name g g') (ha : g'.IsOutside name a) :
    g.IsOutside name a := by
  obtain ⟨m', hm', hid, hout⟩ := ha
  rcases h.origin m' hm' with ⟨m, hm, rfl | ⟨-, rfl⟩⟩ | ⟨-, hnames⟩
  · exact ⟨m', hm, hid, hout⟩
  · exact absurd (List.mem_append_right _ List.mem_cons_self) hout
  · rw [hnames] at hout
    exact absurd List.mem_cons_self hout

theorem ResolvedBut.extends {B : ModuleId → Prop} (hg : g.ResolvedBut name B)
    (h : Extends name g g') : g'.ResolvedBut name B := by
  intro a b ha hab
  have ha' := h.isOutside ha
  rcases hg a b ha' (h.depends_of_mem_ids ha'.mem_ids hab) with hb | hinto
  · exact .inl (h.ids_subset hb)
  · exact .inr (h.reachesInto hinto)

/-- what is reached from a module whose dependencies are all there stays the same -/
theorem Resolved.reaches_iff (hg : g.Resolved) (h : Extends name g g') (ha : a ∈ g.ids) :
    g'.Reaches a b ↔ g.Reaches a b := by
  constructor
  · intro hab
    suffices hmem : g.Reaches a b ∧ b ∈ g.ids from hmem.1
    induction hab with
    | refl => exact ⟨.refl, ha⟩
    | tail _ hxy ih =>
      have hxy' := h.depends_of_mem_ids ih.2 hxy
      exact ⟨ih.1.tail hxy', hg _ _ hxy'⟩
  · exact h.reaches

theorem Resolved.mem_ids_of_reaches (hg : g.Resolved) (ha : a ∈ g.ids) (h : g.Reaches a b) :
    b ∈ g.ids := by
  rcases Relation.ReflTransGen.cases_tail h with rfl | ⟨x, -, hxb⟩
  · exact ha
  · exact hg x b hxb

/-- a module that has just joined has its dependencies with it, as far as they are there -/
theorem isIn_join_of_depends {id : ModuleId} (ha : (g.join name [id]).IsIn name a)
    (hout : ¬ g.IsIn name a) (hab : g.Depends a b) (hb : b ∈ g.ids) :
    (g.join name [id]).IsIn name b := by
  obtain ⟨x, hx, hlead⟩ := (isIn_join.mp ha).resolve_left hout
  by_cases hin : g.IsIn name b
  · exact isIn_join.mpr (.inl hin)
  · exact isIn_join.mpr (.inr ⟨x, hx, hlead.tail hab ((isOutside_iff hb).mpr hin)⟩)

theorem isIn_join_self (ha : a ∈ g.ids) : (g.join name [a]).IsIn name a := by
  by_cases h : g.IsIn name a
  · exact isIn_join.mpr (.inl h)
  · exact isIn_join.mpr (.inr ⟨a, List.mem_cons_self, .refl ((isOutside_iff ha).mpr h)⟩)

end ModuleGraph

/-! ## the way of a name -/

variable {s : Settings} {fits : (q : Question) → q.Answer → Prop} {name : String}
  {cut : Prop}

/-- a module that has just been read depends on the files that its calls lead to -/
theorem Settings.Analysed.depends_iff {p : Path} {found : List Dependency × String}
    {g : ModuleGraph} {b : ModuleId} (hfound : s.Analysed fits p found) (hid : s.idOf p ∉ g.ids) :
    (g.insert (s.moduleOf name p found)).Depends (s.idOf p) b ↔
      ∃ d ∈ found.1, s.idOf d.path = b := by
  refine (ModuleGraph.depends_insert_self hid).trans (List.mem_map.trans ?_)
  refine exists_congr fun d => and_congr_right fun hd => ?_
  rw [hfound.id_eq hd]

/-- all paths are `In`, up to one that is `Bad` if there is such a one -/
def GoesThrough (In Bad : Path → Prop) : List Path → Prop
  | [] => True
  | p :: rest => Bad p ∨ In p ∧ GoesThrough In Bad rest

theorem GoesThrough.of_append {In Bad : Path → Prop} {ps qs : List Path}
    (h : GoesThrough In Bad (ps ++ qs)) :
    (∃ p ∈ ps, Bad p) ∨ (∀ p ∈ ps, In p) ∧ GoesThrough In Bad qs := by
  induction ps with
  | nil => exact .inr ⟨fun p hp => absurd hp List.not_mem_nil, h⟩
  | cons p ps ih =>
    rcases h with hbad | ⟨hin, h⟩
    · exact .inl ⟨p, List.mem_cons_self, hbad⟩
    · rcases ih h with ⟨q, hq, hbad⟩ | ⟨hall, hqs⟩
      · exact .inl ⟨q, List.mem_cons_of_mem _ hq, hbad⟩
      · exact .inr ⟨List.forall_mem_cons.mpr ⟨hin, hall⟩, hqs⟩

/-- Growing puts what it goes through into the chunk, up to a file that fails, together with whatever
the modules that come into the chunk depend on; only a module that reaches `B`, where the files that
fail are, may have a dependency that stays outside. -/
theorem Grows.spread_or_reachesInto {B : ModuleId → Prop} {paths : List Path} {g : Growth}
    {r : Grown} (h : Grows s fits name False paths g r)
    (hfailed : ∀ p a e, (s.analyse p).EndsIn fits a → a.outcome = .error e → r.1 = some e →
      B (s.idOf p))
    (hg : g.graph.ResolvedBut name B) :
    GoesThrough (fun p => r.2.graph.IsIn name (s.idOf p))
        (fun p => r.2.graph.ReachesInto B (s.idOf p)) paths ∧
      ∀ a b, r.2.graph.IsIn name a → ¬ g.graph.IsIn name a → r.2.graph.Depends a b →
        r.2.graph.IsIn name b ∨ r.2.graph.ReachesInto B a := by
  induction h with
  | done g => exact ⟨trivial, fun a b ha hout => absurd ha hout⟩
  | @known p rest g r hid hrest ih =>
    have hjoin := ModuleGraph.Extends.of_join g.graph name [s.idOf p]
    have hext : ModuleGraph.Extends name (g.graph.join name [s.idOf p]) r.2.graph := hrest.extends
    obtain ⟨hpaths, hclosed⟩ := ih hfailed (hg.extends hjoin)
    refine ⟨.inr ⟨hext.isIn (ModuleGraph.isIn_join_self hid), hpaths⟩, fun a b ha hout hab => ?_⟩
    by_cases ha' : (g.graph.join name [s.idOf p]).IsIn name a
    · -- the module has just joined; its dependencies have joined with it, as far as they are there
      obtain ⟨x, -, hlead⟩ := (ModuleGraph.isIn_join.mp ha').resolve_left hout
      have houtside := hlead.isOutside
      have hab' := (hjoin.trans hext).depends_of_mem_ids houtside.mem_ids hab
      rcases hg a b houtside hab' with hb | hinto
      · exact .inl (hext.isIn (ModuleGraph.isIn_join_of_depends ha' hout hab' hb))
      · exact .inr ((hjoin.trans hext).reachesInto hinto)
    · exact hclosed a b ha ha' hab
  | @fresh p rest g r x found hid hx hfound hrest ih =>
    have hinsert : ModuleGraph.Extends name g.graph (g.graph.insert (s.moduleOf name p found)) :=
      .of_insert hid rfl
    have hext : ModuleGraph.Extends name (g.graph.insert (s.moduleOf name p found)) r.2.graph :=
      hrest.extends
    obtain ⟨hpaths, hclosed⟩ := ih hfailed (hg.extends hinsert)
    have hself : (g.graph.insert (s.moduleOf name p found)).IsIn name (s.idOf p) :=
      (ModuleGraph.isIn_insert hid).mpr (.inr ⟨rfl, List.mem_cons_self⟩)
    have hdepends : ∀ {b}, (g.graph.insert (s.moduleOf name p found)).Depends (s.idOf p) b ↔
        ∃ d ∈ found.1, s.idOf d.path = b :=
      (Settings.analysed_of_analyse hx hfound).depends_iff hid
    have hnew : ∀ a, (g.graph.insert (s.moduleOf name p found)).IsIn name a →
        ¬ g.graph.IsIn name a → a = s.idOf p :=
      fun a ha hout => (((ModuleGraph.isIn_insert hid).mp ha).resolve_left hout).1
    -- the dependencies of the new module are gone through next
    rcases hpaths.of_append with ⟨q, hq, hinto⟩ | ⟨hall, hpaths⟩
    · obtain ⟨d, hd, rfl⟩ := List.mem_map.mp hq
      have hinto' := hinto.head (hext.depends (hdepends.mpr ⟨d, hd, rfl⟩))
      refine ⟨.inl hinto', fun a b ha hout hab => ?_⟩
      by_cases ha' : (g.graph.insert (s.moduleOf name p found)).IsIn name a
      · exact .inr (hnew a ha' hout ▸ hinto')
      · exact hclosed a b ha ha' hab
    · refine ⟨.inr ⟨hext.isIn hself, hpaths⟩, fun a b ha hout hab => ?_⟩
      by_cases ha' : (g.graph.insert (s.moduleOf name p found)).IsIn name a
      · obtain rfl := hnew a ha' hout
        obtain ⟨d, hd, rfl⟩ := hdepends.mp (hext.depends_of_mem_ids hself.mem_ids hab)
        exact .inl (hall d.path (List.mem_map_of_mem hd))
      · exact hclosed a b ha ha' hab
  | @failed p rest g a e hid ha he =>
    exact ⟨.inl ⟨_, hfailed p a e ha he rfl, .refl⟩, fun a b ha hout => absurd ha hout⟩
  | full hcut => exact hcut.elim

/-- **Where a name gets to.**  Growing puts all that it goes through into the chunk, together with
whatever the modules that come into the chunk depend on. -/
theorem Grows.spread {paths : List Path} {g : Growth} {r : Grown}
    (h : Grows s fits name False paths g r) (hr : r.1 = none) (hg : g.graph.ResolvedOutside name) :
    (∀ p ∈ paths, r.2.graph.IsIn name (s.idOf p)) ∧
      ∀ a b, r.2.graph.IsIn name a → ¬ g.graph.IsIn name a → r.2.graph.Depends a b →
        r.2.graph.IsIn name b := by
  have hnone : ∀ a, ¬ r.2.graph.ReachesInto (fun _ => False) a := fun _ ⟨_, hx, _⟩ => hx
  have hbut : g.graph.ResolvedBut name fun _ => False := fun a b ha hab => .inl (hg a b ha hab)
  obtain ⟨hpaths, hclosed⟩ := h.spread_or_reachesInto
    (fun p a e _ _ he => by rw [hr] at he; cases he) hbut
  refine ⟨?_, fun a b ha hout hab => (hclosed a b ha hout hab).resolve_right (hnone a)⟩
  rw [← List.append_nil paths] at hpaths
  exact (hpaths.of_append.resolve_left fun ⟨p, _, hinto⟩ => hnone _ hinto).1

/-- **Where a name comes from.**  A module that comes into the chunk is reached from a path that is
gone through. -/
theorem Grows.source {paths : List Path} {g : Growth} {r : Grown}
    (h : Grows s fits name cut paths g r) {a : ModuleId} (ha : r.2.graph.IsIn name a) :
    g.graph.IsIn name a ∨ ∃ p ∈ paths, r.2.graph.Reaches (s.idOf p) a := by
  induction h with
  | done g => exact .inl ha
  | @known p rest g r hid hrest ih =>
    rcases ih ha with ha' | ⟨q, hq, hreach⟩
    · refine (ModuleGraph.isIn_join.mp ha').imp_right (fun ⟨x, hx, hlead⟩ => ?_)
      rw [List.mem_singleton.mp hx] at hlead
      refine ⟨p, List.mem_cons_self, hrest.extends.reaches ?_⟩
      exact (ModuleGraph.Extends.of_join _ _ _).reaches hlead.reaches
    · exact .inr ⟨q, List.mem_cons_of_mem _ hq, hreach⟩
  | @fresh p rest g r x found hid hx hfound hrest ih =>
    rcases ih ha with ha' | ⟨q, hq, hreach⟩
    · refine ((ModuleGraph.isIn_insert hid).mp ha').imp_right (fun ⟨he, _⟩ => ?_)
      exact ⟨p, List.mem_cons_self, he ▸ .refl⟩
    · rcases List.mem_append.mp hq with hq | hq
      · obtain ⟨d, hd, rfl⟩ := List.mem_map.mp hq
        have hdep : (g.graph.insert (s.moduleOf name p found)).Depends (s.idOf p) (s.idOf d.path) :=
          ((Settings.analysed_of_analyse hx hfound).depends_iff hid).mpr ⟨d, hd, rfl⟩
        exact .inr ⟨p, List.mem_cons_self, hreach.head (hrest.extends.depends hdep)⟩
      · exact .inr ⟨q, List.mem_cons_of_mem _ hq, hreach⟩
  | failed => exact .inl ha
  | full => exact .inl ha

/-! ## entries -/

theorem eraseDups_concat {α : Type} [DecidableEq α] (as : List α) (a : α) :
    (as ++ [a]).eraseDups = if a ∈ as.eraseDups then as.eraseDups else as.eraseDups ++ [a] := by
  rw [List.eraseDups_append]
  by_cases h : a ∈ as <;> simp [List.removeAll, List.mem_eraseDups, h, List.eraseDups_cons]

theorem nodup_eraseDups {α : Type} [DecidableEq α] (as : List α) : as.eraseDups.Nodup := by
  induction as using List.reverseRecOn with
  | nil => exact .nil
  | append_singleton as a ih =>
    rw [eraseDups_concat]
    split
    · exact ih
    · rename_i h
      exact List.nodup_append.mpr ⟨ih, List.nodup_singleton a, fun x hx y hy hxy =>
        h (List.mem_singleton.mp hy ▸ hxy ▸ hx)⟩

namespace ModuleGraph

open Classical in
/-- the names of the entries that reach a module, each where it comes first -/
noncomputable def namesReaching (g : ModuleGraph) (entries : List (String × ModuleId))
    (a : ModuleId) : List String :=
  ((entries.filter (fun e => g.Reaches e.2 a)).map Prod.fst).eraseDups

variable {g g' : ModuleGraph} {entries : List (String × ModuleId)} {a : ModuleId} {n : String}

theorem mem_namesReaching :
    n ∈ g.namesReaching entries a ↔ ∃ id, (n, id) ∈ entries ∧ g.Reaches id a := by
  simp [namesReaching, List.mem_eraseDups]

theorem nodup_namesReaching : (g.namesReaching entries a).Nodup := nodup_eraseDups _

theorem namesReaching_congr (h : ∀ e ∈ entries, g'.Reaches e.2 a ↔ g.Reaches e.2 a) :
    g'.namesReaching entries a = g.namesReaching entries a := by
  unfold namesReaching
  rw [List.filter_congr (fun e he => decide_eq_decide.mpr (h e he))]

/-- a further entry that does not reach the module -/
theorem namesReaching_concat_of_not_reaches {id : ModuleId} (h : ¬ g.Reaches id a) :
    g.namesReaching (entries ++ [(n, id)]) a = g.namesReaching entries a := by
  simp [namesReaching, h]

/-- a further entry that does reach it -/
theorem namesReaching_concat {id : ModuleId} (h : g.Reaches id a) :
    g.namesReaching (entries ++ [(n, id)]) a =
      if n ∈ g.namesReaching entries a then g.namesReaching entries a
      else g.namesReaching entries a ++ [n] := by
  unfold namesReaching
  rw [List.filter_append, List.map_append, List.filter_cons_of_pos (by simpa using h),
    List.filter_nil, List.map_singleton, eraseDups_concat]

end ModuleGraph

/-- what holds of a graph when the entries in `entries` have been built, each with its module -/
structure Settled (entries : List (String × ModuleId)) (g : ModuleGraph) : Prop where
  resolved : g.Resolved
  entered : ∀ e ∈ entries, e.2 ∈ g.ids
  names : ∀ m ∈ g.modules, m.chunkNames = g.namesReaching entries m.id

theorem Settled.empty : Settled [] .empty := by
  constructor
  · rintro a b ⟨m, hm, -⟩
    exact absurd hm List.not_mem_nil
  · exact fun e he => absurd he List.not_mem_nil
  · exact fun m hm => absurd hm List.not_mem_nil

namespace Settled

variable {entries : List (String × ModuleId)} {g : ModuleGraph} {n : String} {a : ModuleId}

theorem isIn_iff (h : Settled entries g) (ha : a ∈ g.ids) :
    g.IsIn n a ↔ ∃ id, (n, id) ∈ entries ∧ g.Reaches id a := by
  obtain ⟨m, hm, rfl⟩ := ModuleGraph.mem_ids.mp ha
  rw [← ModuleGraph.mem_namesReaching, ← h.names m hm]
  constructor
  · rintro ⟨m', hm', hid, hn⟩
    rwa [ModuleGraph.eq_of_id_eq hm' hm hid] at hn
  · exact fun hn => ⟨m, hm, rfl, hn⟩

/-- between two entries a chunk has all that its modules depend on -/
theorem isIn_of_depends (h : Settled entries g) {b : ModuleId} (ha : g.IsIn n a)
    (hab : g.Depends a b) : g.IsIn n b := by
  obtain ⟨id, hid, hreach⟩ := (h.isIn_iff ha.mem_ids).mp ha
  exact (h.isIn_iff (h.resolved a b hab)).mpr ⟨id, hid, hreach.tail hab⟩

section

variable {p : Path} {g g' : Growth} (h : Settled entries g.graph)
  (hgrow : Grows s fits name False [p] g (none, g'))

include hgrow in
/-- what comes into the chunk of an entry is reached from the entry -/
theorem reaches_of_isIn (ha : g'.graph.IsIn name a) (hout : ¬ g.graph.IsIn name a) :
    g'.graph.Reaches (s.idOf p) a := by
  obtain ⟨q, hq, hreach⟩ := (hgrow.source ha).resolve_left hout
  rwa [List.mem_singleton.mp hq] at hreach

include h hgrow

/-- the chunk is closed again: its old members were before, its new ones are by now -/
theorem isIn_of_depends_grown {b : ModuleId} (ha : g'.graph.IsIn name a)
    (hab : g'.graph.Depends a b) : g'.graph.IsIn name b := by
  have hext : ModuleGraph.Extends name g.graph g'.graph := hgrow.extends
  obtain ⟨-, hspread⟩ := hgrow.spread rfl h.resolved.outside
  by_cases hold : g.graph.IsIn name a
  · exact hext.isIn (h.isIn_of_depends hold (hext.depends_of_mem_ids hold.mem_ids hab))
  · exact hspread a b ha hold hab

/-- all that an entry reaches is in its chunk -/
theorem isIn_of_reaches (ha : g'.graph.Reaches (s.idOf p) a) : g'.graph.IsIn name a := by
  obtain ⟨hpaths, -⟩ := hgrow.spread rfl h.resolved.outside
  induction ha with
  | refl => exact hpaths p List.mem_cons_self
  | tail _ hxy ih => exact h.isIn_of_depends_grown hgrow ih hxy

theorem resolved_grown : g'.graph.Resolved := by
  have hext : ModuleGraph.Extends name g.graph g'.graph := hgrow.extends
  intro a b hab
  by_cases hold : a ∈ g.graph.ids
  · exact hext.ids_subset (h.resolved a b (hext.depends_of_mem_ids hold hab))
  · obtain ⟨m, hm, rfl, hb⟩ := hab
    rcases hext.origin m hm with ⟨m', hm', hent⟩ | ⟨-, hnames⟩
    · exact absurd (ModuleGraph.mem_ids.mpr ⟨m', hm', hent.id_eq.symm⟩) hold
    · have hin : g'.graph.IsIn name m.id := ⟨m, hm, rfl, hnames ▸ List.mem_cons_self⟩
      exact (h.isIn_of_depends_grown hgrow hin ⟨m, hm, rfl, hb⟩).mem_ids

/-- earlier entries reach what they did -/
theorem namesReaching_grown (a : ModuleId) :
    g'.graph.namesReaching entries a = g.graph.namesReaching entries a := by
  have hext : ModuleGraph.Extends name g.graph g'.graph := hgrow.extends
  exact ModuleGraph.namesReaching_congr
    (fun e he => h.resolved.reaches_iff hext (h.entered e he))

/-- an old module has the further name if it is reached now and did not have it before -/
theorem names_of_old {m m' : Module} (hm : m ∈ g.graph.modules) (hm' : m' ∈ g'.graph.modules)
    (hent : m.Enters name m') :
    m'.chunkNames = g'.graph.namesReaching (entries ++ [(name, s.idOf p)]) m'.id := by
  have hold : g'.graph.namesReaching entries m'.id = m.chunkNames := by
    rw [h.namesReaching_grown hgrow, hent.id_eq, h.names m hm]
  by_cases hreach : g'.graph.Reaches (s.idOf p) m'.id
  · obtain ⟨m'', hm'', hid, hin⟩ := h.isIn_of_reaches hgrow hreach
    rw [ModuleGraph.eq_of_id_eq hm'' hm' hid] at hin
    rw [ModuleGraph.namesReaching_concat hreach, hold]
    rcases hent with rfl | ⟨hout, rfl⟩
    · rw [if_pos hin]
    · rw [if_neg hout, Module.chunkNames_addChunk]
  · rw [ModuleGraph.namesReaching_concat_of_not_reaches hreach, hold]
    rcases hent with rfl | ⟨hout, rfl⟩
    · rfl
    · have hnot : ¬ g.graph.IsIn name m.id :=
        (ModuleGraph.isOutside_iff (ModuleGraph.mem_ids.mpr ⟨m, hm, rfl⟩)).mp ⟨m, hm, rfl, hout⟩
      have hin : g'.graph.IsIn name (m.addChunk name).id :=
        ⟨_, hm', rfl, List.mem_append_right _ List.mem_cons_self⟩
      exact absurd (reaches_of_isIn hgrow hin hnot) hreach

/-- a new module has this name only; no earlier entry reaches it -/
theorem names_of_new {m' : Module} (hm' : m' ∈ g'.graph.modules) (hnew : m'.id ∉ g.graph.ids)
    (hnames : m'.chunkNames = [name]) :
    m'.chunkNames = g'.graph.namesReaching (entries ++ [(name, s.idOf p)]) m'.id := by
  have hnone : g.graph.namesReaching entries m'.id = [] := by
    refine List.eq_nil_iff_forall_not_mem.mpr (fun n hn => ?_)
    obtain ⟨id, hid, hreach⟩ := ModuleGraph.mem_namesReaching.mp hn
    exact hnew (h.resolved.mem_ids_of_reaches (h.entered (n, id) hid) hreach)
  have hin : g'.graph.IsIn name m'.id := ⟨m', hm', rfl, hnames ▸ List.mem_cons_self⟩
  have hreach := reaches_of_isIn hgrow hin (fun hc => hnew hc.mem_ids)
  rw [ModuleGraph.namesReaching_concat hreach, h.namesReaching_grown hgrow, hnone,
    if_neg List.not_mem_nil, hnames, List.nil_append]

/-- **One more entry.** -/
theorem build : Settled (entries ++ [(name, s.idOf p)]) g'.graph := by
  have hext : ModuleGraph.Extends name g.graph g'.graph := hgrow.extends
  constructor
  · exact h.resolved_grown hgrow
  · intro e he
    rcases List.mem_append.mp he with he | he
    · exact hext.ids_subset (h.entered e he)
    · rw [List.mem_singleton.mp he]
      exact (h.isIn_of_reaches hgrow .refl).mem_ids
  · intro m' hm'
    rcases hext.origin m' hm' with ⟨m, hm, hent⟩ | ⟨hnew, hnames⟩
    · exact h.names_of_old hgrow hm hm' hent
    · exact h.names_of_new hgrow hm' hnew hnames

end

/-- all entries, one after the other -/
theorem buildEntries {limit : Nat} {todo : List (String × String)}
    {built : List (String × ModuleId)} {g g' : Growth} (h : Settled entries g.graph)
    (hbuild : (buildEntries s limit todo g).EndsIn fits (.ok built, g')) :
    Settled (entries ++ built) g'.graph := by
  induction todo generalizing entries built g with
  | nil =>
    cases Dialogue.endsIn_done.mp hbuild
    rwa [List.append_nil]
  | cons e todo ih =>
    obtain ⟨id, g₁, rest, hfirst, hrest, rfl⟩ := buildEntries_cons hbuild
    obtain ⟨p, -, hgrow, rfl⟩ := grows_of_buildEntry hfirst
    have hall := ih (h.build hgrow) hrest
    rwa [List.append_assoc, List.singleton_append] at hall

end Settled

theorem settled_of_buildEntries {limit : Nat} {todo : List (String × String)}
    {built : List (String × ModuleId)} {g : Growth}
    (h : (buildEntries s limit todo {}).EndsIn fits (.ok built, g)) : Settled built g.graph := by
  have hstart : Settled [] ({} : Growth).graph := .empty
  exact hstart.buildEntries h

theorem names_of_buildEntries {limit : Nat} {todo : List (String × String)}
    {built : List (String × ModuleId)} {g g' : Growth}
    (h : (buildEntries s limit todo g).EndsIn fits (.ok built, g')) :
    built.map Prod.fst = todo.map Prod.fst := by
  induction todo generalizing built g with
  | nil =>
    cases Dialogue.endsIn_done.mp h
    rfl
  | cons e todo ih =>
    obtain ⟨id, g₁, rest, -, hrest, rfl⟩ := buildEntries_cons h
    rw [List.map_cons, List.map_cons, ih hrest]

/-! ## chunks -/

theorem Settled.mem_ids_ofEntry {entries : List (String × ModuleId)} {g : ModuleGraph}
    (h : Settled entries g) {m : Module} (hm : m ∈ g.modules) (n : String) (entry : ModuleId) :
    m.id ∈ (Chunk.ofEntry g n entry).ids ↔ ∃ id, (n, id) ∈ entries ∧ g.Reaches id m.id := by
  rw [← ModuleGraph.mem_namesReaching, ← h.names m hm, ← Module.inChunk_iff]
  constructor
  · intro hid
    obtain ⟨m', hm', he⟩ := List.mem_map.mp hid
    rw [List.mem_filter] at hm'
    rw [← ModuleGraph.eq_of_id_eq hm'.1 hm he]
    exact hm'.2
  · exact fun hin => List.mem_map_of_mem (List.mem_filter.mpr ⟨hm, hin⟩)

/-- **A module is in exactly the chunks of the entries that reach it.**  This holds for whatever the
files answer, also when they change between two questions. -/
theorem chunkNames_buildEntries {limit : Nat} {todo : List (String × String)}
    {built : List (String × ModuleId)} {g : Growth}
    (h : (buildEntries s limit todo {}).CanEndIn (.ok built, g)) :
    built.map Prod.fst = todo.map Prod.fst ∧
    (∀ m ∈ g.graph.modules,
      (∀ n, n ∈ m.chunkNames ↔ ∃ id, (n, id) ∈ built ∧ g.graph.Reaches id m.id) ∧
      m.chunkNames.Nodup ∧ m.chunkNames = g.graph.namesReaching built m.id) ∧
    (Chunk.assemble g.graph built).map (fun c => (c.name, c.entry)) = built ∧
    ∀ c ∈ Chunk.assemble g.graph built,
      c.ids.Sublist g.graph.ids ∧ c.ids.Nodup ∧ c.entry ∈ c.ids ∧
      ∀ m ∈ g.graph.modules,
        (m.id ∈ c.ids ↔ ∃ id, (c.name, id) ∈ built ∧ g.graph.Reaches id m.id) := by
  have hs := settled_of_buildEntries h
  refine ⟨names_of_buildEntries h, fun m hm => ?_, ?_, fun c hc => ?_⟩
  · rw [hs.names m hm]
    exact ⟨fun n => ModuleGraph.mem_namesReaching, ModuleGraph.nodup_namesReaching, rfl⟩
  · rw [Chunk.assemble, List.map_map]
    exact List.map_id' built
  · obtain ⟨⟨n, entry⟩, he, rfl⟩ := List.mem_map.mp hc
    have hsub : (Chunk.ofEntry g.graph n entry).ids.Sublist g.graph.ids :=
      List.filter_sublist.map Module.id
    refine ⟨hsub, hsub.nodup g.graph.distinct, ?_, fun m hm => hs.mem_ids_ofEntry hm n entry⟩
    obtain ⟨m, hm, rfl⟩ := ModuleGraph.mem_ids.mp (hs.entered _ he)
    exact (hs.mem_ids_ofEntry hm n m.id).mpr ⟨m.id, he, .refl⟩

/-- two files that need each other -/
def cyclicFiles : Memory :=
  .ofList [(⟨"/p/a.js"⟩, .text "require('./b');"), (⟨"/p/b.js"⟩, .text "require('./a');")]

/-- the second entry comes to modules that are there already, and so does a third under the name of
the first -/
theorem chunkNames_cycle : ∃ built g,
    (buildEntries ⟨⟨"/p"⟩, [".js"], []⟩ ModuleGraph.capacity
      [("main", "./a"), ("alt", "./b"), ("main", "./b.js")] {}).CanEndIn (.ok built, g) ∧
    built = [("main", ⟨"./a.js"⟩), ("alt", ⟨"./b.js"⟩), ("main", ⟨"./b.js"⟩)] ∧
    g.graph.modules.map Module.chunkNames = [["main", "alt"], ["main", "alt"]] ∧
    ∀ m ∈ g.graph.modules, m.chunkNames = g.graph.namesReaching built m.id := by
  have h := Dialogue.canEndIn_result (cyclicFiles.answer Script.parser)
    (buildEntries ⟨⟨"/p"⟩, [".js"], []⟩ ModuleGraph.capacity
      [("main", "./a"), ("alt", "./b"), ("main", "./b.js")] {})
  have hr : ((buildEntries ⟨⟨"/p"⟩, [".js"], []⟩ ModuleGraph.capacity
      [("main", "./a"), ("alt", "./b"), ("main", "./b.js")] {}).result
        (cyclicFiles.answer Script.parser)).map id (fun g => g.graph.modules.map Module.chunkNames) =
      (.ok [("main", ⟨"./a.js"⟩), ("alt", ⟨"./b.js"⟩), ("main", ⟨"./b.js"⟩)],
        [["main", "alt"], ["main", "alt"]]) := by
    decide +kernel
  generalize (buildEntries _ _ _ _).result _ = r at h hr
  obtain ⟨built, g⟩ := r
  obtain ⟨rfl, hnames⟩ := Prod.mk.inj hr
  exact ⟨_, g, h, rfl, hnames, fun m hm => ((chunkNames_buildEntries h).2.1 m hm).2.2⟩

end Bindle
