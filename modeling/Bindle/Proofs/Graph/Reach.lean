import Bindle.Graph.Basic
import Mathlib.Data.List.Nodup
import Mathlib.Logic.Relation

/-!
# What a module reaches

* `g.Depends a b`      the module `a` of `g` depends on `b`;
* `g.Reaches a b`      `b` is reached from `a` by zero or more dependencies;
* `g.IsIn name a`      the module `a` is in a chunk;
* `g.Leads name a b`   `b` is reached from `a` through modules outside a chunk, both ends included.

`modules_join`: joining a chunk puts exactly those modules into it to which some pending module
leads; apart from their chunks all modules stay as they are (`bare_join`).
-/

namespace Bindle

namespace Module

theorem inChunk_iff {m : Module} {name : String} : m.inChunk name = true ↔ name ∈ m.chunkNames := by
  simp [inChunk]

@[simp] theorem id_addChunk (m : Module) (name : String) : (m.addChunk name).id = m.id := rfl

@[simp] theorem chunkNames_addChunk (m : Module) (name : String) :
    (m.addChunk name).chunkNames = m.chunkNames ++ [name] := rfl

/-- a module apart from the chunks that it is in -/
def bare (m : Module) : Module := { m with chunkNames := [] }

end Module

namespace ModuleGraph

variable {g : ModuleGraph} {name : String} {a b c : ModuleId}

def Depends (g : ModuleGraph) (a b : ModuleId) : Prop :=
  ∃ m ∈ g.modules, m.id = a ∧ b ∈ m.dependencyIds

def Reaches (g : ModuleGraph) : ModuleId → ModuleId → Prop := Relation.ReflTransGen g.Depends

def IsIn (g : ModuleGraph) (name : String) (a : ModuleId) : Prop :=
  ∃ m ∈ g.modules, m.id = a ∧ name ∈ m.chunkNames

/-- a module of the graph that is not in the chunk -/
def IsOutside (g : ModuleGraph) (name : String) (a : ModuleId) : Prop :=
  ∃ m ∈ g.modules, m.id = a ∧ name ∉ m.chunkNames

def Leads (g : ModuleGraph) (name : String) (a b : ModuleId) : Prop :=
  g.IsOutside name a ∧ Relation.ReflTransGen (fun x y => g.Depends x y ∧ g.IsOutside name y) a b

/-! ## modules by their ids -/

theorem eq_of_id_eq {m m' : Module} (hm : m ∈ g.modules) (hm' : m' ∈ g.modules)
    (h : m.id = m'.id) : m = m' :=
  List.inj_on_of_nodup_map g.distinct hm hm' h

theorem mem_ids : a ∈ g.ids ↔ ∃ m ∈ g.modules, m.id = a := List.mem_map

theorem find?_eq_none_iff : g.find? a = none ↔ a ∉ g.ids := by
  rw [Option.eq_none_iff_forall_ne_some, mem_ids]
  constructor
  · rintro h ⟨m, hm⟩
    exact h m (find?_eq_some_iff.mpr hm)
  · exact fun h m hm => h ⟨m, find?_eq_some_iff.mp hm⟩

theorem isOutside_iff (ha : a ∈ g.ids) : g.IsOutside name a ↔ ¬ g.IsIn name a := by
  obtain ⟨m, hm, rfl⟩ := mem_ids.mp ha
  constructor
  · rintro ⟨m', hm', hid, hout⟩ ⟨m'', hm'', hid', hin⟩
    rw [eq_of_id_eq hm' hm hid] at hout
    rw [eq_of_id_eq hm'' hm hid'] at hin
    exact hout hin
  · exact fun h => ⟨m, hm, rfl, fun hin => h ⟨m, hm, rfl, hin⟩⟩

theorem IsIn.mem_ids (h : g.IsIn name a) : a ∈ g.ids := by
  obtain ⟨m, hm, hid, -⟩ := h
  exact ModuleGraph.mem_ids.mpr ⟨m, hm, hid⟩

theorem IsOutside.mem_ids (h : g.IsOutside name a) : a ∈ g.ids := by
  obtain ⟨m, hm, hid, -⟩ := h
  exact ModuleGraph.mem_ids.mpr ⟨m, hm, hid⟩

/-! ## joining a chunk -/

theorem Leads.isOutside (h : g.Leads name a b) : g.IsOutside name b := by
  rcases Relation.ReflTransGen.cases_tail h.2 with rfl | ⟨x, -, -, hout⟩
  · exact h.1
  · exact hout

theorem Leads.reaches (h : g.Leads name a b) : g.Reaches a b :=
  Relation.ReflTransGen.mono (fun _ _ hxy => hxy.1) _ _ h.2

theorem Leads.refl (h : g.IsOutside name a) : g.Leads name a a := ⟨h, .refl⟩

theorem Leads.tail (h : g.Leads name a b) (hbc : g.Depends b c) (hc : g.IsOutside name c) :
    g.Leads name a c := ⟨h.1, h.2.tail ⟨hbc, hc⟩⟩

theorem Leads.head (ha : g.IsOutside name a) (hab : g.Depends a b) (h : g.Leads name b c) :
    g.Leads name a c := ⟨ha, h.2.head ⟨hab, h.1⟩⟩

section addChunk

variable {id : ModuleId}

theorem depends_addChunk : (g.addChunk id name).Depends a b ↔ g.Depends a b := by
  constructor
  · rintro ⟨m', hm', hid, hb⟩
    rw [modules_addChunk] at hm'
    obtain ⟨m, hm, rfl⟩ := List.mem_map.mp hm'
    refine ⟨m, hm, ?_⟩
    split at hid <;> split at hb <;> exact ⟨hid, hb⟩
  · rintro ⟨m, hm, hid, hb⟩
    refine ⟨_, modules_addChunk g id name ▸ List.mem_map_of_mem hm, ?_⟩
    split <;> exact ⟨hid, hb⟩

theorem isOutside_addChunk :
    (g.addChunk id name).IsOutside name a ↔ g.IsOutside name a ∧ a ≠ id := by
  constructor
  · rintro ⟨m', hm', hid, hout⟩
    rw [modules_addChunk] at hm'
    obtain ⟨m, hm, rfl⟩ := List.mem_map.mp hm'
    split at hid <;> rename_i h
    · rw [if_pos h] at hout
      exact absurd (List.mem_append_right _ List.mem_cons_self) hout
    · rw [if_neg h] at hout
      exact ⟨⟨m, hm, hid, hout⟩, fun he => h (hid.trans he)⟩
  · rintro ⟨⟨m, hm, rfl, hout⟩, hne⟩
    refine ⟨_, modules_addChunk g id name ▸ List.mem_map_of_mem hm, ?_⟩
    rw [if_neg hne]
    exact ⟨rfl, hout⟩

theorem Leads.of_addChunk (h : (g.addChunk id name).Leads name a b) : g.Leads name a b :=
  ⟨(isOutside_addChunk.mp h.1).1, Relation.ReflTransGen.mono (fun _ _ hxy =>
    ⟨depends_addChunk.mp hxy.1, (isOutside_addChunk.mp hxy.2).1⟩) _ _ h.2⟩

/-- what is left of a way from `a` when `id` has been put into the chunk: all of it, or the part
behind the last visit of `id` -/
theorem Leads.split (id : ModuleId) (h : g.Leads name a b) :
    b = id ∨ (g.addChunk id name).Leads name a b ∨
      ∃ d, g.Depends id d ∧ (g.addChunk id name).Leads name d b := by
  obtain ⟨ha, h⟩ := h
  induction h with
  | refl =>
    by_cases he : a = id
    · exact .inl he
    · exact .inr (.inl (Leads.refl (isOutside_addChunk.mpr ⟨ha, he⟩)))
  | @tail x y _ hxy ih =>
    by_cases he : y = id
    · exact .inl he
    · have hy : (g.addChunk id name).IsOutside name y := isOutside_addChunk.mpr ⟨hxy.2, he⟩
      rcases ih with rfl | hx | ⟨d, hd, hx⟩
      · exact .inr (.inr ⟨y, hxy.1, Leads.refl hy⟩)
      · exact .inr (.inl (hx.tail (depends_addChunk.mpr hxy.1) hy))
      · exact .inr (.inr ⟨d, hd, hx.tail (depends_addChunk.mpr hxy.1) hy⟩)

end addChunk

theorem not_isOutside_of_find?_eq_none (h : g.find? a = none) : ¬ g.IsOutside name a := by
  rintro ⟨m, hm, hid, -⟩
  exact find?_eq_none_iff.mp h (mem_ids.mpr ⟨m, hm, hid⟩)

theorem not_isOutside_of_inChunk {m : Module} (h : g.find? a = some m)
    (hin : m.inChunk name = true) : ¬ g.IsOutside name a := by
  have hmem := find?_eq_some_iff.mp h
  rw [isOutside_iff (mem_ids.mpr ⟨m, hmem⟩), not_not]
  exact ⟨m, hmem.1, hmem.2, Module.inChunk_iff.mp hin⟩

theorem join_nil : g.join name [] = g := by rw [join]

theorem join_cons_of_not_isOutside {pending : List ModuleId} (h : ¬ g.IsOutside name a) :
    g.join name (a :: pending) = g.join name pending := by
  rw [join]
  split
  · rfl
  · rename_i m hm
    have hmem := find?_eq_some_iff.mp hm
    have hin : m.inChunk name = true := by
      by_contra hc
      exact h ⟨m, hmem.1, hmem.2, fun hn => hc (Module.inChunk_iff.mpr hn)⟩
    rw [dif_pos hin]

theorem join_cons_of_isOutside {pending : List ModuleId} {m : Module} (hm : m ∈ g.modules)
    (hid : m.id = a) (hout : name ∉ m.chunkNames) :
    g.join name (a :: pending) = (g.addChunk a name).join name (m.dependencyIds ++ pending) := by
  have hfind : g.find? a = some m := find?_eq_some_iff.mpr ⟨hm, hid⟩
  rw [join]
  split
  · rename_i hnone
    rw [hfind] at hnone
    cases hnone
  · rename_i m' hm'
    rw [hfind] at hm'
    cases hm'
    rw [dif_neg (fun hin => hout (Module.inChunk_iff.mp hin))]

open Classical in
/-- a module after the modules `pending` have joined a chunk -/
noncomputable def joined (g : ModuleGraph) (name : String) (pending : List ModuleId) (m : Module) :
    Module :=
  if ∃ id ∈ pending, g.Leads name id m.id then m.addChunk name else m

theorem joined_of_leads {pending : List ModuleId} {m : Module}
    (h : ∃ id ∈ pending, g.Leads name id m.id) : g.joined name pending m = m.addChunk name :=
  if_pos h

theorem joined_of_not_leads {pending : List ModuleId} {m : Module}
    (h : ¬ ∃ id ∈ pending, g.Leads name id m.id) : g.joined name pending m = m := if_neg h

theorem joined_cons_of_not_isOutside {pending : List ModuleId} (h : ¬ g.IsOutside name a) :
    g.joined name (a :: pending) = g.joined name pending := by
  funext m
  have hnot : ¬ g.Leads name a m.id := fun hl => h hl.1
  have hiff : (∃ id ∈ a :: pending, g.Leads name id m.id) ↔ ∃ id ∈ pending, g.Leads name id m.id := by
    simp [hnot]
  by_cases hl : ∃ id ∈ pending, g.Leads name id m.id
  · rw [joined_of_leads hl, joined_of_leads (hiff.mpr hl)]
  · rw [joined_of_not_leads hl, joined_of_not_leads (fun h => hl (hiff.mp h))]

/-- the first step of a search: the module itself, then whatever its dependencies lead to -/
theorem joined_addChunk {pending : List ModuleId} {m : Module} (hm : m ∈ g.modules)
    (hout : name ∉ m.chunkNames) (m' : Module) :
    (g.addChunk m.id name).joined name (m.dependencyIds ++ pending)
        (if m'.id = m.id then m'.addChunk name else m') =
      g.joined name (m.id :: pending) m' := by
  have hstart : g.IsOutside name m.id := ⟨m, hm, rfl, hout⟩
  by_cases he : m'.id = m.id
  · rw [if_pos he, joined_of_leads ⟨m.id, List.mem_cons_self, he.symm ▸ Leads.refl hstart⟩]
    refine joined_of_not_leads (fun ⟨x, _, hx⟩ => ?_)
    exact (isOutside_addChunk.mp hx.isOutside).2 he
  · rw [if_neg he]
    by_cases h : ∃ id ∈ m.id :: pending, g.Leads name id m'.id
    · rw [joined_of_leads h]
      obtain ⟨x, hx, hlead⟩ := h
      refine joined_of_leads ?_
      rcases hlead.split m.id with he' | hlead' | ⟨d, ⟨m'', hm'', hid, hd⟩, hlead'⟩
      · exact absurd he' he
      · refine ⟨x, List.mem_append_right _ ?_, hlead'⟩
        exact (List.mem_cons.mp hx).resolve_left (isOutside_addChunk.mp hlead'.1).2
      · rw [eq_of_id_eq hm'' hm hid] at hd
        exact ⟨d, List.mem_append_left _ hd, hlead'⟩
    · rw [joined_of_not_leads h]
      refine joined_of_not_leads (fun ⟨x, hx, hlead⟩ => h ?_)
      rcases List.mem_append.mp hx with hx | hx
      · exact ⟨m.id, List.mem_cons_self, hlead.of_addChunk.head hstart ⟨m, hm, rfl, hx⟩⟩
      · exact ⟨x, List.mem_cons_of_mem _ hx, hlead.of_addChunk⟩

/-- **A chunk is joined by exactly the modules to which a pending one leads.** -/
theorem modules_join (g : ModuleGraph) (name : String) (pending : List ModuleId) :
    (g.join name pending).modules = g.modules.map (g.joined name pending) := by
  induction g, pending using join.induct name with
  | case1 g =>
    rw [join_nil]
    exact (List.map_id'' (fun m => joined_of_not_leads (by simp)) _).symm
  | case2 g id pending hfind ih =>
    have hout : ¬ g.IsOutside name id := not_isOutside_of_find?_eq_none hfind
    rw [join_cons_of_not_isOutside hout, joined_cons_of_not_isOutside hout, ih]
  | case3 g id pending m hfind hin ih =>
    have hout : ¬ g.IsOutside name id := not_isOutside_of_inChunk hfind hin
    rw [join_cons_of_not_isOutside hout, joined_cons_of_not_isOutside hout, ih]
  | case4 g id pending m hfind hin ih =>
    obtain ⟨hm, rfl⟩ := find?_eq_some_iff.mp hfind
    have hout : name ∉ m.chunkNames := fun h => hin (Module.inChunk_iff.mpr h)
    rw [join_cons_of_isOutside hm rfl hout, ih, modules_addChunk, List.map_map]
    exact List.map_congr_left (fun m' _ => joined_addChunk hm hout m')

/-- nothing else changes -/
theorem bare_join (pending : List ModuleId) :
    (g.join name pending).modules.map Module.bare = g.modules.map Module.bare := by
  rw [modules_join, List.map_map]
  refine List.map_congr_left fun m _ => ?_
  by_cases h : ∃ id ∈ pending, g.Leads name id m.id
  · show (g.joined name pending m).bare = m.bare
    rw [joined_of_leads h]
    rfl
  · exact congrArg Module.bare (joined_of_not_leads h)

/-- what does not depend on chunks stays the same -/
theorem map_join {α : Type} {f : Module → α} (hf : ∀ m, f m.bare = f m) (pending : List ModuleId) :
    (g.join name pending).modules.map f = g.modules.map f := by
  have hbare : ∀ g : ModuleGraph, g.modules.map f = (g.modules.map Module.bare).map f := by
    intro g
    rw [List.map_map]
    exact List.map_congr_left fun m _ => (hf m).symm
  rw [hbare, bare_join, ← hbare]

theorem ids_join (pending : List ModuleId) : (g.join name pending).ids = g.ids :=
  map_join (fun _ => rfl) pending

theorem exists_bare_of_mem_join {pending : List ModuleId} {m' : Module}
    (h : m' ∈ (g.join name pending).modules) : ∃ m ∈ g.modules, m.bare = m'.bare :=
  List.mem_map.mp (bare_join (g := g) pending ▸ List.mem_map_of_mem h)

theorem isIn_join {pending : List ModuleId} :
    (g.join name pending).IsIn name a ↔ g.IsIn name a ∨ ∃ id ∈ pending, g.Leads name id a := by
  constructor
  · rintro ⟨m', hm', hid, hin⟩
    rw [modules_join] at hm'
    obtain ⟨m, hm, rfl⟩ := List.mem_map.mp hm'
    by_cases h : ∃ id ∈ pending, g.Leads name id m.id
    · rw [joined_of_leads h] at hid
      exact .inr (hid ▸ h)
    · rw [joined_of_not_leads h] at hid hin
      exact .inl ⟨m, hm, hid, hin⟩
  · intro h
    have hmem : a ∈ g.ids := by
      rcases h with h | ⟨id, -, h⟩
      · exact h.mem_ids
      · exact h.isOutside.mem_ids
    obtain ⟨m, hm, rfl⟩ := mem_ids.mp hmem
    refine ⟨g.joined name pending m, ?_, ?_⟩
    · rw [modules_join]
      exact List.mem_map_of_mem hm
    · by_cases hl : ∃ id ∈ pending, g.Leads name id m.id
      · rw [joined_of_leads hl]
        exact ⟨rfl, List.mem_append_right _ List.mem_cons_self⟩
      · rw [joined_of_not_leads hl]
        obtain ⟨m', hm', hid, hin⟩ := h.resolve_right hl
        rw [eq_of_id_eq hm' hm hid] at hin
        exact ⟨rfl, hin⟩

/-! ## one more module -/

theorem modules_insert {m : Module} (h : m.id ∉ g.ids) :
    (g.insert m).modules = g.modules ++ [m] :=
  Records.modules_insert fun hc => h (contains_iff.mp hc)

theorem insert_of_mem {m : Module} (h : m.id ∈ g.ids) : g.insert m = g :=
  eq_of_toRecords_eq (if_pos (contains_iff.mpr h))

theorem mem_insert_self {m : Module} (h : m.id ∉ g.ids) : m ∈ (g.insert m).modules := by
  rw [modules_insert h]
  exact List.mem_append_right _ List.mem_cons_self

theorem isIn_insert {m : Module} (h : m.id ∉ g.ids) :
    (g.insert m).IsIn name a ↔ g.IsIn name a ∨ a = m.id ∧ name ∈ m.chunkNames := by
  unfold IsIn
  simp only [modules_insert h, List.mem_append, List.mem_singleton]
  constructor
  · rintro ⟨m', hm' | rfl, hid, hin⟩
    · exact .inl ⟨m', hm', hid, hin⟩
    · exact .inr ⟨hid.symm, hin⟩
  · rintro (⟨m', hm', hid, hin⟩ | ⟨rfl, hin⟩)
    · exact ⟨m', .inl hm', hid, hin⟩
    · exact ⟨m, .inr rfl, rfl, hin⟩

theorem depends_insert_self {m : Module} (h : m.id ∉ g.ids) :
    (g.insert m).Depends m.id b ↔ b ∈ m.dependencyIds := by
  unfold Depends
  simp only [modules_insert h, List.mem_append, List.mem_singleton]
  constructor
  · rintro ⟨m', hm' | rfl, hid, hb⟩
    · exact absurd (mem_ids.mpr ⟨m', hm', hid⟩) h
    · exact hb
  · exact fun hb => ⟨m, .inr rfl, rfl, hb⟩

end ModuleGraph

end Bindle
