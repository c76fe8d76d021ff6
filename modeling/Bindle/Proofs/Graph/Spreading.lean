import Bindle.Proofs.Graph.Reach
import Mathlib.Data.List.Chain
import Mathlib.Logic.Function.Iterate

/-!
# The loop that puts modules into a chunk

`join` is written as a recursion; here it is a loop with a list of pending modules, one of which is
taken up in each turn.  A turn changes nothing about what comes out in the end (`join_turn`), and it
lowers one number: the dependencies of the modules outside the chunk together with the pending
modules (`remaining_turn`).  So the loop ends whatever the graph is like.

* `turn name s`            one turn of the loop, on a graph with its pending modules;
* `g.IsWay name a b way`   a way along dependencies on which no module is in the chunk;
* `marked_join`            how the loop ends: which modules it marks, and that nothing else changes.
-/

namespace Bindle.ModuleGraph

variable {g : ModuleGraph} {name : String} {a b : ModuleId}

/-! ## turns -/

/-- takes up the first pending module: it and what it depends on, if it is there and not in the
chunk already -/
def turn (name : String) : ModuleGraph × List ModuleId → ModuleGraph × List ModuleId
  | (g, []) => (g, [])
  | (g, id :: pending) =>
    match g.find? id with
    | none => (g, pending)
    | some m =>
      if m.inChunk name then (g, pending)
      else (g.addChunk id name, m.dependencyIds ++ pending)

/-- an upper bound of the turns that are left -/
def remaining (name : String) (s : ModuleGraph × List ModuleId) : Nat :=
  s.1.weight name + s.2.length

/-- what a turn can do when there is a pending module -/
theorem turn_cases (g : ModuleGraph) (name : String) (id : ModuleId) (pending : List ModuleId) :
    (¬ g.IsOutside name id ∧ turn name (g, id :: pending) = (g, pending)) ∨
    ∃ m ∈ g.modules, m.id = id ∧ name ∉ m.chunkNames ∧
      turn name (g, id :: pending) = (g.addChunk id name, m.dependencyIds ++ pending) := by
  rw [turn]
  cases hfind : g.find? id with
  | none => exact .inl ⟨not_isOutside_of_find?_eq_none hfind, rfl⟩
  | some m =>
    by_cases hin : m.inChunk name = true
    · exact .inl ⟨not_isOutside_of_inChunk hfind hin, if_pos hin⟩
    · obtain ⟨hm, hid⟩ := find?_eq_some_iff.mp hfind
      exact .inr ⟨m, hm, hid, fun h => hin (Module.inChunk_iff.mpr h), if_neg hin⟩

/-- a turn leaves what comes out in the end as it is -/
theorem join_turn (s : ModuleGraph × List ModuleId) :
    (turn name s).1.join name (turn name s).2 = s.1.join name s.2 := by
  obtain ⟨g, pending⟩ := s
  cases pending with
  | nil => rfl
  | cons id pending =>
    rcases turn_cases g name id pending with ⟨hout, he⟩ | ⟨m, hm, hid, hout, he⟩ <;> rw [he]
    · exact (join_cons_of_not_isOutside hout).symm
    · exact (join_cons_of_isOutside hm hid hout).symm

/-- a turn that takes up a module brings the end nearer -/
theorem remaining_turn (g : ModuleGraph) (name : String) (id : ModuleId)
    (pending : List ModuleId) :
    remaining name (turn name (g, id :: pending)) < remaining name (g, id :: pending) := by
  rcases turn_cases g name id pending with ⟨-, he⟩ | ⟨m, hm, hid, hout, he⟩ <;> rw [he]
  · simp only [remaining, List.length_cons]
    omega
  · have hfind : g.find? id = some m := find?_eq_some_iff.mpr ⟨hm, hid⟩
    have hnot : m.inChunk name = false :=
      Bool.eq_false_iff.mpr fun h => hout (Module.inChunk_iff.mp h)
    have hw := weight_addChunk_le hfind hnot
    simp only [remaining, List.length_append, List.length_cons]
    omega

/-- **The loop ends**, with what the recursion gives. -/
theorem exists_turns (name : String) (s : ModuleGraph × List ModuleId) :
    ∃ n ≤ remaining name s, (turn name)^[n] s = (s.1.join name s.2, []) := by
  obtain ⟨k, hk⟩ : ∃ k, remaining name s = k := ⟨_, rfl⟩
  induction k using Nat.strong_induction_on generalizing s with
  | _ k ih =>
    obtain ⟨g, pending⟩ := s
    cases pending with
    | nil => exact ⟨0, Nat.zero_le _, by rw [join_nil]; rfl⟩
    | cons id pending =>
      have hlt := remaining_turn g name id pending
      obtain ⟨n, hn, hend⟩ := ih _ (hk ▸ hlt) (turn name (g, id :: pending)) rfl
      refine ⟨n + 1, by omega, ?_⟩
      rw [Function.iterate_succ_apply, hend, join_turn]

/-! ## ways -/

/-- a way along dependencies from `a` to `b`; no module on it is in the chunk, both ends included -/
structure IsWay (g : ModuleGraph) (name : String) (a b : ModuleId) (way : List ModuleId) :
    Prop where
  first : way.head? = some a
  last : way.getLast? = some b
  linked : way.IsChain g.Depends
  outside : ∀ x ∈ way, g.IsOutside name x

theorem IsWay.single (h : g.IsOutside name a) : g.IsWay name a a [a] :=
  ⟨rfl, rfl, .singleton a, fun _ hx => List.mem_singleton.mp hx ▸ h⟩

theorem IsWay.concat {c : ModuleId} {way : List ModuleId} (h : g.IsWay name a b way)
    (hbc : g.Depends b c) (hc : g.IsOutside name c) : g.IsWay name a c (way ++ [c]) where
  first := by rw [List.head?_append, h.first]; rfl
  last := List.getLast?_concat
  linked := by
    refine List.isChain_append.mpr ⟨h.linked, .singleton c, fun x hx y hy => ?_⟩
    rw [h.last] at hx
    cases hx
    cases hy
    exact hbc
  outside x hx := by
    rcases List.mem_append.mp hx with hx | hx
    · exact h.outside x hx
    · exact List.mem_singleton.mp hx ▸ hc

theorem IsWay.leads {way : List ModuleId} (h : g.IsWay name a b way) : g.Leads name a b := by
  induction way generalizing a with
  | nil => exact absurd h.first (by simp)
  | cons x way ih =>
    obtain rfl : x = a := Option.some.inj h.first
    have hx : g.IsOutside name x := h.outside x List.mem_cons_self
    cases way with
    | nil =>
      obtain rfl : x = b := Option.some.inj h.last
      exact .refl hx
    | cons y way =>
      obtain ⟨hxy, hlinked⟩ := List.isChain_cons_cons.mp h.linked
      have hlast : (y :: way).getLast? = some b := by
        rw [← h.last, List.getLast?_cons_cons]
      have hrest : g.IsWay name y b (y :: way) :=
        ⟨rfl, hlast, hlinked, fun z hz => h.outside z (List.mem_cons_of_mem _ hz)⟩
      exact (ih hrest).head hx hxy

theorem leads_iff_exists_isWay : g.Leads name a b ↔ ∃ way, g.IsWay name a b way := by
  constructor
  · rintro ⟨ha, h⟩
    induction h with
    | refl => exact ⟨[a], .single ha⟩
    | tail _ hxy ih =>
      obtain ⟨way, hway⟩ := ih
      exact ⟨_, hway.concat hxy.1 hxy.2⟩
  · exact fun ⟨_, hway⟩ => hway.leads

/-! ## how the loop ends -/

theorem forall₂_joined (pending : List ModuleId) (ms : List Module) :
    List.Forall₂ (fun m m' =>
        (∃ id ∈ pending, g.Leads name id m.id) ∧ m' = m.addChunk name ∨
          (¬ ∃ id ∈ pending, g.Leads name id m.id) ∧ m' = m)
      ms (ms.map (g.joined name pending)) := by
  rw [List.forall₂_map_right_iff]
  refine List.forall₂_same.mpr fun m _ => ?_
  by_cases h : ∃ id ∈ pending, g.Leads name id m.id
  · exact .inl ⟨h, joined_of_leads h⟩
  · exact .inr ⟨h, joined_of_not_leads h⟩

/-- **Which modules the loop puts into a chunk.**  It ends on every graph, and then the chunk's name
is the last of exactly those modules to which a way leads from `id` on which no module had it; all
else about the modules, and their order, is as before. -/
theorem marked_join (g : ModuleGraph) (name : String) (id : ModuleId) :
    (∃ n ≤ g.weight name + 1, (turn name)^[n] (g, [id]) = (g.join name [id], [])) ∧
    List.Forall₂ (fun m m' =>
        (∃ way, g.IsWay name id m.id way) ∧ m' = { m with chunkNames := m.chunkNames ++ [name] } ∨
          (¬ ∃ way, g.IsWay name id m.id way) ∧ m' = m)
      g.modules (g.join name [id]).modules := by
  refine ⟨exists_turns name (g, [id]), ?_⟩
  rw [modules_join]
  refine (forall₂_joined [id] g.modules).imp fun m m' h => ?_
  simp only [List.mem_singleton, exists_eq_left, leads_iff_exists_isWay] at h
  exact h

end Bindle.ModuleGraph
