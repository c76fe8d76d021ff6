import Bindle.Proofs.Script.Framed.Calls
import Mathlib.Data.List.Flatten

/-!
# Calls in the order of the text

The calls of a script are given in the order of a walk over its tree.  This is the order of the text
but for loops and classes, whose last part may stand before the others.

* `Node.Turns`           a loop or a class with a call in its last part that stands before one in the
                         other parts;
* `pairwise_calls_iff`   the calls follow the text exactly when nothing turns.

A byte order mark is not counted by the places of a tree, so sources without one are looked at.
-/

namespace Bindle.Script

open Bindle.Text

/-- the calls of the last part, which come last, stand before one of the other parts -/
def Node.Turns (source : List Char) (n : Node) : Prop :=
  (n.kind = .loop ∨ n.kind = .classBody) ∧ ∃ init last, n.parts = init ++ [last] ∧
    ∃ c ∈ callsOf source init, ∃ d ∈ last.calls source, d.position.offset < c.position.offset

/-- two calls in the order of the text -/
def Call.Precedes (c d : Call) : Prop := c.position.offset ≤ d.position.offset

/-! ## trees -/

mutual

theorem Node.byParts {P : Node → Prop}
    (hmk : ∀ kind start stop parts, (∀ n ∈ parts, P n) → P (mk kind start stop parts))
    (n : Node) : P n := by
  obtain ⟨kind, start, stop, parts⟩ := n
  exact hmk kind start stop parts (byPartsOf hmk parts)

theorem Node.byPartsOf {P : Node → Prop}
    (hmk : ∀ kind start stop parts, (∀ n ∈ parts, P n) → P (mk kind start stop parts))
    (ns : List Node) : ∀ n ∈ ns, P n := by
  cases ns with
  | nil => exact fun _ hn => absurd hn List.not_mem_nil
  | cons m ns =>
    intro n hn
    rcases List.mem_cons.mp hn with heq | hn
    · exact heq ▸ byParts hmk m
    · exact byPartsOf hmk ns n hn

end

namespace Node

variable {source : List Char} {mark : Nat → Prop} {first lo hi start stop : Nat}

/-- only the last tree may stand before the others -/
theorem LieTurned.lieIn_or_turn {ns : List Node} (h : LieTurned mark first lo hi ns) :
    LieIn mark lo hi ns ∨
      ∃ init last, ns = init ++ [last] ∧ LieIn mark lo hi init ∧ last.Lies mark first hi := by
  induction ns generalizing lo with
  | nil =>
    rw [LieTurned] at h
    exact .inl (.nil h)
  | cons n ns ih =>
    rw [LieTurned] at h
    rcases h with ⟨mid, hn, hns⟩ | ⟨⟨rfl, hle⟩, hn⟩
    · rcases ih hns with hlie | ⟨init, last, rfl, hinit, hlast⟩
      · exact .inl (.cons hn hlie)
      · exact .inr ⟨n :: init, last, rfl, .cons hn hinit, hlast⟩
    · exact .inr ⟨[], n, rfl, .nil hle, hn⟩

/-- a call has the place where it begins -/
theorem offset_callOf (hstart : IsBoundary source start) (hstop : IsBoundary source stop)
    (hle : start ≤ stop) (args : List Node) :
    (callOf source start stop args).position.offset = start := by
  obtain ⟨m, hm⟩ := exists_slice? hstart hstop hle
  rw [callOf_position, positionOf, range?, hm]
  obtain ⟨a, b, rfl, rfl⟩ := hstart
  show (Position.ofOffset (a ++ b) (byteLength a)).offset = _
  rw [Position.ofOffset_append, Position.offset_advanceAll]
  exact Nat.zero_add _

/-- the calls stand between two places -/
def Between (lo hi : Nat) (calls : List Call) : Prop :=
  ∀ c ∈ calls, lo ≤ c.position.offset ∧ c.position.offset ≤ hi

theorem LieIn.between {ns : List Node}
    (ih : ∀ n ∈ ns, ∀ lo hi, n.Lies mark lo hi → Between lo hi (n.calls source))
    (h : LieIn mark lo hi ns) : Between lo hi (callsOf source ns) := by
  induction ns generalizing lo with
  | nil => exact fun _ hc => absurd hc List.not_mem_nil
  | cons n ns ihns =>
    obtain ⟨mid, hn, hns⟩ := lieIn_cons.mp h
    intro c hc
    rw [callsOf] at hc
    rcases List.mem_append.mp hc with hc | hc
    · have hbounds := ih n List.mem_cons_self lo mid hn c hc
      exact ⟨hbounds.1, Nat.le_trans hbounds.2 hns.le⟩
    · have hbounds := ihns (fun m hm => ih m (List.mem_cons_of_mem n hm)) hns c hc
      exact ⟨Nat.le_trans hn.le hbounds.1, hbounds.2⟩

theorem between_append {calls more : List Call} (h : Between lo hi calls) (h' : Between lo hi more) :
    Between lo hi (calls ++ more) := fun c hc =>
  (List.mem_append.mp hc).elim (h c) (h' c)

/-- the calls of a tree stand where the tree lies -/
theorem Lies.between {n : Node} :
    ∀ {lo hi}, n.Lies (IsBoundary source) lo hi → Between lo hi (n.calls source) := by
  induction n using byParts with
  | hmk kind start stop parts ih =>
  intro lo hi h
  rcases isPlain_cases kind with rfl | hturned | hplain
  · rw [Lies] at h
    obtain ⟨⟨hstart, hstop, -⟩, ⟨hlo, hhi⟩, hparts⟩ := h
    have hinner : Between lo hi (callsOf source parts) := fun c hc =>
      have hbounds := hparts.between (fun n hn _ _ hlies => ih n hn hlies) c hc
      ⟨Nat.le_trans hlo hbounds.1, Nat.le_trans hbounds.2 hhi⟩
    cases parts with
    | nil => exact hinner
    | cons callee args =>
      have hcall : Between lo hi [callOf source start stop args] := by
        intro c hc
        rw [List.mem_singleton.mp hc, offset_callOf hstart hstop hparts.le]
        exact ⟨hlo, Nat.le_trans hparts.le hhi⟩
      rw [calls]
      split
      · exact between_append hcall hinner
      · exact hinner
  · rw [lies_turned hturned] at h
    rw [calls_mk_of_ne (by rcases hturned with rfl | rfl <;> exact nofun)]
    rcases h.lieIn_or_turn with hlie | ⟨init, last, rfl, hinit, hlast⟩
    · exact hlie.between fun n hn _ _ hlies => ih n hn hlies
    · rw [callsOf_append]
      refine between_append ?_ ?_
      · exact hinit.between fun n hn _ _ hlies => ih n (List.mem_append_left _ hn) hlies
      · exact hlast.lieIn.between fun n hn _ _ hlies => ih n (List.mem_append_right _ hn) hlies
  · rw [lies_mk hplain] at h
    rw [calls_mk_of_ne (by rintro rfl; exact absurd hplain Bool.false_ne_true)]
    exact h.between fun n hn _ _ hlies => ih n hn hlies

/-! ## order -/

theorem LieIn.pairwise {ns : List Node}
    (ih : ∀ n ∈ ns, ∀ lo hi, n.Lies (IsBoundary source) lo hi → (n.calls source).Pairwise Call.Precedes)
    (h : LieIn (IsBoundary source) lo hi ns) : (callsOf source ns).Pairwise Call.Precedes := by
  induction ns generalizing lo with
  | nil => exact .nil
  | cons n ns ihns =>
    obtain ⟨mid, hn, hns⟩ := lieIn_cons.mp h
    rw [callsOf, List.pairwise_append]
    refine ⟨ih n List.mem_cons_self lo mid hn,
      ihns (fun m hm => ih m (List.mem_cons_of_mem n hm)) hns, fun c hc d hd => ?_⟩
    have hbehind := hns.between (fun _ _ _ _ hlies => hlies.between) d hd
    exact Nat.le_trans (hn.between c hc).2 hbehind.1

/-- where nothing turns, the calls follow the text -/
theorem Lies.pairwise {n : Node} (hturns : ∀ m ∈ n.nodes, ¬m.Turns source) :
    ∀ {lo hi}, n.Lies (IsBoundary source) lo hi → (n.calls source).Pairwise Call.Precedes := by
  induction n using byParts with
  | hmk kind start stop parts ih =>
  intro lo hi h
  have hpart : ∀ n ∈ parts, ∀ lo hi, n.Lies (IsBoundary source) lo hi →
      (n.calls source).Pairwise Call.Precedes := by
    refine fun n hn _ _ hlies => ih n hn (fun m hm => hturns m ?_) hlies
    rw [nodes_mk, nodesOf_eq_flatMap]
    exact List.mem_cons_of_mem _ (List.mem_flatMap.mpr ⟨n, hn, hm⟩)
  rcases isPlain_cases kind with rfl | hturned | hplain
  · rw [Lies] at h
    obtain ⟨⟨hstart, hstop, -⟩, -, hparts⟩ := h
    have hinner := hparts.pairwise hpart
    cases parts with
    | nil => exact hinner
    | cons callee args =>
      rw [calls]
      split
      · refine List.pairwise_cons.mpr ⟨fun c hc => ?_, hinner⟩
        have hbounds := hparts.between (fun _ _ _ _ hlies => hlies.between) c hc
        rw [Call.Precedes, offset_callOf hstart hstop hparts.le]
        exact hbounds.1
      · exact hinner
  · have hself := hturns _ (mem_nodes_self _)
    rw [lies_turned hturned] at h
    rw [calls_mk_of_ne (by rcases hturned with rfl | rfl <;> exact nofun)]
    rcases h.lieIn_or_turn with hlie | ⟨init, last, rfl, hinit, hlast⟩
    · exact hlie.pairwise hpart
    · rw [callsOf_append, List.pairwise_append]
      refine ⟨hinit.pairwise fun n hn => hpart n (List.mem_append_left _ hn),
        hlast.lieIn.pairwise fun n hn => hpart n (List.mem_append_right _ hn), fun c hc d hd => ?_⟩
      rw [callsOf, callsOf, List.append_nil] at hd
      exact Nat.le_of_not_lt fun hlt => hself ⟨hturned, init, last, rfl, c, hc, d, hd, hlt⟩
  · rw [lies_mk hplain] at h
    rw [calls_mk_of_ne (by rintro rfl; exact absurd hplain Bool.false_ne_true)]
    exact h.pairwise hpart

theorem sublist_calls_mk (kind : Kind) (start stop : Nat) (parts : List Node) :
    (callsOf source parts).Sublist ((mk kind start stop parts).calls source) := by
  by_cases hkind : kind = .call
  · subst hkind
    cases parts with
    | nil => exact .refl _
    | cons callee args =>
      rw [calls]
      split
      · exact List.sublist_cons_self _ _
      · exact .refl _
  · rw [calls_mk_of_ne hkind]

/-- the calls of a part are among those of the tree, in the same order -/
theorem sublist_calls_of_mem_nodes {n m : Node} (hm : m ∈ n.nodes) :
    (m.calls source).Sublist (n.calls source) := by
  refine forall_nodes (P := fun m => (m.calls source).Sublist (n.calls source)) ?_ (.refl _) m hm
  intro kind start stop parts h k hk
  have hparts : (k.calls source).Sublist (callsOf source parts) := by
    have hflat := (List.singleton_sublist.mpr hk).flatMap (calls source)
    rwa [List.flatMap_singleton, ← callsOf_eq_flatMap] at hflat
  exact hparts.trans ((sublist_calls_mk kind start stop parts).trans h)

theorem not_turns_of_pairwise {n : Node} (h : (n.calls source).Pairwise Call.Precedes) :
    ∀ m ∈ n.nodes, ¬m.Turns source := by
  rintro ⟨kind, start, stop, parts⟩ hm ⟨hturned, init, last, hparts, c, hc, d, hd, hlt⟩
  obtain rfl : parts = init ++ [last] := hparts
  have hsub := h.sublist (sublist_calls_of_mem_nodes hm)
  have hkind : kind ≠ .call := by
    rintro rfl
    rcases hturned with h | h <;> cases h
  rw [calls_mk_of_ne hkind, callsOf_append, List.pairwise_append] at hsub
  refine Nat.not_le_of_lt hlt (hsub.2.2 c hc d ?_)
  rwa [callsOf, callsOf, List.append_nil]

end Node

/-- **Where calls follow the text.**  The places of the calls of a script do not go back, exactly when
no loop and no class of the script has a call in its last part that stands before one in the other
parts. -/
theorem pairwise_calls_iff {source : String} {s : Script} (hs : parse source = .ok s)
    (hmark : source.toList.head? ≠ some byteOrderMark) :
    ∃ tree, readTree source.toList = .ok tree ∧ s.calls = tree.calls source.toList ∧
      (s.calls.Pairwise Call.Precedes ↔ ∀ n ∈ tree.nodes, ¬n.Turns source.toList) := by
  obtain ⟨tree, htree, rfl⟩ := exists_tree_of_parse hs
  obtain ⟨tree', hi, -, ⟨hkind, -⟩, -, hlie⟩ := exists_readTree_behind htree (.inl rfl)
  have hlies : tree.Lies (IsBoundary source.toList) 0 hi := by
    obtain ⟨kind, start, stop, parts⟩ := tree
    obtain rfl : kind = .program := hkind
    rw [Node.lies_mk rfl]
    have hsource := withoutMark_of_head? hmark
    unfold Frame.Mark at hlie
    rwa [hsource] at hlie
  exact ⟨tree, htree, rfl, Node.not_turns_of_pairwise, fun h => hlies.pairwise h⟩

/-- the test of a `while` loop stands before its body, so the loop does not turn -/
theorem pairwise_calls_while : "while (require('./a')) require('./b');".toList.head? ≠
      some byteOrderMark ∧
    ∃ s tree, parse "while (require('./a')) require('./b');" = .ok s ∧
      readTree "while (require('./a')) require('./b');".toList = .ok tree ∧
      s.calls.map Call.literal? = [some "./a", some "./b"] ∧
      (∀ n ∈ tree.nodes, ¬n.Turns "while (require('./a')) require('./b');".toList) ∧
      s.calls.Pairwise Call.Precedes := by
  have hs : (parse "while (require('./a')) require('./b');").toOption.map
      (·.calls.map fun c => (c.literal?, c.position.offset)) =
        some [(some "./a", 7), (some "./b", 23)] := by decide +kernel
  have hmark : "while (require('./a')) require('./b');".toList.head? ≠ some byteOrderMark := by
    decide +kernel
  generalize "while (require('./a')) require('./b');" = source at hs hmark ⊢
  cases hparse : parse source with
  | error e =>
    rw [hparse] at hs
    cases hs
  | ok s =>
    rw [hparse] at hs
    have hcalls : s.calls.map (fun c => (c.literal?, c.position.offset)) =
        [(some "./a", 7), (some "./b", 23)] := Option.some.inj hs
    have hoffsets : (s.calls.map fun c => (c.literal?, c.position.offset)).Pairwise
        fun c d => c.2 ≤ d.2 := by
      rw [hcalls]
      decide
    have hpairwise := List.pairwise_map.mp hoffsets
    obtain ⟨tree, htree, -, hiff⟩ := pairwise_calls_iff hparse hmark
    refine ⟨hmark, s, tree, rfl, htree, ?_, hiff.mp hpairwise, hpairwise⟩
    have hliterals := congrArg (List.map Prod.fst) hcalls
    rwa [List.map_map] at hliterals

/-- **Calls do not always follow the text.**  The test of a `do` loop comes before its body, and the
members of a class come before the class it extends. -/
theorem not_pairwise_calls :
    (∃ s, parse "do require('./b'); while (require('./a'));" = .ok s ∧
      s.calls.map (fun c => (c.literal?, c.position.offset)) =
        [(some "./a", 26), (some "./b", 3)] ∧ ¬s.calls.Pairwise Call.Precedes) ∧
    ∃ s, parse "class A extends require('./a') \x7b [require('./b')]() \x7b\x7d \x7d" = .ok s ∧
      s.calls.map (fun c => (c.literal?, c.position.offset)) =
        [(some "./b", 34), (some "./a", 16)] ∧ ¬s.calls.Pairwise Call.Precedes := by
  have hback : ∀ source first last n m, m < n →
      (parse source).toOption.map (·.calls.map fun c => (c.literal?, c.position.offset)) =
        some [(first, n), (last, m)] →
      ∃ s, parse source = .ok s ∧
        s.calls.map (fun c => (c.literal?, c.position.offset)) = [(first, n), (last, m)] ∧
        ¬s.calls.Pairwise Call.Precedes := by
    intro source first last n m hlt h
    cases hparse : parse source with
    | error e =>
      rw [hparse] at h
      cases h
    | ok s =>
      rw [hparse] at h
      have hcalls : s.calls.map (fun c => (c.literal?, c.position.offset)) =
          [(first, n), (last, m)] := Option.some.inj h
      refine ⟨s, rfl, hcalls, fun hpairwise => ?_⟩
      have hoffsets : (s.calls.map fun c => (c.literal?, c.position.offset)).Pairwise
          fun c d => c.2 ≤ d.2 := List.pairwise_map.mpr hpairwise
      rw [hcalls] at hoffsets
      exact Nat.not_le_of_lt hlt (List.rel_of_pairwise_cons hoffsets List.mem_cons_self)
  exact ⟨hback _ _ _ 26 3 (by decide) (by decide +kernel),
    hback _ _ _ 34 16 (by decide) (by decide +kernel)⟩

end Bindle.Script
