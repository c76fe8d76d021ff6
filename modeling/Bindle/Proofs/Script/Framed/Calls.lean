import Bindle.Proofs.Script.Framed.Program
import Bindle.Proofs.Script.Nodes
import Bindle.Proofs.Script.Rewriting
import Bindle.Proofs.Text.Position
import Mathlib.Data.List.Forall2

/-!
# The calls of a source that stands in another text

What a call holds is looked up in the whole text, and is found there as it is in the source.

* `Call.Moves`             one call, further down in a text;
* `Frame.Around`           a text with the source of a frame in it, and what is found there;
* `Node.Lies.exists_part`  what is known of where calls stand passes to all nodes of a tree;
* `Around.forall₂_calls`   the calls of the source are those of the text, further down.
-/

namespace Bindle.Script

open Bindle.Text Grammar

/-! ## pieces of a text -/

/-- a piece of a text stands in every longer text, further back by what comes before -/
theorem slice?_append {front source behind : List Char} {i j : Nat} (h : j ≤ byteLength source) :
    slice? (front ++ source ++ behind) (i + byteLength front) (j + byteLength front) =
      slice? source i j := by
  refine Option.ext fun m => ?_
  rw [slice?_eq_some_iff, slice?_eq_some_iff]
  constructor
  · rintro ⟨a, b, htext, hi, hj⟩
    rw [List.append_assoc, List.append_assoc] at htext
    obtain ⟨a', rfl, hrest⟩ := append_of_byteLength_le htext (by omega)
    rw [List.append_assoc, byteLength_append] at hj
    rw [byteLength_append] at hi
    rw [← List.append_assoc] at hrest
    obtain ⟨b', hsource, -⟩ := append_of_byteLength_le hrest.symm (by omega)
    exact ⟨a', b', hsource, by omega, by omega⟩
  · rintro ⟨a, b, rfl, rfl, rfl⟩
    refine ⟨front ++ a, b ++ behind, by simp only [List.append_assoc], ?_, ?_⟩
    · rw [byteLength_append, Nat.add_comm]
    · rw [List.append_assoc, byteLength_append front, Nat.add_comm]

/-- between two places there is a piece of the text -/
theorem exists_slice? {cs : List Char} {i j : Nat} (hi : IsBoundary cs i) (hj : IsBoundary cs j)
    (h : i ≤ j) : ∃ m, slice? cs i j = some m := by
  obtain ⟨a, b, rfl, rfl⟩ := hi
  obtain ⟨x, y, hxy, rfl⟩ := hj
  obtain ⟨m, rfl, rfl⟩ := append_of_byteLength_le hxy h
  exact ⟨m, slice?_eq_some_iff.mpr ⟨a, y, (List.append_assoc a m y).symm, rfl, rfl⟩⟩

/-- a leading comment takes one line -/
theorem advanceAll_leadingComment {front : List Char} (h : IsLeadingComment front) :
    Position.start.advanceAll front = Position.start.down 1 (byteLength front) := by
  obtain ⟨words, rfl, hwords⟩ := h
  have hcount : ('/' :: '/' :: words).count '\n' = 0 := by
    refine List.count_eq_zero.mpr fun hmem => ?_
    rcases List.mem_cons.mp hmem with h | hmem
    · exact absurd h (by decide)
    rcases List.mem_cons.mp hmem with h | hmem
    · exact absurd h (by decide)
    · exact absurd (hwords _ hmem) (by decide)
  rw [show '/' :: '/' :: (words ++ ['\n']) = ('/' :: '/' :: words) ++ ['\n'] from rfl,
    Position.advanceAll_append, Position.advanceAll_cons, Position.advanceAll_nil,
    Position.advance, if_pos rfl, Position.line_advanceAll, hcount, Position.offset_advanceAll,
    byteLength_append, Position.down, Nat.add_assoc]
  rfl

/-! ## what a call holds -/

theorem callOf_position (source : List Char) (start stop : Nat) (args : List Node) :
    (callOf source start stop args).position = positionOf source start stop := by
  unfold callOf
  dsimp only
  split <;> rfl

theorem callOf_literal? (source : List Char) (start stop : Nat) (args : List Node) :
    (callOf source start stop args).literal? = (literalArgument? source args).map Prod.snd := by
  unfold callOf
  dsimp only
  split
  · rename_i h
    rw [h]
    rfl
  · rename_i h
    rw [h]
    rfl

theorem callOf_range_eq (source : List Char) (start stop : Nat) (args : List Node) :
    (callOf source start stop args).range = (literalArgument? source args).map Prod.fst := by
  unfold callOf
  dsimp only
  split
  · rename_i h
    rw [h]
    rfl
  · rename_i h
    rw [h]
    rfl

/-- the call `c'` is `c`, further down in a text -/
structure Call.Moves (lines bytes : Nat) (c c' : Call) : Prop where
  position : c'.position = c.position.down lines bytes
  literal : c'.literal? = c.literal?
  range : c'.range = c.range.map fun r => ⟨r.start + bytes, r.stop + bytes⟩
  replacement : c'.replacement = c.replacement

namespace Frame

/-- `source`, which may begin with a byte order mark, stands in `text`, `lines` lines further
down -/
structure Around (w : Frame) (lines : Nat) (source text : List Char) : Prop where
  le : byteLength w.source ≤ byteLength source
  slice : ∀ i j, j ≤ byteLength source →
    slice? text (i + w.before) (j + w.before) = slice? source i j
  place : ∀ n, n ≤ byteLength source →
    Position.ofOffset text (n + w.before) = (Position.ofOffset source n).down lines w.before
  /-- a mark stays in front of all -/
  still : w.source = source ∨ lines = 0 ∧ w.before = 0

variable {w : Frame} {lines : Nat} {source text : List Char}

theorem around_front (source : List Char) {front : List Char} (h : IsLeadingComment front) :
    Around ⟨source, byteLength front, [], .inl rfl⟩ 1 source (front ++ source) where
  le := Nat.le_refl _
  slice i j hj := by
    have hslice : slice? (front ++ source ++ []) (i + byteLength front) (j + byteLength front) =
        slice? source i j := slice?_append hj
    rwa [List.append_nil] at hslice
  place n hn := by
    have hlines := advanceAll_leadingComment h
    have hseek := Position.seek_down Position.start 1 (byteLength front) source []
      (n := n) (by rw [show Position.start.offset = 0 from rfl]; omega)
    rw [List.append_nil, ← hlines] at hseek
    rw [Position.ofOffset, Position.seek_of_le, hseek]
    · rfl
    · show 0 + byteLength front ≤ n + byteLength front
      omega
  still := .inl rfl

theorem around_behind (source : List Char) {behind : List Char} (h : IsCommentLine behind) :
    Around ⟨withoutMark source, 0, behind, h⟩ 0 source (source ++ behind) where
  le := by
    cases source with
    | nil => exact Nat.le_refl _
    | cons c source =>
      rw [withoutMark]
      split
      · rw [byteLength_cons]
        exact Nat.le_add_left _ _
      · exact Nat.le_refl _
  slice i j hj := by
    have hslice : slice? ([] ++ source ++ behind) (i + 0) (j + 0) = slice? source i j :=
      slice?_append hj
    exact hslice
  place n hn := Position.seek_down Position.start 0 0 source behind
    (by rw [show Position.start.offset = 0 from rfl]; omega)
  still := .inr ⟨rfl, rfl⟩

namespace Around

variable (h : w.Around lines source text)
include h

theorem range?_eq {start stop : Nat} (hstop : stop ≤ byteLength source) :
    range? text (start + w.before) (stop + w.before) =
      (range? source start stop).map fun r =>
        (⟨r.1.start + w.before, r.1.stop + w.before⟩, r.2) := by
  unfold range?
  rw [h.slice start stop hstop, Option.map_map]
  rfl

theorem positionOf_eq {start stop : Nat} (hstart : w.Mark start) (hstop : w.Mark stop)
    (hle : start ≤ stop) :
    positionOf text (start + w.before) (stop + w.before) =
      (positionOf source start stop).down lines w.before := by
  have hin : stop ≤ byteLength source := Nat.le_trans (IsBoundary.le hstop) h.le
  unfold positionOf
  rw [h.range?_eq hin]
  cases hrange : range? source start stop with
  | some r =>
    obtain ⟨m, -, rfl⟩ := Option.map_eq_some_iff.mp hrange
    exact h.place start (Nat.le_trans hle hin)
  | none =>
    rcases h.still with hsource | ⟨rfl, hbefore⟩
    · obtain ⟨m, hm⟩ := exists_slice? (hsource ▸ hstart : IsBoundary source start)
        (hsource ▸ hstop : IsBoundary source stop) hle
      rw [range?, hm] at hrange
      cases hrange
    · rw [hbefore]
      rfl

theorem literalArgument?_eq {args : List Node}
    (hargs : ∀ raw first last parts, args = [.mk (.string raw) first last parts] →
      0 < last ∧ last ≤ byteLength source) :
    literalArgument? text (args.map w.node) =
      (literalArgument? source args).map fun a =>
        (⟨a.1.start + w.before, a.1.stop + w.before⟩, a.2) := by
  rcases args with _ | ⟨⟨kind, first, last, parts⟩, _ | ⟨m, args⟩⟩
  · rfl
  · cases kind with
    | string raw =>
      obtain ⟨hpos, hlast⟩ := hargs raw first last parts rfl
      rw [List.map_singleton, node_mk, stop_of_pos hpos]
      unfold literalArgument?
      dsimp only
      rw [h.range?_eq hlast, Option.map_map, Option.map_map]
      rfl
    | _ => rfl
  · cases kind <;> rfl

theorem moves_callOf {start stop : Nat} (hstart : w.Mark start) (hstop : w.Mark stop)
    (hle : start ≤ stop) {args : List Node}
    (hargs : ∀ raw first last parts, args = [.mk (.string raw) first last parts] →
      0 < last ∧ last ≤ byteLength source) :
    (callOf source start stop args).Moves lines w.before
      (callOf text (start + w.before) (stop + w.before) (args.map w.node)) where
  position := by
    rw [callOf_position, callOf_position]
    exact h.positionOf_eq hstart hstop hle
  literal := by
    rw [callOf_literal?, callOf_literal?, h.literalArgument?_eq hargs, Option.map_map]
    rfl
  range := by
    rw [callOf_range_eq, callOf_range_eq, h.literalArgument?_eq hargs, Option.map_map,
      Option.map_map]
    rfl
  replacement := by rw [callOf_replacement, callOf_replacement]

end Around

end Frame

namespace Node

variable {mark : Nat → Prop} {first lo hi : Nat}

theorem LieIn.exists_of_mem {ns : List Node} (h : LieIn mark lo hi ns) {n : Node} (hn : n ∈ ns) :
    ∃ lo hi, n.Lies mark lo hi := by
  induction ns generalizing lo with
  | nil => exact absurd hn List.not_mem_nil
  | cons m ns ih =>
    obtain ⟨mid, hm, hns⟩ := lieIn_cons.mp h
    rcases List.mem_cons.mp hn with rfl | hn
    · exact ⟨lo, mid, hm⟩
    · exact ih hns hn

theorem LieTurned.exists_of_mem {ns : List Node} (h : LieTurned mark first lo hi ns) {n : Node}
    (hn : n ∈ ns) : ∃ lo hi, n.Lies mark lo hi := by
  induction ns generalizing lo with
  | nil => exact absurd hn List.not_mem_nil
  | cons m ns ih =>
    rw [LieTurned] at h
    rcases h with ⟨mid, hm, hns⟩ | ⟨⟨rfl, -⟩, hm⟩
    · rcases List.mem_cons.mp hn with rfl | hn
      · exact ⟨lo, mid, hm⟩
      · exact ih hns hn
    · obtain rfl := List.mem_singleton.mp hn
      exact ⟨first, hi, hm⟩

/-- the parts of a tree lie in it -/
theorem Lies.exists_part {kind : Kind} {start stop : Nat} {parts : List Node}
    (h : (mk kind start stop parts).Lies mark lo hi) {n : Node} (hn : n ∈ parts) :
    ∃ lo hi, n.Lies mark lo hi := by
  rcases isPlain_cases kind with rfl | hturned | hplain
  · rw [Lies] at h
    exact h.2.2.exists_of_mem hn
  · exact ((lies_turned hturned start stop parts).mp h).exists_of_mem hn
  · exact ((lies_mk hplain start stop parts).mp h).exists_of_mem hn

theorem LieIn.exists_of_mem_nodesOf {ns : List Node} (h : LieIn mark lo hi ns) {n : Node}
    (hn : n ∈ nodesOf ns) : ∃ lo hi, n.Lies mark lo hi :=
  forall_nodesOf (P := fun n => ∃ lo hi, n.Lies mark lo hi)
    (fun _ _ _ _ ⟨_, _, h⟩ _ hn => h.exists_part hn) (fun _ hn => h.exists_of_mem hn) n hn

/-- a string inside a part of a tree is one of the tree -/
theorem mem_leaves_of_mem_nodes {n m : Node} (hm : m ∈ n.nodes) {l : Leaf} (hl : l ∈ m.leaves) :
    l ∈ n.leaves :=
  forall_nodes (P := fun m => ∀ l ∈ m.leaves, l ∈ n.leaves)
    (fun _ _ _ _ h _ hn _ hl => h _ (mem_leaves_of_mem hn hl)) (fun _ hl => hl) m hm l hl

end Node

namespace Frame

variable {w : Frame} {lines : Nat} {source text : List Char}

mutual

theorem nodes_node (n : Node) : (w.node n).nodes = n.nodes.map w.node := by
  obtain ⟨kind, start, stop, parts⟩ := n
  rw [Node.nodes_mk, node, Node.nodes_mk, List.map_cons, node, nodesOf_nodes]

theorem nodesOf_nodes (ns : List Node) :
    Node.nodesOf (w.nodes ns) = (Node.nodesOf ns).map w.node := by
  cases ns with
  | nil => rfl
  | cons n ns =>
    rw [nodes, Node.nodesOf, Node.nodesOf, List.map_append, nodes_node, nodesOf_nodes]

end

theorem isRequire_node (n : Node) : isRequire (w.node n) = isRequire n := by
  rw [isRequire, isRequire, kind_node]

/-- a node is a request on both sides or on none -/
theorem Around.rel_request? (h : w.Around lines source text) {n : Node} {lo hi : Nat}
    (hn : n.Lies w.Mark lo hi)
    (hleaf : ∀ l ∈ n.leaves, 0 < l.stop ∧ l.stop ≤ byteLength source) :
    Option.Rel (Call.Moves lines w.before) (n.request? source) ((w.node n).request? text) := by
  obtain ⟨kind, start, stop, parts⟩ := n
  by_cases hkind : kind = .call
  · subst hkind
    rw [Node.Lies] at hn
    obtain ⟨⟨hstart, hstop, hpos⟩, -, hparts⟩ := hn
    rw [node_mk, stop_of_pos hpos]
    cases parts with
    | nil => exact .none
    | cons callee args =>
      rw [List.map_cons, Node.request?, Node.request?, isRequire_node]
      split
      · refine .some (h.moves_callOf hstart hstop hparts.le ?_)
        rintro raw first last parts rfl
        exact hleaf ⟨first, last, raw⟩ (mem_leaves_of_mem
          (List.mem_cons_of_mem _ (List.mem_singleton_self _)) (by
            rw [Node.leaves]
            exact List.mem_cons_self))
      · exact .none
  · have hnone : ∀ cs start stop parts, (Node.mk kind start stop parts).request? cs = none := by
      intro cs start stop parts
      rw [Node.request?]
      exact fun _ _ _ _ heq => hkind (congrArg Node.kind heq)
    rw [node_mk, hnone, hnone]
    exact .none

/-- **The calls of a source are those of the text around it**, further down. -/
theorem Around.forall₂_calls (h : w.Around lines source text) (hw : w.source = withoutMark source)
    {tree tree' : Node} {hi : Nat} (htree : readTree source = .ok tree)
    (hreads : ReadsProgram w 0 hi tree tree') :
    List.Forall₂ (Call.Moves lines w.before) (tree.calls source) (tree'.calls text) := by
  obtain ⟨kind, start, stop, parts⟩ := tree
  obtain ⟨kind', start', stop', parts'⟩ := tree'
  obtain ⟨⟨rfl, rfl⟩, rfl, hlie⟩ := hreads
  have hleaf : ∀ n ∈ Node.nodesOf parts, ∀ l ∈ n.leaves,
      0 < l.stop ∧ l.stop ≤ byteLength source := by
    intro n hn l hl
    have hmem : n ∈ (Node.mk .program start stop parts).nodes := by
      rw [Node.nodes_mk]
      exact List.mem_cons_of_mem _ hn
    have hstands := stands_readTree htree (Node.mem_leaves_of_mem_nodes hmem hl)
    obtain ⟨comment, hslice, -⟩ := hstands.slice
    obtain ⟨a, b, hsplit, -, hlast⟩ := slice?_eq_some_iff.mp hslice
    refine ⟨Nat.lt_of_le_of_lt (Nat.zero_le _) hstands.lt, ?_⟩
    rw [← hw] at hsplit
    exact Nat.le_trans (IsBoundary.le ⟨_, b, hsplit, hlast⟩) h.le
  have hprogram : Kind.program ≠ .call := nofun
  rw [Node.calls_mk_of_ne hprogram, Node.calls_mk_of_ne hprogram, Node.callsOf_eq_filterMap,
    Node.callsOf_eq_filterMap]
  show List.Forall₂ _ _ ((Node.nodesOf (parts.map w.node)).filterMap _)
  rw [← nodes_eq_map, nodesOf_nodes]
  have hsame : List.Forall₂ (fun n n' => n ∈ Node.nodesOf parts ∧ n' = w.node n)
      (Node.nodesOf parts) ((Node.nodesOf parts).map w.node) := by
    rw [List.forall₂_map_right_iff, List.forall₂_same]
    exact fun n hn => ⟨hn, rfl⟩
  refine List.rel_filterMap ?_ hsame
  rintro n _ ⟨hn, rfl⟩
  obtain ⟨lo, hi, hlies⟩ := hlie.exists_of_mem_nodesOf hn
  exact h.rel_request? hlies (hleaf n hn)

end Frame

end Bindle.Script
