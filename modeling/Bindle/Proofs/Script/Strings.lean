import Bindle.Proofs.Script.Grammar.Module

/-!
# The strings of a script that was read

* `weigh_readTree`        the account of a whole script;
* `Stands.slice`          the text of a string in the source;
* `stands_readTree`       every string of the tree stands in the source.

Places in a tree do not count a byte order mark, so the source is taken without one.
-/

namespace Bindle.Script

open Bindle.Text Probe

theorem reaches_firstCursor (source : List Char) :
    Cursor.Reaches ⟨source, 0⟩ (firstCursor source) := by
  unfold firstCursor
  dsimp only
  split
  · exact Cursor.reaches_takeWhile _ _
  · exact .refl _

/-- **Over a whole script, no byte is covered twice.** -/
theorem weigh_readTree {source : List Char} {tree : Node} (h : readTree source = .ok tree)
    (byte : Nat) : (⟨withoutMark source, byte⟩ : Probe).weigh tree ≤ 1 := by
  generalize hv : (⟨withoutMark source, byte⟩ : Probe) = v
  have hsource : v.source = withoutMark source := by rw [← hv]
  have hfirst : v.Right (Token.read {} true (firstCursor (withoutMark source))) :=
    right_read _ _ (.inr (by rw [hsource]; exact reaches_firstCursor _))
  obtain ⟨s, hs, hsound, hstop, -⟩ := place_spec hfirst
    (State.beginning (Token.read {} true (firstCursor (withoutMark source)))) (Nat.zero_le _)
  have hrun : runProgram (withoutMark source) = _ := runProgram_eq hs
  have hreads := (Grammar.reads_program (Grammar.reads_ofDepth (v := v)
    (depthOf (withoutMark source)))).readsAt s hsound
  rw [readTree, hrun] at h
  cases hout : Grammar.program (Grammar.ofDepth (depthOf (withoutMark source))) s with
  | error e t =>
    rw [hout] at h
    exact absurd h (by simp)
  | ok n t =>
    rw [hout] at h hreads
    dsimp only at h
    split at h
    · exact absurd h (by simp)
    · rename_i hfaults
      obtain rfl := Except.ok.inj h
      have hzero : v.Holds s (0 + 0) := fun _ => Nat.zero_le _
      have hweight := hreads.2 0 hzero (List.reverse_eq_nil_iff.mp hfaults)
      split at hweight <;> omega

/-! ## strings in the source -/

theorem slice?_of_reaches {source : List Char} {c d : Cursor}
    (hc : Cursor.Reaches ⟨source, 0⟩ c) {text : List Char} (hrest : c.rest = text ++ d.rest)
    (hoffset : d.offset = c.offset + byteLength text) :
    slice? source c.offset d.offset = some text := by
  obtain ⟨before, hbefore, hlength⟩ := hc
  refine slice?_eq_some_iff.mpr ⟨before, d.rest, ?_, ?_, ?_⟩
  · change source = before ++ c.rest at hbefore
    rw [hbefore, hrest, List.append_assoc]
  · rw [hlength]
    exact (Nat.zero_add _).symm
  · rw [byteLength_append, hoffset, hlength]
    show byteLength before + _ = 0 + byteLength before + _
    rw [Nat.zero_add]

/-- what begins a text and lacks one of its characters stands before it -/
theorem prefix_of_not_mem {p a b : List Char} {c : Char} (h : p <+: a ++ c :: b) (hc : c ∉ p) :
    p <+: a := by
  obtain ⟨t, ht⟩ := h
  rcases List.append_eq_append_iff.mp ht with ⟨m, ha, -⟩ | ⟨m, hp, hm⟩
  · exact ⟨m, ha.symm⟩
  · cases m with
    | nil => exact ⟨[], by rw [hp, List.append_nil, List.append_nil]⟩
    | cons d m =>
      obtain ⟨rfl, -⟩ := List.cons.inj hm
      exact absurd (hp ▸ List.mem_append_right a List.mem_cons_self) hc

namespace Stands

variable {source : List Char} {start stop : Nat} {raw : String}

theorem lt (h : Stands source start stop raw) : start < stop := by
  obtain ⟨c, d, e, -, rfl, hcd, -, hstring, rfl⟩ := h
  obtain ⟨-, hoffset, quote, body, -, hraw⟩ := hstring.text
  have hle := hcd.offset_le
  have hquote := utf8Size_pos quote
  rw [hraw, List.cons_append, byteLength_cons] at hoffset
  omega

/-- the bytes of a string hold its token, and before that at most a legacy comment -/
theorem slice (h : Stands source start stop raw) :
    ∃ comment, slice? source start stop = some (comment ++ raw.toList) ∧
      (comment = [] ∨ ['<', '!', '-', '-'] <+: comment ∨ ['-', '-', '>'] <+: comment) := by
  obtain ⟨c, d, e, hc, rfl, ⟨comment, hrest, hoffset⟩, hlegacy, hstring, rfl⟩ := h
  obtain ⟨htext, hstop, quote, body, hquote, hraw⟩ := hstring.text
  refine ⟨comment, slice?_of_reaches hc ?_ ?_, ?_⟩
  · rw [hrest, htext, List.append_assoc]
  · rw [hstop, hoffset, byteLength_append, Nat.add_assoc]
  · have hboth : c.rest = comment ++ quote :: (body ++ [quote] ++ e.rest) := by
      rw [hrest, htext, hraw]
      simp
    rcases hlegacy with rfl | hmark | hmark
    · have := congrArg List.length hrest
      rw [List.length_append] at this
      exact .inl (List.length_eq_zero_iff.mp (by omega))
    · rw [hboth] at hmark
      exact .inr (.inl (prefix_of_not_mem hmark (by rcases hquote with rfl | rfl <;> decide)))
    · rw [hboth] at hmark
      exact .inr (.inr (prefix_of_not_mem hmark (by rcases hquote with rfl | rfl <;> decide)))

end Stands

/-- a sum of natural numbers is no less than each of them -/
theorem load_le_sum {v : Probe} {leaves : List Leaf} {l : Leaf} (h : l ∈ leaves) :
    v.load l ≤ (leaves.map v.load).sum := by
  induction leaves with
  | nil => exact absurd h List.not_mem_nil
  | cons k leaves ih =>
    rw [List.map_cons, List.sum_cons]
    rcases List.mem_cons.mp h with rfl | h
    · exact Nat.le_add_right _ _
    · exact Nat.le_trans (ih h) (Nat.le_add_left _ _)

/-- **Every string of the tree stands in the source.** -/
theorem stands_readTree {source : List Char} {tree : Node} (h : readTree source = .ok tree)
    {l : Leaf} (hl : l ∈ tree.leaves) : Stands (withoutMark source) l.start l.stop l.raw := by
  have hload := Nat.le_trans (load_le_sum (v := ⟨withoutMark source, 0⟩) hl) (weigh_readTree h 0)
  by_cases hstands : Stands (withoutMark source) l.start l.stop l.raw
  · exact hstands
  · rw [load, if_neg hstands] at hload
    omega

end Bindle.Script
