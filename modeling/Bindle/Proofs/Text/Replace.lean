import Bindle.Text.Replace
import Mathlib.Data.List.Infix

/-!
# What a replacement tells about what was put in

A word that is replaced wherever it occurs cuts a text into parts, and these do not depend on what is
put between them (`exists_parts`).  So a text without the word stays as it is
(`replaceAll_of_not_infix`), and one with the word tells what was put in (`replaceAll_injective`).
-/

namespace Bindle.Text

variable {old s : List Char}

theorem replaceAll_nil (hold : old ≠ []) (new : List Char) : replaceAll old new [] = [] := by
  rw [replaceAll, if_neg (by rwa [List.isEmpty_iff])]

theorem replaceAll_append (hold : old ≠ []) (new after : List Char) :
    replaceAll old new (old ++ after) = new ++ replaceAll old new after := by
  obtain ⟨c, cs, rfl⟩ := List.exists_cons_of_ne_nil hold
  have hprefix : (c :: cs).isPrefixOf (c :: (cs ++ after)) = true :=
    List.isPrefixOf_iff_prefix.mpr (List.prefix_append (c :: cs) after)
  have hrest : (cs ++ after).drop ((c :: cs).length - 1) = after := List.drop_left
  rw [List.cons_append, replaceAll, if_neg (by simp), if_pos hprefix, hrest]

theorem replaceAll_cons {c : Char} {cs : List Char} (hold : old ≠ []) (h : ¬ old <+: c :: cs)
    (new : List Char) : replaceAll old new (c :: cs) = c :: replaceAll old new cs := by
  rw [replaceAll, if_neg (by rwa [List.isEmpty_iff]), if_neg (by rwa [List.isPrefixOf_iff_prefix])]

/-! ## parts -/

/-- the parts of a text with `new` between them -/
def joined (first : List Char) (rest : List (List Char)) (new : List Char) : List Char :=
  first ++ rest.flatMap (new ++ ·)

theorem length_joined (first : List Char) (rest : List (List Char)) (new : List Char) :
    (joined first rest new).length = (first :: rest).flatten.length + rest.length * new.length := by
  unfold joined
  induction rest with
  | nil => simp
  | cons part rest ih =>
    simp only [List.length_append, List.flatMap_cons, List.flatten_cons, List.length_cons,
      Nat.succ_mul] at ih ⊢
    omega

/-- **A word cuts a text into parts**, into more than one exactly when it occurs there. -/
theorem exists_parts (hold : old ≠ []) (s : List Char) :
    ∃ first rest, s = joined first rest old ∧
      (∀ new, replaceAll old new s = joined first rest new) ∧ (rest = [] ↔ ¬ old <:+: s) := by
  induction s using replaceAll.induct old with
  | case1 hempty => exact absurd (List.isEmpty_iff.mp hempty) hold
  | case2 =>
    exact ⟨[], [], rfl, replaceAll_nil hold, iff_of_true rfl fun h => hold (List.infix_nil.mp h)⟩
  | case3 c cs hempty => exact absurd (List.isEmpty_iff.mp hempty) hold
  | case4 c cs _ hprefix ih =>
    obtain ⟨after, hafter⟩ := List.isPrefixOf_iff_prefix.mp hprefix
    have hrest : cs.drop (old.length - 1) = after := by
      obtain ⟨o, os, rfl⟩ := List.exists_cons_of_ne_nil hold
      rw [← (List.cons.inj hafter).2]
      exact List.drop_left
    obtain ⟨first, rest, heq, hjoined, -⟩ := ih
    rw [hrest] at heq hjoined
    rw [← hafter]
    refine ⟨[], first :: rest, ?_, fun new => ?_, iff_of_false (List.cons_ne_nil _ _)
      fun h => h (List.prefix_append old after).isInfix⟩
    · rw [heq]
      exact (List.append_assoc _ _ _).symm
    · rw [replaceAll_append hold, hjoined]
      exact (List.append_assoc _ _ _).symm
  | case5 c cs _ hprefix ih =>
    have hnot : ¬ old <+: c :: cs := fun h => hprefix (List.isPrefixOf_iff_prefix.mpr h)
    obtain ⟨first, rest, heq, hjoined, hcount⟩ := ih
    refine ⟨c :: first, rest, congrArg (c :: ·) heq, fun new => ?_, ?_⟩
    · rw [replaceAll_cons hold hnot, hjoined]
      rfl
    · rw [hcount, List.infix_cons_iff, not_or]
      exact ⟨fun h => ⟨hnot, h⟩, And.right⟩

/-! ## what was put in -/

theorem replaceAll_of_not_infix (hold : old ≠ []) (h : ¬ old <:+: s) (new : List Char) :
    replaceAll old new s = s := by
  obtain ⟨first, rest, heq, hjoined, hcount⟩ := exists_parts hold s
  rw [hjoined, hcount.mpr h]
  rw [hcount.mpr h] at heq
  exact heq.symm

/-- **What was put in can be told from the result.** -/
theorem replaceAll_injective (hold : old ≠ []) (h : old <:+: s) :
    Function.Injective fun new => replaceAll old new s := by
  obtain ⟨first, rest, -, hjoined, hcount⟩ := exists_parts hold s
  intro new new' heq
  simp only [hjoined] at heq
  cases rest with
  | nil => exact absurd h (hcount.mp rfl)
  | cons part rest =>
    have hlength : new.length = new'.length := by
      have hsize := congrArg List.length heq
      rw [length_joined, length_joined, Nat.add_left_cancel_iff] at hsize
      exact Nat.eq_of_mul_eq_mul_left (Nat.succ_pos _) hsize
    unfold joined at heq
    rw [List.flatMap_cons, List.flatMap_cons, List.append_assoc, List.append_assoc] at heq
    exact List.append_inj_left (List.append_cancel_left heq) hlength

end Bindle.Text
