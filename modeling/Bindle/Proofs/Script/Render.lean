import Bindle.Script.Call

/-!
# New values in a rendered source

The replacements of a script are put in order (`sortSplices_perm`: none is lost, none is added), and
each of them stands in the rendered text as a literal (`exists_append_render`).
-/

namespace Bindle.Script

theorem insertSplice_perm (s : Range × String) (splices : List (Range × String)) :
    (insertSplice s splices).Perm (s :: splices) := by
  induction splices with
  | nil => exact .refl _
  | cons t ts ih =>
    unfold insertSplice
    split
    · exact .refl _
    · exact (ih.cons t).trans (.swap s t ts)

theorem foldl_insertSplice_perm (splices sorted : List (Range × String)) :
    (splices.foldl (fun sorted s => insertSplice s sorted) sorted).Perm (splices ++ sorted) := by
  induction splices generalizing sorted with
  | nil => exact .refl _
  | cons s splices ih =>
    rw [List.foldl_cons]
    refine (ih (insertSplice s sorted)).trans ?_
    refine ((insertSplice_perm s sorted).append_left splices).trans ?_
    exact List.perm_middle

theorem sortSplices_perm (splices : List (Range × String)) :
    (sortSplices splices).Perm splices := by
  have h := foldl_insertSplice_perm splices []
  rwa [List.append_nil] at h

theorem exists_append_spliceFrom (source : List Char) {splices : List (Range × String)}
    {r : Range} {value : String} (h : (r, value) ∈ splices) (cursor : Nat) :
    ∃ before after, spliceFrom source cursor splices =
      before ++ Literal.quoteChars value.toList ++ after := by
  induction splices generalizing cursor with
  | nil => exact absurd h List.not_mem_nil
  | cons s splices ih =>
    obtain ⟨r', value'⟩ := s
    unfold spliceFrom
    rcases List.mem_cons.mp h with he | h
    · obtain ⟨rfl, rfl⟩ := Prod.mk.inj he
      exact ⟨_, _, rfl⟩
    · obtain ⟨before, after, hrest⟩ := ih h r'.stop
      refine ⟨(Text.slice? source cursor r'.start).getD [] ++
        Literal.quoteChars value'.toList ++ before, after, ?_⟩
      rw [hrest]
      simp only [List.append_assoc]

/-- **A new value stands in the text as a literal.** -/
theorem exists_append_render {s : Script} {c : Call} {r : Range} {value : String} (hc : c ∈ s.calls)
    (h : c.splice? = some (r, value)) :
    ∃ before after, s.render = before ++ Literal.quote value ++ after := by
  have hmem : (r, value) ∈ sortSplices (s.calls.filterMap Call.splice?) :=
    (sortSplices_perm _).mem_iff.mpr (List.mem_filterMap.mpr ⟨c, hc, h⟩)
  obtain ⟨before, after, hrender⟩ := exists_append_spliceFrom s.source.toList hmem 0
  refine ⟨String.ofList before, String.ofList after, ?_⟩
  rw [render, hrender, String.ofList_append, String.ofList_append]
  rfl

end Bindle.Script
