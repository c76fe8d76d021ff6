import Bindle.Proofs.Script.Rewriting

/-!
# Rendering calls in any order

The calls of a script need not stand in the order of its text, and any of them may have a new value.
If their pieces of the source are apart, rendering never misses a piece, and it does not matter how
the calls are ordered.

* `Placed s`                  the pieces of the calls are on the source, and no two have a byte in
                              common;
* `sortSplices_eq_of_perm`    the order in which new values are put in;
* `render_placed`             what is rendered.
-/

namespace Bindle.Script

open Bindle.Text Segment

/-- every literal call has a piece of the source that is not empty, and these are apart -/
structure Placed (s : Script) : Prop where
  on : ∀ r ∈ rangesOf s.calls, r.On s.source.toList
  apart : (rangesOf s.calls).Pairwise Range.Apart

instance (r q : Range) : Decidable (r.Apart q) :=
  inferInstanceAs (Decidable (r.stop ≤ q.start ∨ q.stop ≤ r.start))

instance (source : List Char) (r : Range) : Decidable (r.On source) :=
  decidable_of_iff (r.start < r.stop ∧ (slice? source r.start r.stop).isSome)
    (and_congr_right' Option.isSome_iff_exists)

instance (s : Script) : Decidable (Placed s) :=
  decidable_of_iff ((∀ r ∈ rangesOf s.calls, r.On s.source.toList) ∧
    (rangesOf s.calls).Pairwise Range.Apart) ⟨fun h => ⟨h.1, h.2⟩, fun h => ⟨h.1, h.2⟩⟩

theorem Call.range_of_splice? {c : Call} {e : Range × String} (h : c.splice? = some e) :
    c.range = some e.1 := by
  unfold Call.splice? at h
  split at h
  · rename_i r value hrange hreplacement
    cases h
    exact hrange
  · exact absurd h (by simp)

theorem Call.splice?_of_untouched {c : Call} (h : c.replacement = none) : c.splice? = none := by
  unfold Call.splice?
  rw [h]
  cases c.range <;> rfl

namespace Placed

variable {s : Script} (h : Placed s)

include h

theorem on_splices : ∀ e ∈ s.calls.filterMap Call.splice?, e.1.On s.source.toList := by
  intro e he
  obtain ⟨c, hc, hsplice⟩ := List.mem_filterMap.mp he
  exact h.on e.1 (List.mem_filterMap.mpr ⟨c, hc, Call.range_of_splice? hsplice⟩)

theorem apart_splices : (s.calls.filterMap Call.splice?).Pairwise fun e f => e.1.Apart f.1 := by
  have hcalls := List.pairwise_filterMap.mp h.apart
  refine List.pairwise_filterMap.mpr (hcalls.imp fun {c d} hcd e he f hf => ?_)
  exact hcd e.1 (Call.range_of_splice? he) f.1 (Call.range_of_splice? hf)

end Placed

/-- new values for pieces that are apart can be put in in one order only -/
theorem sortSplices_eq_of_perm {splices splices' : List (Range × String)}
    (hperm : splices'.Perm splices) (hapart : splices.Pairwise fun e f => e.1.Apart f.1)
    (hne : ∀ e ∈ splices, e.1.start < e.1.stop) : sortSplices splices' = sortSplices splices := by
  have hsorted := (sortSplices_perm splices').trans (hperm.trans (sortSplices_perm splices).symm)
  have hapart' := (hperm.pairwise_iff fun h => Range.Apart.symm h).mpr hapart
  have hne' : ∀ e ∈ splices', e.1.start < e.1.stop := fun e he => hne e (hperm.mem_iff.mp he)
  refine hsorted.eq_of_pairwise (fun e f he hf hef hfe => ?_)
    (sortSplices_consecutive hapart' hne') (sortSplices_consecutive hapart hne)
  -- two that each end before the other begins would both be empty
  have := hne' e ((sortSplices_perm splices').mem_iff.mp he)
  have := hne f ((sortSplices_perm splices).mem_iff.mp hf)
  omega

theorem render_of_untouched {s : Script} (h : ∀ c ∈ s.calls, c.replacement = none) :
    s.render = s.source := by
  have hnone : s.calls.filterMap Call.splice? = [] :=
    List.filterMap_eq_nil_iff.mpr fun c hc => Call.splice?_of_untouched (h c hc)
  have hdrop : dropBytes? 0 s.source.toList = some s.source.toList :=
    dropBytes?_eq_some_iff.mpr ⟨[], rfl, rfl⟩
  rw [render, hnone]
  show String.ofList ((dropBytes? 0 s.source.toList).getD []) = s.source
  rw [hdrop, Option.getD_some, String.ofList_toList]

/-- **Rendering is right for calls in any order.**  All that is copied is there; the source is cut
into segments, one for each call with a new value, and of each segment the kept part stays and the
piece of the call gives the value as a literal; other orders give the same text, and a script
without new values gives its source. -/
theorem render_placed {s : Script} (h : Placed s) :
    Sliceable s.source.toList 0 (sortSplices (s.calls.filterMap Call.splice?)) ∧
    (∃ segments tail, (segments.map edit).Perm (s.calls.filterMap Call.splice?) ∧
      Follow 0 segments ∧ s.source.toList = segments.flatMap oldText ++ tail ∧
      s.render.toList = segments.flatMap newText ++ tail) ∧
    (∀ calls, calls.Perm s.calls → render { s with calls := calls } = s.render) ∧
    ((∀ c ∈ s.calls, c.replacement = none) → s.render = s.source) := by
  obtain ⟨segments, tail, hedits, hfollow, hsource⟩ :=
    exists_segments_sortSplices h.on_splices h.apart_splices
  have hstart : s.source.toList = [] ++ (segments.flatMap oldText ++ tail) := hsource
  obtain ⟨hslices, hsplice⟩ := spliceFrom_segments hstart hfollow
  rw [hedits] at hslices hsplice
  refine ⟨hslices, ⟨segments, tail, hedits ▸ sortSplices_perm _, hfollow, hsource, ?_⟩,
    fun calls hperm => ?_, render_of_untouched⟩
  · rw [render, String.toList_ofList]
    exact hsplice
  · have hsorted := sortSplices_eq_of_perm (hperm.filterMap Call.splice?) h.apart_splices
      fun e he => (h.on_splices e he).1
    rw [render, render, hsorted]

/-- three calls that do not stand in the order of the text; the middle one keeps its argument -/
def scrambled : Script where
  source := "f('é', require('./a'), require('./b'), require('./c'));"
  calls :=
    [{ position := ⟨1, 40, 40⟩, argument := .literal "./c", range := some ⟨48, 53⟩,
       replacement := some "./long/c.js", placed := rfl },
     { position := ⟨1, 8, 8⟩, argument := .literal "./a", range := some ⟨16, 21⟩,
       replacement := some "", placed := rfl },
     { position := ⟨1, 24, 24⟩, argument := .literal "./b", range := some ⟨32, 37⟩, placed := rfl }]

/-- their new values are put in alike in all orders -/
theorem render_placed_scrambled : Placed scrambled ∧
    ∀ calls, calls.Perm scrambled.calls → render { scrambled with calls := calls } =
      "f('é', require(\"\"), require('./b'), require(\"./long/c.js\"));" := by
  have hplaced : Placed scrambled := by decide +kernel
  refine ⟨hplaced, fun calls hperm => ?_⟩
  rw [(render_placed hplaced).2.2.1 calls hperm]
  decide +kernel

end Bindle.Script
