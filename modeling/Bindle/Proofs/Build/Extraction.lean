import Bindle.Proofs.Build.Extract
import Bindle.Proofs.Graph.Files

/-!
# Extractions from files that do not change

With answers known beforehand a call either stands for a file or is refused (`Site.Finds.not_refuses`),
so an extraction goes well exactly when all its calls stand for files.  Otherwise it stops at the first
that does not: the calls before it are recorded and have their new values, it and those after it are
as they were (`extract_up_to_refused`).
-/

namespace Bindle

variable {answer : (q : Question) → q.Answer} {site : Site}

/-- a call that stands for a file is not refused -/
theorem Site.Finds.not_refuses {c : Script.Call} {d : Dependency} {e : BuildError}
    (h : site.Finds (Dialogue.Known answer) c d) :
    ¬ site.Refuses (Dialogue.Known answer) c e := by
  intro hrefuses
  cases hrefuses with
  | dynamic hc =>
    rw [h.literal] at hc
    cases hc
  | @unresolved specifier hc hnone =>
    obtain rfl : d.specifier = specifier := by
      rw [h.literal] at hc
      exact Script.Argument.literal.inj hc
    have hfound : true = answer (.isFile d.path) := isFile_of_resolve h.resolved
    have hmissing : false = answer (.isFile d.path) :=
      hnone d.path (mem_candidates_of_resolve h.resolved)
    exact absurd (hmissing.trans hfound.symm) Bool.false_ne_true

theorem Site.Extracts.failure_eq_none_iff {pairs : List (Script.Call × Dependency)}
    {rest : List Script.Call} {x : Extraction}
    (h : site.Extracts (Dialogue.Known answer) pairs rest x) :
    x.failure = none ↔ ∀ c ∈ pairs.map Prod.fst ++ rest,
      ∃ d, site.Finds (Dialogue.Known answer) c d := by
  have hstops := h.stops
  constructor
  · intro hx c hc
    rw [hx] at hstops
    cases hstops with
    | finished =>
      rw [List.append_nil] at hc
      obtain ⟨f, hf, rfl⟩ := List.mem_map.mp hc
      exact ⟨f.2, h.finds f hf⟩
  · intro hall
    cases hfailure : x.failure with
    | none => rfl
    | some e =>
      rw [hfailure] at hstops
      cases hstops with
      | @refused c after _ hc =>
        obtain ⟨d, hd⟩ := hall c (List.mem_append_right _ List.mem_cons_self)
        exact absurd hc hd.not_refuses

/-- the places of the files when some are added -/
theorem Growth.exists_mem_addFiles_iff {g : Growth} {paths : List Path}
    {place : List Path.Component} :
    (∃ p ∈ (g.addFiles paths).files, p.components = place) ↔
      (∃ p ∈ g.files, p.components = place) ∨ ∃ p ∈ paths, p.components = place := by
  constructor
  · rintro ⟨p, hp, rfl⟩
    exact (mem_of_mem_addFiles hp).imp (fun hp => ⟨p, hp, rfl⟩) (fun hp => ⟨p, hp, rfl⟩)
  · rintro (⟨p, hp, rfl⟩ | ⟨p, hp, rfl⟩)
    · exact ⟨p, (sublist_addFiles g paths).subset hp, rfl⟩
    · exact exists_mem_addFiles hp

/-- **An extraction gets through its calls up to the first that is refused.**  Each call that it gets
through is a literal, is recorded with what the literal was resolved to, and has the id of that file
for its value; all others stay as they were.  It fails exactly when some call does not stand for a
file, and then with the error of the first of these.  The files that it adds to those of a growth are
those of the recorded dependencies. -/
theorem extract_up_to_refused (answer : (q : Question) → q.Answer) (site : Site)
    (calls : List Script.Call) (g : Growth) :
    ∃ pairs rest x, (extract site calls).result answer = x ∧ calls = pairs.map Prod.fst ++ rest ∧
      site.Extracts (Dialogue.Known answer) pairs rest x ∧
      (x.failure = none ↔ ∀ c ∈ calls, ∃ d, site.Finds (Dialogue.Known answer) c d) ∧
      g.files.Sublist (g.addFiles x.files).files ∧
      ∀ place, (∃ p ∈ (g.addFiles x.files).files, p.components = place) ↔
        (∃ p ∈ g.files, p.components = place) ∨ ∃ f ∈ pairs, f.2.path.components = place := by
  obtain ⟨pairs, rest, hcalls, hextracts⟩ :=
    extracts_of_extract (Dialogue.endsIn_known.mpr (Eq.refl ((extract site calls).result answer)))
  generalize (extract site calls).result answer = x at hextracts ⊢
  have hfiles : x.files = pairs.map fun f => f.2.path := by
    rw [Extraction.files, hextracts.dependencies_eq, List.map_map]
    rfl
  refine ⟨pairs, rest, x, rfl, hcalls, hextracts, ?_, Growth.sublist_addFiles g _, fun place => ?_⟩
  · rw [hcalls]
    exact hextracts.failure_eq_none_iff
  · rw [Growth.exists_mem_addFiles_iff, hfiles]
    simp only [List.mem_map, exists_exists_and_eq_and]

end Bindle
