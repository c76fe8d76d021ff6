import Bindle.Build.Extract
import Bindle.Proofs.Build.Resolve

/-!
# What an extraction ends in

An extraction gets through calls, one after the other, up to the end or to the first that is refused.

* `Site.Finds`      a literal call with the dependency that it asks for;
* `Site.Refuses`    a call that ends the extraction, with the error;
* `Site.Extracts`   calls that an extraction got through, paired with what was found for them, and the
                    calls that are left.

`endsIn_extract_iff`: these are all its endings.  When it goes well no calls are left
(`pairs_of_extract`).
-/

namespace Bindle

/-! ## new values -/

namespace Script.Call

/-- the call with the id of a module for its value -/
def standFor (c : Call) (id : ModuleId) : Call := { c with replacement := some id.text }

theorem exists_range {c : Call} {value : String} (h : c.argument = .literal value) :
    ∃ r, c.range = some r := by
  have hplaced := c.placed
  rw [h] at hplaced
  exact Option.isSome_iff_exists.mp hplaced

/-- a literal takes every value -/
theorem replace_of_literal {c : Call} {value : String} (h : c.argument = .literal value)
    (id : ModuleId) : c.replace id.text = (c.standFor id, true) := by
  obtain ⟨r, hr⟩ := exists_range h
  unfold replace
  split
  · rfl
  · rename_i hnone
    rw [hr] at hnone
    cases hnone

theorem splice?_standFor {c : Call} {value : String} (h : c.argument = .literal value)
    (id : ModuleId) : ∃ r, c.range = some r ∧ (c.standFor id).splice? = some (r, id.text) := by
  obtain ⟨r, hr⟩ := exists_range h
  refine ⟨r, hr, ?_⟩
  have hrange : (c.standFor id).range = some r := hr
  rw [splice?, hrange]
  rfl

end Script.Call

/-! ## calls and dependencies -/

variable {fits : (q : Question) → q.Answer → Prop}

/-- `d` is the dependency that the call `c` asks for -/
structure Site.Finds (site : Site) (fits : (q : Question) → q.Answer → Prop) (c : Script.Call)
    (d : Dependency) : Prop where
  literal : c.argument = .literal d.specifier
  resolved : (resolve site.extensions site.directory d.specifier (some site.id)).EndsIn fits
    (.ok d.path)
  id_eq : d.id = ModuleId.ofPath site.root d.path

/-- the call `c` ends the extraction with an error -/
inductive Site.Refuses (site : Site) (fits : (q : Question) → q.Answer → Prop) (c : Script.Call) :
    BuildError → Prop where
  | dynamic {written : String} (hc : c.argument = .dynamic written) :
      Refuses site fits c (.unsupportedDependency site.id c.position written)
  | unresolved {specifier : String} (hc : c.argument = .literal specifier)
      (hnone : ∀ p ∈ candidates site.extensions site.directory specifier, fits (.isFile p) false) :
      Refuses site fits c (.resolution specifier site.directory (some site.id)
        (candidates site.extensions site.directory specifier))

/-- the calls that an extraction does not get through, with its failure: it stops where no call is
left, or at a call that is refused -/
inductive Site.StopsAt (site : Site) (fits : (q : Question) → q.Answer → Prop) :
    List Script.Call → Option BuildError → Prop where
  | finished : StopsAt site fits [] none
  | refused {c : Script.Call} {after : List Script.Call} {e : BuildError}
      (hc : site.Refuses fits c e) : StopsAt site fits (c :: after) (some e)

/-- the extraction has got through calls, which are paired with what was found for them, and stopped
at the calls `rest` -/
structure Site.Extracts (site : Site) (fits : (q : Question) → q.Answer → Prop)
    (pairs : List (Script.Call × Dependency)) (rest : List Script.Call) (x : Extraction) : Prop where
  finds : ∀ f ∈ pairs, site.Finds fits f.1 f.2
  dependencies_eq : x.dependencies = pairs.map Prod.snd
  calls_eq : x.calls = pairs.map (fun f => f.1.standFor f.2.id) ++ rest
  stops : site.StopsAt fits rest x.failure

theorem Site.Extracts.after {site : Site} {pairs : List (Script.Call × Dependency)}
    {rest : List Script.Call} {x : Extraction} (h : site.Extracts fits pairs rest x)
    {c : Script.Call} {d : Dependency} (hd : site.Finds fits c d) :
    site.Extracts fits ((c, d) :: pairs) rest (x.after c d) := by
  constructor
  · exact List.forall_mem_cons.mpr ⟨hd, h.finds⟩
  · show d :: x.dependencies = _
    rw [h.dependencies_eq]
    rfl
  · show (c.replace _).1 :: x.calls = _
    rw [Script.Call.replace_of_literal hd.literal, h.calls_eq]
    rfl
  · exact h.stops

theorem extracts_of_extract {site : Site} {calls : List Script.Call} {x : Extraction}
    (h : (extract site calls).EndsIn fits x) :
    ∃ pairs rest, calls = pairs.map Prod.fst ++ rest ∧ site.Extracts fits pairs rest x := by
  induction calls generalizing x with
  | nil =>
    rw [Dialogue.endsIn_done.mp h]
    exact ⟨[], [], rfl, fun _ hf => absurd hf List.not_mem_nil, rfl, rfl, .finished⟩
  | cons c cs ih =>
    have hhere : ∀ e, site.Refuses fits c e → ∃ pairs rest, c :: cs = pairs.map Prod.fst ++ rest ∧
        site.Extracts fits pairs rest ⟨c :: cs, [], some e⟩ := fun e hc =>
      ⟨[], c :: cs, rfl, fun _ hf => absurd hf List.not_mem_nil, rfl, rfl, .refused hc⟩
    unfold extract at h
    cases hc : c.argument with
    | dynamic written =>
      simp only [hc] at h
      rw [Dialogue.endsIn_done.mp h]
      exact hhere _ (.dynamic hc)
    | literal specifier =>
      simp only [hc] at h
      obtain ⟨resolved, hresolved, h⟩ := Dialogue.endsIn_bind.mp h
      cases resolved with
      | error e =>
        rw [Dialogue.endsIn_done.mp h]
        obtain ⟨hnone, rfl⟩ := resolve_eq_error_iff.mp hresolved
        exact hhere _ (.unresolved hc hnone)
      | ok path =>
        obtain ⟨others, hothers, h⟩ := Dialogue.endsIn_bind.mp h
        obtain rfl := Dialogue.endsIn_done.mp h
        obtain ⟨pairs, rest, rfl, hextracts⟩ := ih hothers
        exact ⟨(c, ⟨specifier, ModuleId.ofPath site.root path, path⟩) :: pairs, rest, rfl,
          hextracts.after ⟨hc, hresolved, rfl⟩⟩

theorem Site.StopsAt.endsIn {site : Site} {rest : List Script.Call} {failure : Option BuildError}
    (h : site.StopsAt fits rest failure) : (extract site rest).EndsIn fits ⟨rest, [], failure⟩ := by
  cases h with
  | finished => exact .done _
  | refused hc =>
    unfold extract
    cases hc with
    | dynamic hc =>
      simp only [hc]
      exact .done _
    | unresolved hc hnone =>
      simp only [hc]
      exact Dialogue.endsIn_bind.mpr ⟨_, resolve_eq_error_iff.mpr ⟨hnone, rfl⟩, .done _⟩

theorem Site.Extracts.endsIn {site : Site} {pairs : List (Script.Call × Dependency)}
    {rest : List Script.Call} {x : Extraction} (h : site.Extracts fits pairs rest x) :
    (extract site (pairs.map Prod.fst ++ rest)).EndsIn fits x := by
  induction pairs generalizing x with
  | nil =>
    obtain ⟨calls, dependencies, failure⟩ := x
    obtain ⟨-, rfl, rfl, hstops⟩ := h
    exact hstops.endsIn
  | cons f pairs ih =>
    obtain ⟨hfirst, hothers⟩ := List.forall_mem_cons.mp h.finds
    have hrest : site.Extracts fits pairs rest
        ⟨pairs.map (fun f => f.1.standFor f.2.id) ++ rest, pairs.map Prod.snd, x.failure⟩ :=
      ⟨hothers, rfl, rfl, h.stops⟩
    have hx : x = Extraction.after f.1 f.2
        ⟨pairs.map (fun f => f.1.standFor f.2.id) ++ rest, pairs.map Prod.snd, x.failure⟩ := by
      obtain ⟨calls, dependencies, failure⟩ := x
      obtain ⟨-, rfl, rfl, -⟩ := h
      unfold Extraction.after
      rw [Script.Call.replace_of_literal hfirst.literal]
      rfl
    rw [List.map_cons, List.cons_append]
    unfold extract
    simp only [hfirst.literal]
    refine Dialogue.endsIn_bind.mpr ⟨_, hfirst.resolved, Dialogue.endsIn_bind.mpr ⟨_, ih hrest, ?_⟩⟩
    rw [hx, ← hfirst.id_eq]
    exact .done _

/-- **All that an extraction can end in.** -/
theorem endsIn_extract_iff {site : Site} {calls : List Script.Call} {x : Extraction} :
    (extract site calls).EndsIn fits x ↔
      ∃ pairs rest, calls = pairs.map Prod.fst ++ rest ∧ site.Extracts fits pairs rest x := by
  constructor
  · exact extracts_of_extract
  · rintro ⟨pairs, rest, rfl, h⟩
    exact h.endsIn

/-- an extraction that goes well gets through all calls -/
theorem pairs_of_extract {site : Site} {calls : List Script.Call} {x : Extraction}
    (h : (extract site calls).EndsIn fits x) (hx : x.failure = none) :
    ∃ pairs : List (Script.Call × Dependency), pairs.map Prod.fst = calls ∧
      pairs.map Prod.snd = x.dependencies ∧
      pairs.map (fun f => f.1.standFor f.2.id) = x.calls ∧
      ∀ f ∈ pairs, site.Finds fits f.1 f.2 := by
  obtain ⟨pairs, rest, rfl, hextracts⟩ := extracts_of_extract h
  have hstops := hextracts.stops
  rw [hx] at hstops
  cases hstops with
  | finished =>
    refine ⟨pairs, (List.append_nil _).symm, hextracts.dependencies_eq.symm, ?_, hextracts.finds⟩
    rw [hextracts.calls_eq, List.append_nil]

/-- an extraction that fails has come to a call that is refused -/
theorem exists_refuses_of_extract {site : Site} {calls : List Script.Call} {x : Extraction}
    {e : BuildError} (h : (extract site calls).EndsIn fits x) (hx : x.failure = some e) :
    ∃ before c after, calls = before ++ c :: after ∧ (∀ b ∈ before, ∃ d, site.Finds fits b d) ∧
      site.Refuses fits c e := by
  obtain ⟨pairs, rest, rfl, hextracts⟩ := extracts_of_extract h
  have hstops := hextracts.stops
  rw [hx] at hstops
  cases hstops with
  | @refused c after _ hc =>
    refine ⟨pairs.map Prod.fst, c, after, rfl, fun b hb => ?_, hc⟩
    obtain ⟨f, hf, rfl⟩ := List.mem_map.mp hb
    exact ⟨f.2, hextracts.finds f hf⟩

/-- and it does fail on such a call when the calls before it stand for files -/
theorem exists_extract_of_refuses {site : Site} {before : List Script.Call}
    (after : List Script.Call) {c : Script.Call} {e : BuildError}
    (hbefore : ∀ b ∈ before, ∃ d, site.Finds fits b d) (hc : site.Refuses fits c e) :
    ∃ x, (extract site (before ++ c :: after)).EndsIn fits x ∧ x.failure = some e := by
  induction before with
  | nil => exact ⟨_, (Site.StopsAt.refused hc).endsIn, rfl⟩
  | cons b before ih =>
    obtain ⟨⟨d, hd⟩, hothers⟩ := List.forall_mem_cons.mp hbefore
    obtain ⟨x, hx, hfailure⟩ := ih hothers
    obtain ⟨pairs, rest, heq, hextracts⟩ := extracts_of_extract hx
    have hmore := (hextracts.after hd).endsIn
    rw [List.map_cons, List.cons_append, ← heq] at hmore
    exact ⟨x.after b d, hmore, hfailure⟩

end Bindle
