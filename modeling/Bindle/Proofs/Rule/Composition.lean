import Bindle.Rule

/-!
# Rules in sequence

The transforms that apply to a module run from the last declared to the first, whichever rules they
stand in.  So rules compose like functions, and a rule is nothing but its transforms.

* `loadThrough_append`         transforms in two groups run one group after the other;
* `load_append`                so do rules, and those declared later come first;
* `load_split`                 a rule may be cut into two with its pattern;
* `Rule.Turns`                 what transforms make of a text when none of them fails;
* `loadThrough_eq_error_iff`   the transform that a failure comes from;
* `loadThrough_ran`            loading is the work of the transforms that run, which are all of them
                               if it succeeds (`exists_loadThrough_ok_iff`).

Main result: `load_from_last`.
-/

namespace Bindle.Rule

variable {id : ModuleId} {p : Path}

/-! ## one group after the other -/

theorem loadThrough_append (id : ModuleId) (fs gs : List (Rule × Transform)) (source : String) :
    loadThrough id (fs ++ gs) source = (loadThrough id fs source).bind (loadThrough id gs) := by
  induction fs generalizing source with
  | nil => rfl
  | cons f fs ih =>
    rw [List.cons_append]
    unfold loadThrough
    cases f.2.apply source with
    | error cause => rfl
    | ok middle => exact ih middle

theorem declared_append (rules more : List Rule) (p : Path) :
    declared (rules ++ more) p = declared rules p ++ declared more p := by
  unfold declared
  rw [List.filter_append, List.flatMap_append]

/-- rules that are declared later come first -/
theorem load_append (rules more : List Rule) (id : ModuleId) (p : Path) (source : String) :
    load (rules ++ more) id p source = (load more id p source).bind (load rules id p) := by
  unfold load selected
  rw [declared_append, List.reverse_append, loadThrough_append]

/-! ## cutting a rule -/

/-- all that loading sees of a transform and its rule -/
def seen (f : Rule × Transform) : Pattern × Transform := (f.1.pattern, f.2)

theorem loadThrough_of_seen {fs gs : List (Rule × Transform)} (h : fs.map seen = gs.map seen)
    (source : String) : loadThrough id fs source = loadThrough id gs source := by
  induction fs generalizing gs source with
  | nil =>
    rw [List.map_eq_nil_iff.mp h.symm]
  | cons f fs ih =>
    obtain ⟨g, gs, rfl, hfirst, hrest⟩ := List.map_eq_cons_iff.mp h.symm
    have hpattern : g.1.pattern = f.1.pattern := congrArg Prod.fst hfirst
    have htransform : g.2 = f.2 := congrArg (fun s : Pattern × Transform => s.2) hfirst
    unfold loadThrough
    rw [hpattern, htransform]
    cases f.2.apply source with
    | error cause => rfl
    | ok middle => exact ih hrest.symm middle

theorem declared_cons (r : Rule) (rules : List Rule) (p : Path) : declared (r :: rules) p =
    (if r.appliesTo p then r.transforms.map fun t => (r, t) else []) ++ declared rules p := by
  unfold declared
  rw [List.filter_cons]
  split
  · exact List.flatMap_cons
  · rfl

theorem map_seen_declared_cons (pattern : Pattern) (ts : List Transform) (rules : List Rule)
    (p : Path) : (declared (⟨pattern, ts⟩ :: rules) p).map seen =
      (if pattern.isFoundIn p.unixText then ts.map fun t => (pattern, t) else []) ++
        (declared rules p).map seen := by
  rw [declared_cons, List.map_append]
  refine congrArg (· ++ _) ?_
  show List.map seen (if pattern.isFoundIn p.unixText then _ else _) = _
  split
  · exact List.map_map
  · rfl

/-- a rule and the two halves of it, next to each other, load alike -/
theorem load_split (before after : List Rule) (pattern : Pattern) (ts us : List Transform)
    (id : ModuleId) (p : Path) (source : String) :
    load (before ++ ⟨pattern, ts⟩ :: ⟨pattern, us⟩ :: after) id p source =
      load (before ++ ⟨pattern, ts ++ us⟩ :: after) id p source := by
  unfold load selected
  refine loadThrough_of_seen ?_ source
  rw [List.map_reverse, List.map_reverse, declared_append, declared_append, List.map_append,
    List.map_append, map_seen_declared_cons, map_seen_declared_cons, map_seen_declared_cons]
  split
  · rw [List.map_append, List.append_assoc]
  · rfl

/-! ## what transforms make of a text -/

/-- what transforms, as declared, make of a text when none fails; the last of them begins -/
inductive Turns : List (Rule × Transform) → String → String → Prop where
  | nil (source : String) : Turns [] source source
  | cons {f : Rule × Transform} {later : List (Rule × Transform)} {source middle result : String}
      (hlater : Turns later source middle) (hf : f.2.apply middle = .ok result) :
      Turns (f :: later) source result

/-- the transform that is declared first has its turn last -/
theorem loadThrough_reverse_cons (f : Rule × Transform) (later : List (Rule × Transform))
    (source : String) : loadThrough id (f :: later).reverse source =
      (loadThrough id later.reverse source).bind fun middle =>
        (f.2.apply middle).mapError (.loader f.1.pattern.text f.2.name id) := by
  rw [List.reverse_cons, loadThrough_append]
  refine congrArg _ (funext fun middle => ?_)
  unfold loadThrough
  cases f.2.apply middle with
  | error cause => rfl
  | ok result => rfl

theorem loadThrough_eq_ok_iff {fs : List (Rule × Transform)} {source result : String} :
    loadThrough id fs.reverse source = .ok result ↔ Turns fs source result := by
  induction fs generalizing result with
  | nil =>
    constructor
    · intro h
      cases h
      exact .nil source
    · intro h
      cases h
      rfl
  | cons f later ih =>
    rw [loadThrough_reverse_cons]
    constructor
    · intro h
      cases hlater : loadThrough id later.reverse source with
      | error e =>
        rw [hlater] at h
        cases h
      | ok middle =>
        rw [hlater] at h
        change (f.2.apply middle).mapError _ = .ok result at h
        cases hf : f.2.apply middle with
        | error cause =>
          rw [hf] at h
          cases h
        | ok text =>
          rw [hf] at h
          cases h
          exact .cons (ih.mp hlater) hf
    · intro h
      cases h with
      | @cons _ _ _ middle _ hlater hf =>
        rw [ih.mpr hlater]
        show (f.2.apply middle).mapError _ = .ok result
        rw [hf]
        rfl

/-- the outcome when the transform `f` fails on what those declared after it have made -/
theorem loadThrough_of_fails {earlier later : List (Rule × Transform)} {f : Rule × Transform}
    {source middle cause : String} (hlater : Turns later source middle)
    (hf : f.2.apply middle = .error cause) :
    loadThrough id (earlier ++ f :: later).reverse source =
      .error (.loader f.1.pattern.text f.2.name id cause) := by
  have hfails : loadThrough id (f :: later).reverse source =
      .error (.loader f.1.pattern.text f.2.name id cause) := by
    rw [loadThrough_reverse_cons, loadThrough_eq_ok_iff.mpr hlater]
    show (f.2.apply middle).mapError _ = _
    rw [hf]
    rfl
  rw [List.reverse_append, loadThrough_append, hfails]
  rfl

theorem loadThrough_eq_error_iff {fs : List (Rule × Transform)} {source : String} {e : BuildError} :
    loadThrough id fs.reverse source = .error e ↔
      ∃ earlier f later middle cause, fs = earlier ++ f :: later ∧ Turns later source middle ∧
        f.2.apply middle = .error cause ∧ e = .loader f.1.pattern.text f.2.name id cause := by
  constructor
  · intro h
    induction fs with
    | nil => cases h
    | cons f later ih =>
      rw [loadThrough_reverse_cons] at h
      cases hlater : loadThrough id later.reverse source with
      | error e' =>
        rw [hlater] at h
        cases h
        obtain ⟨earlier, g, rest, middle, cause, rfl, hmiddle⟩ := ih hlater
        exact ⟨f :: earlier, g, rest, middle, cause, rfl, hmiddle⟩
      | ok middle =>
        rw [hlater] at h
        change (f.2.apply middle).mapError _ = .error e at h
        cases hf : f.2.apply middle with
        | error cause =>
          rw [hf] at h
          cases h
          exact ⟨[], f, later, middle, cause, rfl, loadThrough_eq_ok_iff.mp hlater, hf, rfl⟩
        | ok result =>
          rw [hf] at h
          cases h
  · rintro ⟨earlier, f, later, middle, cause, rfl, hlater, hf, rfl⟩
    exact loadThrough_of_fails hlater hf

/-! ## which transforms run -/

/-- transforms that go well have all run -/
theorem ran_of_ok {fs : List (Rule × Transform)} {source result : String}
    (h : loadThrough id fs source = .ok result) : ran fs source = fs := by
  induction fs generalizing source with
  | nil => rfl
  | cons f fs ih =>
    unfold loadThrough at h
    unfold ran
    cases hf : f.2.apply source with
    | error cause => simp [hf] at h
    | ok middle =>
      simp only [hf] at h ⊢
      rw [ih h]

/-- behind a transform that fails none runs -/
theorem ran_append_of_error {fs : List (Rule × Transform)} {source : String} {e : BuildError}
    (h : loadThrough id fs source = .error e) (gs : List (Rule × Transform)) :
    ran (fs ++ gs) source = ran fs source := by
  induction fs generalizing source with
  | nil => cases h
  | cons f fs ih =>
    unfold loadThrough at h
    rw [List.cons_append]
    unfold ran
    cases hf : f.2.apply source with
    | error cause => rfl
    | ok middle =>
      simp only [hf] at h ⊢
      rw [ih h]

theorem isPrefix_ran (fs : List (Rule × Transform)) (source : String) : ran fs source <+: fs := by
  induction fs generalizing source with
  | nil => exact List.nil_prefix
  | cons f fs ih =>
    unfold ran
    cases hf : f.2.apply source with
    | error cause => exact List.cons_prefix_cons.mpr ⟨rfl, List.nil_prefix⟩
    | ok middle => exact List.cons_prefix_cons.mpr ⟨rfl, ih middle⟩

/-- **Loading is the work of the transforms that run.** -/
theorem loadThrough_ran (id : ModuleId) (fs : List (Rule × Transform)) (source : String) :
    loadThrough id (ran fs source) source = loadThrough id fs source := by
  induction fs generalizing source with
  | nil => rfl
  | cons f fs ih =>
    unfold ran
    cases hf : f.2.apply source with
    | error cause => simp only [loadThrough, hf]
    | ok middle =>
      simp only [loadThrough, hf]
      exact ih middle

/-- **A load succeeds exactly if all transforms ran and none failed.**  If all ran, the last is the only
one that can have failed. -/
theorem exists_loadThrough_ok_iff {fs : List (Rule × Transform)} {source : String} :
    (∃ result, loadThrough id fs source = .ok result) ↔ ran fs source = fs ∧
      ∀ before f middle, fs = before ++ [f] → loadThrough id before source = .ok middle →
        ∃ result, f.2.apply middle = .ok result := by
  have hconcat : ∀ before (f : Rule × Transform) middle, loadThrough id before source = .ok middle →
      loadThrough id (before ++ [f]) source =
        (f.2.apply middle).mapError (.loader f.1.pattern.text f.2.name id) := by
    intro before f middle hbefore
    have hlast := @loadThrough_reverse_cons id f before.reverse source
    rw [List.reverse_cons, List.reverse_reverse, hbefore] at hlast
    exact hlast
  constructor
  · rintro ⟨result, h⟩
    refine ⟨ran_of_ok h, fun before f middle hfs hbefore => ?_⟩
    rw [hfs, hconcat before f middle hbefore] at h
    cases hf : f.2.apply middle with
    | error cause =>
      rw [hf] at h
      cases h
    | ok text => exact ⟨text, rfl⟩
  · rintro ⟨hran, hlast⟩
    rcases List.eq_nil_or_concat fs with rfl | ⟨before, f, rfl⟩
    · exact ⟨source, rfl⟩
    · rw [List.concat_eq_append] at hran hlast ⊢
      cases hbefore : loadThrough id before source with
      | error e =>
        rw [ran_append_of_error hbefore] at hran
        have hlength := (isPrefix_ran before source).length_le
        rw [hran, List.length_append, List.length_singleton] at hlength
        omega
      | ok middle =>
        obtain ⟨result, hf⟩ := hlast before f middle rfl hbefore
        rw [hconcat before f middle hbefore, hf]
        exact ⟨result, rfl⟩

theorem ran_append_of_turns {fs : List (Rule × Transform)} {source middle : String}
    (h : Turns fs source middle) (gs : List (Rule × Transform)) :
    ran (fs.reverse ++ gs) source = fs.reverse ++ ran gs middle := by
  induction h generalizing gs with
  | nil => rfl
  | @cons f later source middle result _ hf ih =>
    rw [List.reverse_cons, List.append_assoc, List.append_assoc, ih]
    congr 1
    rw [List.singleton_append, List.singleton_append, ran]
    simp only [hf]

/-- those declared before a transform that fails do not run -/
theorem ran_of_fails {earlier later : List (Rule × Transform)} {f : Rule × Transform}
    {source middle cause : String} (hlater : Turns later source middle)
    (hf : f.2.apply middle = .error cause) :
    ran (earlier ++ f :: later).reverse source = (f :: later).reverse := by
  rw [List.reverse_append, List.reverse_cons, List.append_assoc, ran_append_of_turns hlater,
    List.singleton_append, ran]
  simp only [hf]

/-- **Rules run from the last to the first.**  Rules in two groups load one group after the other,
the later one first; cutting a rule in two changes nothing.  A load that fails comes from the one
transform that fails on what all those declared after it have made; these ran and it did, and nothing
else: whatever were declared before it, the error would be the same. -/
theorem load_from_last (id : ModuleId) (p : Path) (source : String) :
    (∀ rules more,
      load (rules ++ more) id p source = (load more id p source).bind (load rules id p)) ∧
    (∀ before after pattern ts us,
      load (before ++ ⟨pattern, ts⟩ :: ⟨pattern, us⟩ :: after) id p source =
        load (before ++ ⟨pattern, ts ++ us⟩ :: after) id p source) ∧
    (∀ rules result, load rules id p source = .ok result ↔ Turns (declared rules p) source result) ∧
    ∀ rules e, load rules id p source = .error e ↔ ∃ earlier f later middle cause,
      declared rules p = earlier ++ f :: later ∧ Turns later source middle ∧
      f.2.apply middle = .error cause ∧ e = .loader f.1.pattern.text f.2.name id cause ∧
      ran (selected rules p) source = (f :: later).reverse ∧
      ∀ others, loadThrough id (others ++ f :: later).reverse source = .error e := by
  refine ⟨fun rules more => load_append rules more id p source,
    fun before after pattern ts us => load_split before after pattern ts us id p source,
    fun rules result => loadThrough_eq_ok_iff, fun rules e => ?_⟩
  show loadThrough id (declared rules p).reverse source = .error e ↔ _
  rw [loadThrough_eq_error_iff]
  constructor
  · rintro ⟨earlier, f, later, middle, cause, hdeclared, hlater, hf, rfl⟩
    refine ⟨earlier, f, later, middle, cause, hdeclared, hlater, hf, rfl, ?_, fun others => ?_⟩
    · rw [selected, hdeclared]
      exact ran_of_fails hlater hf
    · exact loadThrough_of_fails hlater hf
  · rintro ⟨earlier, f, later, middle, cause, hdeclared, hlater, hf, he, -, -⟩
    exact ⟨earlier, f, later, middle, cause, hdeclared, hlater, hf, he⟩

end Bindle.Rule
