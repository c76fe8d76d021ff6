import Bindle.Path.Normal
import Mathlib.Data.List.Basic
import Mathlib.Data.List.TakeWhile

/-!
# The components of texts and of normal forms

A text is cut at its slashes (`pieces_append_slash`), and parts that are joined with slashes are found
again (`pieces_intercalate`).

* `Component.IsProper c`   names are as texts have them: not empty, without a slash, no dots;
* `IsNormal cs`            the root and names, or `..` some times and names.

Normalizing gives a normal form (`isNormal_normalComponents`), and its text has exactly these
components (`components_normalize`).  So texts of normal forms are equal exactly when the components
are (`normalize_inj`).
-/

namespace Bindle.Path

/-! ## pieces -/

theorem pieces_ne_nil (cs : List Char) : pieces cs ≠ [] := by
  cases cs with
  | nil => simp [pieces]
  | cons c cs =>
    unfold pieces
    split
    · simp
    · split <;> simp

theorem pieces_slash (cs : List Char) : pieces ('/' :: cs) = [] :: pieces cs := by
  simp [pieces]

theorem pieces_cons {c : Char} (hc : c ≠ '/') {cs p : List Char} {ps : List (List Char)}
    (h : pieces cs = p :: ps) : pieces (c :: cs) = (c :: p) :: ps := by
  simp [pieces, hc, h]

theorem not_mem_of_mem_pieces {cs p : List Char} (h : p ∈ pieces cs) : '/' ∉ p := by
  induction cs generalizing p with
  | nil =>
    obtain rfl := List.mem_singleton.mp h
    exact List.not_mem_nil
  | cons c cs ih =>
    by_cases hc : c = '/'
    · rw [hc, pieces_slash] at h
      rcases List.mem_cons.mp h with rfl | h
      · exact List.not_mem_nil
      · exact ih h
    · obtain ⟨q, qs, hq⟩ := List.exists_cons_of_ne_nil (pieces_ne_nil cs)
      rw [pieces_cons hc hq] at h
      rw [hq] at ih
      rcases List.mem_cons.mp h with rfl | h
      · intro hmem
        rcases List.mem_cons.mp hmem with he | hmem
        · exact hc he.symm
        · exact ih List.mem_cons_self hmem
      · exact ih (List.mem_cons_of_mem _ h)

theorem pieces_append_slash (a b : List Char) : pieces (a ++ '/' :: b) = pieces a ++ pieces b := by
  induction a with
  | nil => exact pieces_slash b
  | cons c a ih =>
    rw [List.cons_append]
    by_cases hc : c = '/'
    · rw [hc, pieces_slash, pieces_slash, ih, List.cons_append]
    · obtain ⟨p, ps, hp⟩ := List.exists_cons_of_ne_nil (pieces_ne_nil a)
      rw [pieces_cons hc hp]
      rw [hp, List.cons_append] at ih
      rw [pieces_cons hc ih, List.cons_append]

theorem pieces_of_not_mem {cs : List Char} (h : '/' ∉ cs) : pieces cs = [cs] := by
  induction cs with
  | nil => rfl
  | cons c cs ih =>
    rw [List.mem_cons, not_or] at h
    exact pieces_cons (Ne.symm h.1) (ih h.2)

theorem pieces_intercalate {parts : List (List Char)} (h : parts ≠ []) :
    pieces (List.intercalate ['/'] parts) = parts.flatMap pieces := by
  induction parts with
  | nil => exact absurd rfl h
  | cons p ps ih =>
    cases ps with
    | nil => simp [List.intercalate]
    | cons q qs =>
      rw [List.intercalate_cons_cons, List.append_assoc, List.singleton_append,
        pieces_append_slash, ih (List.cons_ne_nil q qs), ← List.flatMap_cons]

/-! ## components as texts have them -/

def Component.IsProper : Component → Prop
  | .name s => s ≠ "" ∧ '/' ∉ s.toList ∧ s ≠ "." ∧ s ≠ ".."
  | _ => True

/-- a part of a path below its beginning -/
def Component.IsStep (c : Component) : Prop := c.IsProper ∧ c ≠ .root ∧ c ≠ .current

theorem Component.isStep_parent : Component.parent.IsStep := ⟨trivial, by simp, by simp⟩

theorem Component.isStep_name {s : String} (h : (Component.name s).IsProper) :
    (Component.name s).IsStep := ⟨h, by simp, by simp⟩

theorem isStep_of_component? {p : List Char} {c : Component} (hp : '/' ∉ p)
    (h : component? p = some c) : c.IsStep := by
  unfold component? at h
  split at h
  · cases h
  · rename_i hne
    split at h
    · cases h
      exact Component.isStep_parent
    · rename_i hdots
      cases h
      have hofList : ∀ cs : List Char, p ≠ cs → String.ofList p ≠ String.ofList cs :=
        fun cs hcs he => hcs (String.ofList_injective he)
      refine Component.isStep_name ⟨hofList [] fun he => hne (.inl he), ?_,
        hofList ['.'] fun he => hne (.inr he), hofList ['.', '.'] hdots⟩
      rwa [String.toList_ofList]

theorem isStep_of_mem_filterMap {ps : List (List Char)} (hps : ∀ p ∈ ps, '/' ∉ p) {c : Component}
    (h : c ∈ ps.filterMap component?) : c.IsStep := by
  obtain ⟨p, hp, hc⟩ := List.mem_filterMap.mp h
  exact isStep_of_component? (hps p hp) hc

/-- a path begins with the root, with the current directory, or with neither -/
theorem components_cases (p : Path) : ∃ steps, (∀ c ∈ steps, Component.IsStep c) ∧
    (p.components = .root :: steps ∧ p.isAbsolute = true ∨
      (p.components = .current :: steps ∨ p.components = steps) ∧ p.isAbsolute = false) := by
  obtain ⟨first, rest, hpieces⟩ := List.exists_cons_of_ne_nil (pieces_ne_nil p.text.toList)
  have hslash : ∀ q ∈ first :: rest, '/' ∉ q := fun q hq => not_mem_of_mem_pieces (hpieces ▸ hq)
  have hrest : ∀ c ∈ rest.filterMap component?, Component.IsStep c := fun c =>
    isStep_of_mem_filterMap fun q hq => hslash q (List.mem_cons_of_mem _ hq)
  unfold components componentsOf isAbsolute
  simp only [hpieces]
  by_cases habs : p.text.toList.head? = some '/'
  · exact ⟨_, hrest, .inl ⟨if_pos habs, decide_eq_true habs⟩⟩
  · rw [if_neg habs]
    by_cases hdot : first = ['.']
    · exact ⟨_, hrest, .inr ⟨.inl (if_pos hdot), decide_eq_false habs⟩⟩
    · exact ⟨_, fun c => isStep_of_mem_filterMap hslash,
        .inr ⟨.inr (if_neg hdot), decide_eq_false habs⟩⟩

/-! ## normal forms -/

/-- `..` some times, and names -/
def descent (k : Nat) (names : List String) : List Component :=
  List.replicate k .parent ++ names.map .name

inductive IsNormal : List Component → Prop where
  | absolute {names : List String} (h : ∀ s ∈ names, (Component.name s).IsProper) :
      IsNormal (.root :: names.map .name)
  | relative (k : Nat) {names : List String} (h : ∀ s ∈ names, (Component.name s).IsProper) :
      IsNormal (descent k names)

theorem root_not_mem_descent (k : Nat) (names : List String) : Component.root ∉ descent k names := by
  simp [descent]

/-- the components so far, last first -/
def IsFolded (done : List Component) : Prop := IsNormal done.reverse

theorem isFolded_nil : IsFolded [] := @IsNormal.relative 0 [] (by simp)

theorem IsFolded.name {done : List Component} (h : IsFolded done) {s : String}
    (hs : (Component.name s).IsProper) : IsFolded (.name s :: done) := by
  have hconcat : ∀ names : List String, (∀ t ∈ names, (Component.name t).IsProper) →
      ∀ t ∈ names ++ [s], (Component.name t).IsProper := by
    intro names hnames t ht
    rcases List.mem_append.mp ht with ht | ht
    · exact hnames t ht
    · exact List.mem_singleton.mp ht ▸ hs
  unfold IsFolded at h ⊢
  rw [List.reverse_cons]
  generalize done.reverse = cs at h
  cases h with
  | @absolute names h =>
    have hnew := IsNormal.absolute (hconcat names h)
    rwa [List.map_append] at hnew
  | @relative k names h =>
    have hnew := IsNormal.relative k (hconcat names h)
    rwa [descent, List.map_append, ← List.append_assoc] at hnew

theorem IsFolded.of_name {rest : List Component} {s : String}
    (h : IsFolded (.name s :: rest)) : IsFolded rest := by
  unfold IsFolded at h ⊢
  rw [List.reverse_cons] at h
  generalize hcs : rest.reverse ++ [Component.name s] = cs at h
  cases h with
  | @absolute names h =>
    rcases List.eq_nil_or_concat names with rfl | ⟨before, t, rfl⟩
    · have hlast := congrArg List.getLast? hcs
      simp at hlast
    · rw [List.concat_eq_append, List.map_append, ← List.cons_append] at hcs
      rw [(List.append_inj' hcs rfl).1]
      exact .absolute fun u hu => h u (by simp [hu])
  | @relative k names h =>
    rcases List.eq_nil_or_concat names with rfl | ⟨before, t, rfl⟩
    · have hmem : Component.name s ∈ descent k [] := hcs ▸ by simp
      simp [descent] at hmem
    · rw [descent, List.concat_eq_append, List.map_append, ← List.append_assoc] at hcs
      rw [(List.append_inj' hcs rfl).1]
      exact .relative k fun u hu => h u (by simp [hu])

/-- what does not end in a name is the root or consists of `..` -/
theorem IsFolded.eq_of_no_name {done : List Component} (h : IsFolded done)
    (hname : ∀ s rest, done ≠ .name s :: rest) :
    done = [.root] ∨ ∃ k, done = List.replicate k .parent := by
  have hdone : done = done.reverse.reverse := (List.reverse_reverse done).symm
  unfold IsFolded at h
  generalize done.reverse = cs at h hdone
  cases h with
  | @absolute names h =>
    rcases List.eq_nil_or_concat names with rfl | ⟨before, t, rfl⟩
    · exact .inl hdone
    · exact absurd hdone (by simpa using hname t _)
  | @relative k names h =>
    rcases List.eq_nil_or_concat names with rfl | ⟨before, t, rfl⟩
    · exact .inr ⟨k, by simpa [descent] using hdone⟩
    · exact absurd hdone (by simpa [descent] using hname t _)

theorem isFolded_replicate (k : Nat) : IsFolded (List.replicate k .parent) := by
  unfold IsFolded
  rw [List.reverse_replicate]
  have hnormal := @IsNormal.relative k [] (by simp)
  rwa [descent, List.map_nil, List.append_nil] at hnormal

theorem fold_parent_of_no_name {done : List Component}
    (hname : ∀ s rest, done ≠ .name s :: rest) :
    Component.fold done .parent = if .root ∈ done then done else .parent :: done := by
  cases done with
  | nil => rfl
  | cons d rest =>
    cases d with
    | name s => exact absurd rfl (hname s rest)
    | _ => rfl

theorem IsFolded.fold {done : List Component} (h : IsFolded done) {c : Component} (hc : c.IsStep) :
    IsFolded (Component.fold done c) := by
  cases c with
  | root => exact absurd rfl hc.2.1
  | current => exact absurd rfl hc.2.2
  | name s => exact h.name hc.1
  | parent =>
    by_cases hname : ∃ s rest, done = .name s :: rest
    · obtain ⟨s, rest, rfl⟩ := hname
      exact h.of_name
    · have hname : ∀ s rest, done ≠ .name s :: rest := fun s rest he => hname ⟨s, rest, he⟩
      rw [fold_parent_of_no_name hname]
      rcases h.eq_of_no_name hname with rfl | ⟨k, rfl⟩
      · exact h
      · rw [if_neg (by simp), ← List.replicate_succ]
        exact isFolded_replicate (k + 1)

theorem IsFolded.foldl {done : List Component} (h : IsFolded done) {cs : List Component}
    (hcs : ∀ c ∈ cs, Component.IsStep c) : IsFolded (cs.foldl Component.fold done) := by
  induction cs generalizing done with
  | nil => exact h
  | cons c cs ih =>
    exact ih (h.fold (hcs c List.mem_cons_self)) fun d hd => hcs d (List.mem_cons_of_mem _ hd)

theorem isFolded_root : IsFolded [.root] := @IsNormal.absolute [] (by simp)

theorem isNormal_normalComponents (p : Path) : IsNormal (normalComponents p.components) := by
  obtain ⟨steps, hsteps, ⟨h, -⟩ | ⟨h | h, -⟩⟩ := components_cases p
  · rw [h]
    exact isFolded_root.foldl hsteps
  · rw [h]
    show IsFolded (steps.foldl Component.fold [])
    exact isFolded_nil.foldl hsteps
  · rw [h]
    exact isFolded_nil.foldl hsteps

/-! ## the text of a normal form -/

theorem toList_text_of_isStep {c : Component} (hc : c.IsStep) :
    '/' ∉ c.text.toList ∧ c.text.toList ≠ [] ∧ c.text.toList ≠ ['.'] ∧
      component? c.text.toList = some c := by
  cases c with
  | root => exact absurd rfl hc.2.1
  | current => exact absurd rfl hc.2.2
  | parent => decide
  | name s =>
    obtain ⟨hempty, hslash, hdot, hdots⟩ := hc.1
    have hne : ∀ t : String, s ≠ t → s.toList ≠ t.toList := fun t h he => h (String.toList_inj.mp he)
    refine ⟨hslash, hne "" hempty, hne "." hdot, ?_⟩
    have hplain : ¬(s.toList = [] ∨ s.toList = ['.']) :=
      not_or.mpr ⟨hne "" hempty, hne "." hdot⟩
    have hparent : s.toList ≠ ['.', '.'] := hne ".." hdots
    show component? s.toList = _
    unfold component?
    rw [if_neg hplain, if_neg hparent, String.ofList_toList]

theorem pieces_intercalate_text {cs : List Component} (hcs : ∀ c ∈ cs, Component.IsStep c)
    (hne : cs ≠ []) : pieces ("/".intercalate (cs.map Component.text)).toList =
      cs.map (fun c => c.text.toList) := by
  have hone : ∀ c ∈ cs, pieces c.text.toList = [c.text.toList] := fun c hc =>
    pieces_of_not_mem (toList_text_of_isStep (hcs c hc)).1
  rw [String.toList_intercalate, List.map_map, show "/".toList = ['/'] from rfl,
    pieces_intercalate (fun h => hne (List.map_eq_nil_iff.mp h)), List.flatMap_map]
  show cs.flatMap (fun c => pieces c.text.toList) = _
  rw [List.flatMap_congr hone, List.map_eq_flatMap]

theorem filterMap_pieces_intercalate {cs : List Component}
    (hcs : ∀ c ∈ cs, Component.IsStep c) :
    (pieces ("/".intercalate (cs.map Component.text)).toList).filterMap component? = cs := by
  by_cases hne : cs = []
  · rw [hne]
    rfl
  · rw [pieces_intercalate_text hcs hne, List.filterMap_map]
    refine (List.filterMap_congr fun c hc => ?_).trans List.filterMap_some
    exact (toList_text_of_isStep (hcs c hc)).2.2.2

/-- a text that begins with a step has nothing special in front -/
theorem componentsOf_of_step {cs first : List Char} {rest : List (List Char)}
    (h : pieces cs = first :: rest) (hempty : first ≠ []) (hdot : first ≠ ['.']) :
    componentsOf cs = (pieces cs).filterMap component? := by
  have hrel : cs.head? ≠ some '/' := by
    intro habs
    obtain ⟨more, rfl⟩ := List.head?_eq_some_iff.mp habs
    rw [pieces_slash] at h
    exact hempty (List.cons.inj h).1.symm
  unfold componentsOf
  rw [h]
  simp only
  rw [if_neg hrel, if_neg hdot]

theorem componentsOf_intercalate {cs : List Component} (hcs : ∀ c ∈ cs, Component.IsStep c) :
    componentsOf ("/".intercalate (cs.map Component.text)).toList = cs := by
  cases cs with
  | nil => rfl
  | cons c cs =>
    obtain ⟨-, hempty, hdot, -⟩ := toList_text_of_isStep (hcs c List.mem_cons_self)
    rw [componentsOf_of_step (pieces_intercalate_text hcs (List.cons_ne_nil c cs)) hempty hdot]
    exact filterMap_pieces_intercalate hcs

theorem textOf_of_root_not_mem {cs : List Component} (h : .root ∉ cs) :
    textOf cs = "/".intercalate (cs.map Component.text) := by
  cases cs with
  | nil => rfl
  | cons c cs =>
    cases c with
    | root => exact absurd List.mem_cons_self h
    | _ => rfl

theorem isStep_of_mem_names {names : List String} (h : ∀ s ∈ names, (Component.name s).IsProper)
    {c : Component} (hc : c ∈ names.map Component.name) : c.IsStep := by
  obtain ⟨s, hs, rfl⟩ := List.mem_map.mp hc
  exact Component.isStep_name (h s hs)

theorem isStep_of_mem_descent {k : Nat} {names : List String}
    (h : ∀ s ∈ names, (Component.name s).IsProper) {c : Component} (hc : c ∈ descent k names) :
    c.IsStep := by
  rcases List.mem_append.mp hc with hc | hc
  · rw [List.eq_of_mem_replicate hc]
    exact Component.isStep_parent
  · exact isStep_of_mem_names h hc

theorem components_ofComponents {cs : List Component} (h : IsNormal cs) :
    (ofComponents cs).components = cs := by
  cases h with
  | @absolute names h =>
    show componentsOf ("/" ++ "/".intercalate ((names.map Component.name).map Component.text)).toList
      = _
    rw [String.toList_append, show "/".toList = ['/'] from rfl, List.singleton_append, componentsOf,
      pieces_slash]
    simp only [List.head?_cons, if_true]
    rw [filterMap_pieces_intercalate fun c => isStep_of_mem_names h]
  | @relative k names h =>
    show componentsOf (textOf (descent k names)).toList = _
    rw [textOf_of_root_not_mem (root_not_mem_descent k names),
      componentsOf_intercalate fun c => isStep_of_mem_descent h]

theorem components_normalize (p : Path) : p.normalize.components = normalComponents p.components :=
  components_ofComponents (isNormal_normalComponents p)

theorem normalize_inj {p q : Path} :
    p.normalize = q.normalize ↔ p.normalize.components = q.normalize.components := by
  constructor
  · intro h
    rw [h]
  · intro h
    rw [components_normalize, components_normalize] at h
    rw [normalize, normalize, h]

end Bindle.Path
