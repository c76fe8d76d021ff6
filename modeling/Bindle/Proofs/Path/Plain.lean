import Bindle.Proofs.Path.Ids

/-!
# Plain paths

A path is plain if its text is that of an absolute path in normal form: a slash, and names with
slashes between them.  Plain paths are told apart by their components, by their ids and by their
place in an ordered list.

* `rooted names`   the path that leads down from the root by `names`;
* `below names`    the names with a slash before each, which is the text of this path.

A build meets plain paths only (`isPlain_of_mem_candidates`), unless an extension has a slash or
stands for a directory.  Any absolute path is found again, as a plain one, from the root and its id
(`normalize_join_ofPath`).
-/

namespace Bindle.Path

def rooted (names : List String) : Path := ofComponents (.root :: names.map .name)

def below (names : List String) : List Char := names.flatMap (fun s => '/' :: s.toList)

def IsPlain (p : Path) : Prop :=
  ∃ names : List String, (∀ s ∈ names, (Component.name s).IsProper) ∧ p = rooted names

variable {p q base : Path} {names : List String}

/-! ## texts -/

theorem toList_text_rooted (h : names ≠ []) : (rooted names).text.toList = below names := by
  show ("/" ++ "/".intercalate ((names.map Component.name).map Component.text)).toList = _
  rw [String.toList_append, String.toList_intercalate, List.map_map, List.map_map]
  show '/' :: List.intercalate ['/'] (names.map String.toList) = _
  induction names with
  | nil => exact absurd rfl h
  | cons s names ih =>
    cases names with
    | nil => simp [below, List.intercalate]
    | cons t names =>
      rw [List.map_cons, List.map_cons, List.intercalate_cons_cons, ← List.map_cons,
        List.append_assoc, List.singleton_append, ih (List.cons_ne_nil t names)]
      rfl

theorem below_append (names more : List String) :
    below (names ++ more) = below names ++ below more := List.flatMap_append

/-- a text goes on in its last name -/
theorem below_concat_append (names : List String) (s e : String) :
    below (names ++ [s]) ++ e.toList = below (names ++ [s ++ e]) := by
  rw [below_append, below_append, List.append_assoc]
  simp [below]

/-! ## components -/

theorem components_rooted (h : ∀ s ∈ names, (Component.name s).IsProper) :
    (rooted names).components = .root :: names.map .name := components_ofComponents (.absolute h)

theorem IsPlain.exists_components (h : p.IsPlain) : ∃ names : List String,
    (∀ s ∈ names, (Component.name s).IsProper) ∧ p.components = .root :: names.map .name ∧
      p = ofComponents p.components := by
  obtain ⟨names, hnames, rfl⟩ := h
  have hcomponents := components_rooted hnames
  exact ⟨names, hnames, hcomponents, by rw [hcomponents]; rfl⟩

/-- plain paths are known by their components -/
theorem IsPlain.eq_of_components (hp : p.IsPlain) (hq : q.IsPlain)
    (h : p.components = q.components) : p = q := by
  obtain ⟨-, -, -, hp⟩ := hp.exists_components
  obtain ⟨-, -, -, hq⟩ := hq.exists_components
  rw [hp, hq, h]

theorem IsPlain.normalize_eq (h : p.IsPlain) : p.normalize = p := by
  obtain ⟨names, -, hcomponents, hp⟩ := h.exists_components
  rw [normalize, hcomponents, normalComponents_names, ← hcomponents, ← hp]

theorem IsPlain.isAbsolute (h : p.IsPlain) : p.isAbsolute = true := by
  obtain ⟨names, -, hcomponents, -⟩ := h.exists_components
  rw [isAbsolute_iff, hcomponents]
  exact List.mem_cons_self

theorem isPlain_normalize (h : p.isAbsolute = true) : p.normalize.IsPlain := by
  have hroot := isAbsolute_normalize h
  have hnormal := isNormal_normalComponents p
  rw [components_normalize] at hroot
  rw [normalize]
  generalize normalComponents p.components = cs at hroot hnormal
  cases hnormal with
  | @absolute names hnames => exact ⟨names, hnames, rfl⟩
  | @relative k names _ => exact absurd hroot (root_not_mem_descent k names)

/-! ## ids -/

/-- files below and beside an absolute root are told apart by their ids -/
theorem IsPlain.eq_of_id {root : Path} (hroot : root.isAbsolute = true) (hp : p.IsPlain)
    (hq : q.IsPlain) (h : ModuleId.ofPath root p = ModuleId.ofPath root q) : p = q := by
  have hbase := isAbsolute_normalize hroot
  rw [← hp.normalize_eq, normalize_eq_of_ofPath_eq (.inl hbase) (.inl hbase) h, hq.normalize_eq]

theorem Component.eq_of_rank {c d : Component} (hrank : c.rank = d.rank) (htext : c.text = d.text) :
    c = d := by
  cases c <;> cases d <;> first | rfl | exact congrArg Component.name htext | cases hrank

theorem Component.eq_of_compare {c d : Component} (h : c.compare d = .eq) : c = d := by
  unfold Component.compare at h
  split at h
  · rename_i hrank
    exact Component.eq_of_rank (Nat.compare_eq_eq.mp hrank) (Std.LawfulEqOrd.eq_of_compare h)
  · rename_i hrank
    exact absurd h hrank

theorem eq_of_compareComponents {cs ds : List Component} (h : compareComponents cs ds = .eq) :
    cs = ds := by
  induction cs generalizing ds with
  | nil =>
    cases ds with
    | nil => rfl
    | cons d ds => cases h
  | cons c cs ih =>
    cases ds with
    | nil => cases h
    | cons d ds =>
      unfold compareComponents at h
      split at h
      · rename_i hcd
        rw [Component.eq_of_compare hcd, ih h]
      · rename_i hcd
        exact absurd h hcd

/-! ## directories and candidates -/

/-- the directory of a path has all its components but the last, which is not the root -/
theorem components_parent? (h : p.parent? = some q) :
    q.components = p.components.dropLast ∧ p.components.getLast? ≠ some .root := by
  unfold parent? at h
  split at h
  · cases h
  · cases h
  · rename_i hroot hlast
    obtain ⟨cs, hfind, rfl⟩ := Option.map_eq_some_iff.mp h
    have hcs := List.find?_some hfind
    refine ⟨?_, fun he => hroot (Option.some.inj (hlast.symm.trans he))⟩
    show componentsOf (String.ofList cs).toList = _
    rw [String.toList_ofList]
    exact beq_iff_eq.mp hcs

theorem isAbsolute_parent? (h : p.isAbsolute = true) (hq : p.parent? = some q) :
    q.isAbsolute = true := by
  obtain ⟨hcomponents, hlast⟩ := components_parent? hq
  obtain ⟨steps, hsteps, ⟨hp, -⟩ | ⟨-, habs⟩⟩ := components_cases p
  · rw [hp] at hcomponents hlast
    rw [isAbsolute_iff, hcomponents]
    cases steps with
    | nil => exact absurd rfl hlast
    | cons c steps => exact List.mem_cons_self
  · exact absurd (h.symm.trans habs) (by simp)

/-- the directory that specifiers of a file are followed from -/
theorem isAbsolute_directory {root : Path} (hroot : root.isAbsolute = true)
    (hp : p.isAbsolute = true) : (p.parent?.getD root).isAbsolute = true := by
  cases hparent : p.parent? with
  | none => exact hroot
  | some d => exact isAbsolute_parent? hp hparent

/-- no slash, and nothing that names a directory by dots -/
def IsSuffix (extension : String) : Prop :=
  '/' ∉ extension.toList ∧ extension ≠ "." ∧ extension ≠ ".."

theorem isProper_append {s e : String} (hs : (Component.name s).IsProper) (he : '/' ∉ e.toList) :
    (Component.name (s ++ e)).IsProper := by
  obtain ⟨hempty, hslash, hdot, hdots⟩ := hs
  have hlist : ∀ t u : String, t = u ↔ t.toList = u.toList := fun _ _ => String.toList_inj.symm
  simp only [Component.IsProper, Ne, hlist, String.toList_append] at hempty hdot hdots ⊢
  generalize s.toList = cs at hempty hslash hdot hdots ⊢
  refine ⟨fun h => hempty (List.append_eq_nil_iff.mp h).1, fun h => ?_, fun h => ?_, fun h => ?_⟩
  · exact (List.mem_append.mp h).elim hslash he
  · rcases List.append_eq_singleton_iff.mp h with ⟨h, -⟩ | ⟨h, -⟩
    · exact hempty h
    · exact hdot h
  · rcases List.append_eq_cons_iff.mp h with ⟨h, -⟩ | ⟨more, h, hmore⟩
    · exact hempty h
    · rcases List.append_eq_singleton_iff.mp hmore.symm with ⟨rfl, -⟩ | ⟨rfl, -⟩
      · exact hdot h
      · exact hdots h

theorem IsPlain.append {e : String} (hp : p.IsPlain) (he : IsSuffix e) :
    (⟨p.text ++ e⟩ : Path).IsPlain := by
  obtain ⟨names, hnames, rfl⟩ := hp
  rcases List.eq_nil_or_concat names with rfl | ⟨before, s, rfl⟩
  · by_cases hempty : e = ""
    · refine ⟨[], hnames, ?_⟩
      rw [hempty, String.append_empty]
    · refine ⟨[e], fun t ht => ?_, ?_⟩
      · rw [List.mem_singleton.mp ht]
        exact ⟨hempty, he⟩
      · show (⟨"/" ++ "" ++ e⟩ : Path) = ⟨"/" ++ "/".intercalate [e]⟩
        rw [String.append_empty]
        rfl
  · rw [List.concat_eq_append] at hnames ⊢
    have hne : ∀ t : String, before ++ [t] ≠ [] := fun t =>
      List.append_ne_nil_of_right_ne_nil before (List.cons_ne_nil t [])
    refine ⟨before ++ [s ++ e], fun t ht => ?_, congrArg Path.mk ?_⟩
    · rcases List.mem_append.mp ht with ht | ht
      · exact hnames t (List.mem_append_left _ ht)
      · rw [List.mem_singleton.mp ht]
        exact isProper_append (hnames s (List.mem_append_right _ List.mem_cons_self)) he.1
    · show _ = (rooted (before ++ [s ++ e])).text
      rw [← String.toList_inj, String.toList_append, toList_text_rooted (hne s),
        toList_text_rooted (hne (s ++ e)), below_concat_append]

theorem isPlain_of_mem_candidates {extensions : List String} (hbase : base.isAbsolute = true)
    (he : ∀ e ∈ extensions, IsSuffix e) {specifier : String}
    (hp : p ∈ candidates extensions base specifier) : p.IsPlain := by
  have hplain : (base.join specifier).normalize.IsPlain :=
    isPlain_normalize (isAbsolute_join hbase specifier)
  rcases List.mem_cons.mp hp with rfl | hp
  · exact hplain
  · obtain ⟨e, hmem, rfl⟩ := List.mem_map.mp hp
    exact hplain.append (he e hmem)

end Bindle.Path
