import Bindle.Build.Resolve
import Bindle.Proofs.Path.Components

/-!
# Normal forms of joined paths

Normalizing goes through a path from its beginning, so the normal form of a joined path is that of its
first part, from where the walk goes on along the second.

* `origin p`    where the walk along a path begins: at the root, or nowhere in particular;
* `stepsOf p`   all components behind that.

What the first part is normalized to has been walked already (`normalComponents_of_isNormal`).  So it
may be put in its place beforehand, and what a specifier stands for does not depend on how its
directory is spelled (`normalForm_join`).
-/

namespace Bindle.Path

def origin (p : Path) : List Component := if p.isAbsolute then [.root] else []

def stepsOf (p : Path) : List Component := (pieces p.text.toList).filterMap component?

variable {p dir : Path} {specifier : String} {names : List String}

/-! ## walks -/

theorem components_of_isAbsolute (h : p.isAbsolute = true) : p.components = .root :: stepsOf p := by
  obtain ⟨cs, hcs⟩ := List.head?_eq_some_iff.mp (of_decide_eq_true h)
  unfold components componentsOf stepsOf
  rw [hcs, pieces_slash]
  rfl

/-- a relative path may begin with a `.` that stands for nothing -/
theorem components_of_relative (h : p.isAbsolute = false) :
    p.components = stepsOf p ∨ p.components = .current :: stepsOf p := by
  have hhead : p.text.toList.head? ≠ some '/' := of_decide_eq_false h
  obtain ⟨first, rest, hpieces⟩ := List.exists_cons_of_ne_nil (pieces_ne_nil p.text.toList)
  unfold components componentsOf stepsOf
  simp only [hpieces]
  rw [if_neg hhead]
  split
  · rename_i hdot
    rw [hdot]
    exact .inr rfl
  · exact .inl rfl

theorem foldl_components (p : Path) :
    p.components.foldl Component.fold [] = (stepsOf p).foldl Component.fold (origin p) := by
  unfold origin
  cases habs : p.isAbsolute with
  | true =>
    rw [components_of_isAbsolute habs]
    rfl
  | false =>
    rcases components_of_relative habs with h | h
    · rw [h]
      rfl
    · rw [h]
      rfl

theorem foldl_names (names : List String) (done : List Component) :
    (names.map Component.name).foldl Component.fold done =
      (names.map Component.name).reverse ++ done := by
  induction names generalizing done with
  | nil => rfl
  | cons s names ih =>
    show (names.map Component.name).foldl Component.fold (.name s :: done) = _
    rw [ih, List.map_cons, List.reverse_cons, List.append_assoc, List.singleton_append]

/-- `..` takes away nothing but names -/
theorem foldl_parents (k j : Nat) : (List.replicate k Component.parent).foldl Component.fold
    (List.replicate j .parent) = List.replicate (k + j) .parent := by
  induction k generalizing j with
  | zero => rw [Nat.zero_add]; rfl
  | succ k ih =>
    have hup : Component.fold (List.replicate j .parent) .parent = List.replicate (j + 1) .parent := by
      cases j <;> simp [Component.fold, List.replicate_succ]
    rw [List.replicate_succ, List.foldl_cons, hup, ih, Nat.succ_add_eq_add_succ]

theorem normalComponents_names (names : List String) :
    normalComponents (.root :: names.map .name) = .root :: names.map .name := by
  show ((names.map Component.name).foldl Component.fold [.root]).reverse = _
  rw [foldl_names, List.reverse_append, List.reverse_reverse]
  rfl

theorem normalComponents_of_isNormal {cs : List Component} (h : IsNormal cs) :
    normalComponents cs = cs := by
  cases h with
  | @absolute names _ => exact normalComponents_names names
  | @relative k names _ =>
    have hup : (List.replicate k Component.parent).foldl Component.fold [] =
        List.replicate k .parent := foldl_parents k 0
    rw [normalComponents, descent, List.foldl_append, hup, foldl_names, List.reverse_append,
      List.reverse_reverse, List.reverse_replicate]

theorem normalize_normalize (p : Path) : p.normalize.normalize = p.normalize := by
  have hnormal := isNormal_normalComponents p
  rw [normalize_inj, components_normalize, components_normalize,
    normalComponents_of_isNormal hnormal]

/-- the walk along a path has taken it to its normal form -/
theorem foldl_eq_reverse (p : Path) :
    p.components.foldl Component.fold [] = p.normalize.components.reverse := by
  rw [components_normalize, normalComponents, List.reverse_reverse]

/-! ## absolute paths -/

theorem root_not_mem_of_isStep {cs : List Component} (h : ∀ c ∈ cs, Component.IsStep c) :
    .root ∉ cs :=
  fun hroot => (h _ hroot).2.1 rfl

theorem isAbsolute_iff (p : Path) : p.isAbsolute = true ↔ .root ∈ p.components := by
  obtain ⟨steps, hsteps, ⟨h, habs⟩ | ⟨h | h, habs⟩⟩ := components_cases p
  · simp [h, habs]
  · simp [h, habs, root_not_mem_of_isStep hsteps]
  · simp [h, habs, root_not_mem_of_isStep hsteps]

theorem root_mem_fold {done : List Component} {c : Component} (h : .root ∈ done) :
    .root ∈ Component.fold done c := by
  cases c with
  | root => exact List.mem_cons_of_mem _ h
  | current => exact h
  | name s => exact List.mem_cons_of_mem _ h
  | parent =>
    by_cases hname : ∃ s rest, done = .name s :: rest
    · obtain ⟨s, rest, rfl⟩ := hname
      exact (List.mem_cons.mp h).resolve_left (by simp)
    · rw [fold_parent_of_no_name fun s rest he => hname ⟨s, rest, he⟩, if_pos h]
      exact h

theorem root_mem_foldl {done : List Component} (cs : List Component) (h : .root ∈ done) :
    .root ∈ cs.foldl Component.fold done := by
  induction cs generalizing done with
  | nil => exact h
  | cons c cs ih => exact ih (root_mem_fold h)

theorem isAbsolute_normalize {p : Path} (h : p.isAbsolute = true) : .root ∈ p.normalize.components := by
  obtain ⟨steps, -, ⟨hp, -⟩ | ⟨-, habs⟩⟩ := components_cases p
  · rw [components_normalize, hp]
    exact List.mem_reverse.mpr (root_mem_foldl steps List.mem_cons_self)
  · exact absurd (h.symm.trans habs) (by simp)

theorem isNormal_normalize (p : Path) : IsNormal p.normalize.components :=
  components_normalize p ▸ isNormal_normalComponents p

/-! ## joining -/

theorem join_of_isAbsolute (h : (⟨specifier⟩ : Path).isAbsolute = true) :
    dir.join specifier = ⟨specifier⟩ := if_pos (of_decide_eq_true h)

/-- behind a directory stands what a relative specifier leads to, with a slash between them -/
theorem join_of_relative (dir : Path) (h : (⟨specifier⟩ : Path).isAbsolute = false) :
    dir.join specifier = ⟨dir.text ++ specifier⟩ ∧
        (dir.text = "" ∨ dir.text.toList.getLast? = some '/') ∨
      dir.join specifier = ⟨dir.text ++ "/" ++ specifier⟩ ∧ dir.text ≠ "" := by
  unfold join
  rw [if_neg (of_decide_eq_false h)]
  split
  · rename_i hdir
    exact .inl ⟨rfl, hdir⟩
  · rename_i hdir
    exact .inr ⟨rfl, (not_or.mp hdir).1⟩

theorem isAbsolute_append (h : dir.text ≠ "") (more : String) :
    (⟨dir.text ++ more⟩ : Path).isAbsolute = dir.isAbsolute := by
  obtain ⟨c, cs, hcs⟩ := List.exists_cons_of_ne_nil fun he => h (String.toList_eq_nil_iff.mp he)
  unfold isAbsolute
  rw [String.toList_append, hcs]
  rfl

theorem isAbsolute_join_of_relative (h : (⟨specifier⟩ : Path).isAbsolute = false) :
    (dir.join specifier).isAbsolute = dir.isAbsolute := by
  rcases join_of_relative dir h with ⟨hjoin, -⟩ | ⟨hjoin, hdir⟩
  · rw [hjoin]
    by_cases hdir : dir.text = ""
    · have hrelative : dir.isAbsolute = false := by
        rw [isAbsolute, hdir]
        rfl
      rw [hdir, String.empty_append, h, hrelative]
    · exact isAbsolute_append hdir specifier
  · rw [hjoin, String.append_assoc]
    exact isAbsolute_append hdir _

theorem isAbsolute_join (h : dir.isAbsolute = true) (specifier : String) :
    (dir.join specifier).isAbsolute = true := by
  cases hspecifier : (⟨specifier⟩ : Path).isAbsolute with
  | true => rw [join_of_isAbsolute hspecifier, hspecifier]
  | false => rw [isAbsolute_join_of_relative hspecifier, h]

theorem stepsOf_join (h : (⟨specifier⟩ : Path).isAbsolute = false) :
    stepsOf (dir.join specifier) = stepsOf dir ++ stepsOf ⟨specifier⟩ := by
  unfold stepsOf
  rcases join_of_relative dir h with ⟨hjoin, hdir | hlast⟩ | ⟨hjoin, -⟩
  · rw [hjoin, hdir, String.empty_append]
    rfl
  · obtain ⟨before, hbefore⟩ := List.getLast?_eq_some_iff.mp hlast
    rw [hjoin, String.toList_append, hbefore, List.append_assoc, List.singleton_append,
      pieces_append_slash, pieces_append_slash, List.filterMap_append, List.filterMap_append]
    show _ = _ ++ [] ++ _
    rw [List.append_nil]
  · rw [hjoin, String.toList_append, String.toList_append, List.append_assoc]
    show (pieces (dir.text.toList ++ '/' :: specifier.toList)).filterMap component? = _
    rw [pieces_append_slash, List.filterMap_append]

theorem origin_join (h : (⟨specifier⟩ : Path).isAbsolute = false) :
    origin (dir.join specifier) = origin dir := by
  unfold origin
  rw [isAbsolute_join_of_relative h]

/-- a walk along a joined path goes on where the first part has led to -/
theorem foldl_join (h : (⟨specifier⟩ : Path).isAbsolute = false) :
    (dir.join specifier).components.foldl Component.fold [] =
      (stepsOf ⟨specifier⟩).foldl Component.fold (dir.components.foldl Component.fold []) := by
  rw [foldl_components, foldl_components dir, origin_join h, stepsOf_join h, List.foldl_append]

/-- a directory may be normalized beforehand -/
theorem normalize_join_normalize (dir : Path) (specifier : String) :
    (dir.normalize.join specifier).normalize = (dir.join specifier).normalize := by
  cases h : (⟨specifier⟩ : Path).isAbsolute with
  | true => rw [join_of_isAbsolute h, join_of_isAbsolute h]
  | false =>
    have hwalked : dir.normalize.components.foldl Component.fold [] =
        dir.components.foldl Component.fold [] := by
      rw [foldl_eq_reverse, foldl_eq_reverse, normalize_normalize]
    refine congrArg (fun done : List Component => ofComponents done.reverse) ?_
    rw [foldl_join h, foldl_join h, hwalked]

/-! ## what normal forms look like -/

theorem dot_not_mem_pieces {cs : List Component} (hcs : ∀ c ∈ cs, Component.IsStep c) :
    ['.'] ∉ pieces ("/".intercalate (cs.map Component.text)).toList := by
  by_cases hne : cs = []
  · rw [hne]
    decide
  · rw [pieces_intercalate_text hcs hne, List.mem_map]
    rintro ⟨c, hc, hdot⟩
    exact (toList_text_of_isStep (hcs c hc)).2.2.1 hdot

theorem IsNormal.dot_not_mem {cs : List Component} (h : IsNormal cs) :
    ['.'] ∉ pieces (ofComponents cs).text.toList := by
  cases h with
  | @absolute names h =>
    show ['.'] ∉ pieces ("/" ++ "/".intercalate ((names.map .name).map Component.text)).toList
    rw [String.toList_append, show "/".toList = ['/'] from rfl, List.singleton_append, pieces_slash,
      List.mem_cons, not_or]
    exact ⟨by decide, dot_not_mem_pieces fun c => isStep_of_mem_names h⟩
  | @relative k names h =>
    rw [ofComponents, textOf_of_root_not_mem (root_not_mem_descent k names)]
    exact dot_not_mem_pieces fun c => isStep_of_mem_descent h

theorem IsNormal.current_not_mem {cs : List Component} (h : IsNormal cs) : .current ∉ cs := by
  cases h with
  | absolute => simp
  | relative => simp [descent]

theorem IsNormal.parents_first {cs : List Component} (h : IsNormal cs) :
    (.root ∈ cs → .parent ∉ cs) ∧
      ∃ k rest, cs = List.replicate k .parent ++ rest ∧ .parent ∉ rest := by
  cases h with
  | @absolute names _ =>
    have hnames : Component.parent ∉ .root :: names.map .name := by simp
    exact ⟨fun _ => hnames, 0, _, rfl, hnames⟩
  | @relative k names _ =>
    have hnames : Component.parent ∉ names.map .name := by simp
    exact ⟨fun hroot => absurd hroot (root_not_mem_descent k names), k, _, rfl, hnames⟩

/-- **Normal forms, and paths that go on from them.**  A directory may be put in normal form before a
path goes on from it.  So normalizing twice is normalizing once, and spellings of one directory lead
specifiers to the same paths.  A normal form has no `.`, no `..` below a root, and else all `..` at
its beginning. -/
theorem normalForm_join (p : Path) :
    (∀ q : Path, (p.normalize.join q.text).normalize = (p.join q.text).normalize) ∧
      p.normalize.normalize = p.normalize ∧
      (∀ extensions specifier dir, dir.normalize = p.normalize →
        candidates extensions dir specifier = candidates extensions p specifier) ∧
      ['.'] ∉ pieces p.normalize.text.toList ∧ .current ∉ p.normalize.components ∧
      (p.normalize.isAbsolute = true → .parent ∉ p.normalize.components) ∧
      ∃ k rest, p.normalize.components = List.replicate k .parent ++ rest ∧ .parent ∉ rest := by
  have hnormal := isNormal_normalize p
  obtain ⟨hroot, hparents⟩ := hnormal.parents_first
  refine ⟨fun q => normalize_join_normalize p q.text, normalize_normalize p, ?_, ?_,
    hnormal.current_not_mem, fun habs => hroot ((isAbsolute_iff _).mp habs), hparents⟩
  · intro extensions specifier dir hdir
    have hplain : (dir.join specifier).normalize = (p.join specifier).normalize := by
      rw [← normalize_join_normalize dir, hdir, normalize_join_normalize]
    rw [candidates, hplain, candidates]
  · exact (isNormal_normalComponents p).dot_not_mem

/-- a name that `..` folds away at the end of the first part takes none of the second with it -/
example : ((⟨"x/.."⟩ : Path).normalize.join "../y").normalize = ⟨"../y"⟩ := by decide +kernel

end Bindle.Path
