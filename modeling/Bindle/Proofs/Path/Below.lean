import Bindle.Proofs.Path.Plain

/-!
# Paths below a directory

A path below an absolute directory is known by the names that lead to it from there.  The directory
itself plays no part in how specifiers are followed that stay below it, in ids and in the order of
paths.

* `IsHome`              the directories that a project is moved from and to;
* `LiesBelow r p`       names lead down from `r` to `p`;
* `move r r' p`         `p` with `r'` in the place of its beginning `r`;
* `Stays r d text`      the specifier `text` does not lead above `r` on the way from `d`;
* `Beside r r' d d'`    the same names lead from `r` to `d` and from `r'` to `d'`.
-/

namespace Bindle.Path

/-- an absolute path in normal form which is not the root -/
structure IsHome (r : Path) : Prop where
  absolute : r.isAbsolute = true
  normal : r.normalize = r
  ne_root : r.text ≠ "/"
  unix : '\\' ∉ r.text.toList

/-- a walk from a place `depth` steps below a directory never leaves the directory -/
def staysBelow : Nat → List Component → Bool
  | _, [] => true
  | depth, .name _ :: cs => staysBelow (depth + 1) cs
  | depth, .current :: cs => staysBelow depth cs
  | 0, .parent :: _ => false
  | depth + 1, .parent :: cs => staysBelow depth cs
  | _, .root :: _ => false

/-- the walk of `specifier` from `directory`, which is not above `root`, never leads above `root` -/
def Stays (root directory : Path) (specifier : String) : Prop :=
  staysBelow (directory.components.length - root.components.length)
    (⟨specifier⟩ : Path).components = true

instance (root directory : Path) (specifier : String) :
    Decidable (Stays root directory specifier) := inferInstanceAs (Decidable (_ = true))

def LiesBelow (r p : Path) : Prop :=
  ∃ names : List String, names ≠ [] ∧ (∀ s ∈ names, (Component.name s).IsProper) ∧
    p.text = r.text ++ String.ofList (below names)

def Beside (r r' d d' : Path) : Prop :=
  ∃ names : List String, (∀ s ∈ names, (Component.name s).IsProper) ∧
    d.components = r.components ++ names.map .name ∧
    d'.components = r'.components ++ names.map .name

def move (r r' p : Path) : Path :=
  ⟨r'.text ++ String.ofList (p.text.toList.drop r.text.toList.length)⟩

variable {names more rs rs' ds : List String} {p q dir : Path} {specifier : String}

/-! ## texts -/

theorem text_rooted_append (h : names ≠ []) (more : List String) :
    (rooted (names ++ more)).text = (rooted names).text ++ String.ofList (below more) := by
  rw [← String.toList_inj, String.toList_append, toList_text_rooted h,
    toList_text_rooted (List.append_ne_nil_of_left_ne_nil h more), below_append,
    String.toList_ofList]

theorem move_of_text {r r' : Path} {t : String} (h : p.text = r.text ++ t) :
    move r r' p = ⟨r'.text ++ t⟩ := by
  rw [move, h, String.toList_append, List.drop_left, String.ofList_toList]

/-! ## components -/

theorem isAbsolute_of_staysBelow {depth : Nat} (h : staysBelow depth p.components = true) :
    p.isAbsolute = false := by
  obtain ⟨steps, -, ⟨hp, -⟩ | ⟨-, habs⟩⟩ := components_cases p
  · rw [hp, staysBelow] at h
    cases h
  · exact habs

theorem components_join (hdir : dir.isAbsolute = true)
    (h : (⟨specifier⟩ : Path).isAbsolute = false) :
    (dir.join specifier).components = dir.components ++ stepsOf ⟨specifier⟩ := by
  rw [components_of_isAbsolute (isAbsolute_join hdir specifier), components_of_isAbsolute hdir,
    stepsOf_join h, List.cons_append]

/-! ## walks -/

/-- a walk that stays below a directory does not depend on what lies above -/
theorem foldl_of_staysBelow {cs : List Component} {done : List String}
    (hcs : ∀ c ∈ cs, Component.IsProper c) (hdone : ∀ s ∈ done, (Component.name s).IsProper)
    (h : staysBelow done.length cs = true) :
    ∃ done' : List String, (∀ s ∈ done', (Component.name s).IsProper) ∧ ∀ above,
      cs.foldl Component.fold (done.map .name ++ above) = done'.map .name ++ above := by
  -- `..` only takes names that stand below the directory, so nothing above is looked at
  induction cs generalizing done with
  | nil => exact ⟨done, hdone, fun _ => rfl⟩
  | cons c cs ih =>
    obtain ⟨hc, hrest⟩ := List.forall_mem_cons.mp hcs
    cases c with
    | root =>
      rw [staysBelow] at h
      cases h
    | current =>
      rw [staysBelow] at h
      exact ih hrest hdone h
    | name s =>
      rw [staysBelow] at h
      have hnames : ∀ t ∈ s :: done, (Component.name t).IsProper :=
        List.forall_mem_cons.mpr ⟨hc, hdone⟩
      exact ih hrest hnames h
    | parent =>
      cases done with
      | nil => cases h
      | cons s done => exact ih hrest (List.forall_mem_cons.mp hdone).2 h

theorem staysBelow_current {depth : Nat} {cs : List Component} :
    staysBelow depth (.current :: cs) = staysBelow depth cs := by rw [staysBelow]

/-- **What a specifier leads to below a directory**, wherever the directory is -/
theorem exists_normalize_join (hds : ∀ s ∈ ds, (Component.name s).IsProper)
    (h : staysBelow ds.length (⟨specifier⟩ : Path).components = true) :
    ∃ ts : List String, (∀ s ∈ ts, (Component.name s).IsProper) ∧
      ∀ (rs : List String) (dir : Path), dir.components = .root :: (rs ++ ds).map .name →
        (dir.join specifier).normalize = rooted (rs ++ ts) := by
  have hrelative := isAbsolute_of_staysBelow h
  have hsteps : staysBelow ds.length (stepsOf ⟨specifier⟩) = true := by
    rcases components_of_relative hrelative with hs | hs
    · rwa [hs] at h
    · rwa [hs, staysBelow_current] at h
  have hproper : ∀ c ∈ stepsOf ⟨specifier⟩, Component.IsProper c :=
    fun c hc => (isStep_of_mem_filterMap (fun _ => not_mem_of_mem_pieces) hc).1
  rw [← List.length_reverse] at hsteps
  obtain ⟨done, hnames, hdone⟩ :=
    foldl_of_staysBelow hproper (fun s hs => hds s (List.mem_reverse.mp hs)) hsteps
  refine ⟨done.reverse, fun s hs => hnames s (List.mem_reverse.mp hs), fun rs dir hdir => ?_⟩
  have hstart : dir.components.foldl Component.fold [] =
      ds.reverse.map .name ++ ((rs.map .name).reverse ++ [.root]) := by
    rw [hdir, List.foldl_cons]
    show ((rs ++ ds).map Component.name).foldl Component.fold [.root] = _
    rw [foldl_names, List.map_append, List.reverse_append, List.map_reverse, List.append_assoc]
  rw [normalize, normalComponents, foldl_join hrelative, hstart, hdone]
  simp [rooted]

/-! ## directories -/

theorem mem_beginnings {α : Type} {as bs : List α} (h : as <+: bs) : as ∈ beginnings bs := by
  induction bs generalizing as with
  | nil =>
    rw [List.prefix_nil.mp h]
    exact List.mem_cons_self
  | cons b bs ih =>
    rcases List.prefix_cons_iff.mp h with rfl | ⟨as, rfl, has⟩
    · exact List.mem_cons_self
    · exact List.mem_cons_of_mem _ (List.mem_map_of_mem (ih has))

theorem exists_parent? {s : String} (hne : names ≠ [])
    (h : ∀ t ∈ names ++ [s], (Component.name t).IsProper) :
    ∃ d, (rooted (names ++ [s])).parent? = some d ∧ d.components = .root :: names.map .name := by
  have hcomponents : (rooted (names ++ [s])).components =
      .root :: names.map .name ++ [.name s] := by
    rw [components_rooted h, List.map_append]
    rfl
  have hnames := components_rooted (List.forall_mem_append.mp h).1
  have hbeginning :
      (rooted names).text.toList ∈ beginnings (rooted (names ++ [s])).text.toList := by
    refine mem_beginnings ?_
    rw [text_rooted_append hne, String.toList_append]
    exact List.prefix_append _ _
  have hsome : ∃ d, (rooted (names ++ [s])).parent? = some d := by
    unfold parent?
    rw [hcomponents, List.getLast?_concat, List.dropLast_concat]
    simp only [← Option.isSome_iff_exists, Option.isSome_map]
    exact List.find?_isSome.mpr ⟨_, hbeginning, beq_iff_eq.mpr hnames⟩
  obtain ⟨d, hd⟩ := hsome
  refine ⟨d, hd, ?_⟩
  rw [(components_parent? hd).1, hcomponents, List.dropLast_concat]

/-! ## ids -/

theorem withoutCommon_append (as bs : List Component) : withoutCommon as (as ++ bs) = ([], bs) := by
  induction as with
  | nil => cases bs <;> rfl
  | cons a as ih => rw [List.cons_append, withoutCommon_cons_self, ih]

/-- an id has the way from the project down to the file, and nothing else -/
theorem ofPath_rooted (h : ∀ s ∈ rs ++ more, (Component.name s).IsProper) :
    ModuleId.ofPath (rooted rs) (rooted (rs ++ more)) = ⟨"./" ++ "/".intercalate more⟩ := by
  have hrs := (List.forall_mem_append.mp h).1
  have hroot : (rooted rs).normalize = rooted rs := IsPlain.normalize_eq ⟨rs, hrs, rfl⟩
  have hpath : (rooted (rs ++ more)).normalize = rooted (rs ++ more) :=
    IsPlain.normalize_eq ⟨rs ++ more, h, rfl⟩
  rw [ModuleId.ofPath, hroot, hpath, relative, stepsBetween_eq, components_rooted hrs,
    components_rooted h, List.map_append, ← List.cons_append, way, withoutCommon_append]
  show (⟨"./" ++ "/".intercalate ((more.map Component.name).map Component.text)⟩ : ModuleId) = _
  rw [List.map_map]
  show (⟨"./" ++ "/".intercalate (more.map id)⟩ : ModuleId) = _
  rw [List.map_id]

/-! ## order -/

theorem Component.compare_self (c : Component) : c.compare c = .eq := by
  unfold Component.compare
  rw [Nat.compare_eq_eq.mpr rfl]
  exact Std.ReflOrd.compare_self

theorem compareComponents_append (as bs cs : List Component) :
    compareComponents (as ++ bs) (as ++ cs) = compareComponents bs cs := by
  induction as with
  | nil => rfl
  | cons a as ih =>
    rw [List.cons_append, List.cons_append, compareComponents, Component.compare_self]
    exact ih

/-! ## homes -/

theorem IsHome.exists_names {r : Path} (h : r.IsHome) : ∃ names : List String, names ≠ [] ∧
    (∀ s ∈ names, (Component.name s).IsProper) ∧ r = rooted names := by
  obtain ⟨names, hnames, hr⟩ := isPlain_normalize h.absolute
  rw [h.normal] at hr
  refine ⟨names, ?_, hnames, hr⟩
  rintro rfl
  exact h.ne_root (congrArg Path.text hr)

theorem IsHome.getLast?_ne {r : Path} (h : r.IsHome) : r.text.toList.getLast? ≠ some '/' := by
  obtain ⟨names, hne, hnames, rfl⟩ := h.exists_names
  obtain ⟨before, s, rfl⟩ := (List.eq_nil_or_concat names).resolve_left hne
  obtain ⟨hempty, hslash, -⟩ := hnames s (by simp)
  have hs : s.toList ≠ [] := fun he => hempty (String.toList_eq_nil_iff.mp he)
  rw [toList_text_rooted hne, List.concat_eq_append, below_append]
  show (below before ++ ('/' :: s.toList ++ [])).getLast? ≠ _
  rw [List.append_nil, List.getLast?_append_of_ne_nil _ (List.cons_ne_nil _ _),
    List.getLast?_cons_of_ne_nil hs]
  exact fun hlast => hslash (List.mem_of_getLast? hlast)

theorem liesBelow_rooted (h : rs ≠ []) : LiesBelow (rooted rs) p ↔ ∃ names : List String,
    names ≠ [] ∧ (∀ s ∈ names, (Component.name s).IsProper) ∧ p = rooted (rs ++ names) := by
  refine exists_congr fun names => and_congr_right fun _ => and_congr_right fun _ => ?_
  rw [← text_rooted_append h]
  exact ⟨fun hp => congrArg Path.mk hp, fun hp => congrArg Path.text hp⟩

theorem move_rooted (h : rs ≠ []) (h' : rs' ≠ []) (names : List String) :
    move (rooted rs) (rooted rs') (rooted (rs ++ names)) = rooted (rs' ++ names) := by
  rw [move_of_text (text_rooted_append h names), ← text_rooted_append h' names]

section

variable {r r' d d' : Path}

theorem beside_self (r r' : Path) : Beside r r' r r' :=
  ⟨[], fun _ hs => absurd hs List.not_mem_nil, (List.append_nil _).symm, (List.append_nil _).symm⟩

theorem LiesBelow.exists_text (h : LiesBelow r p) :
    ∃ t, p.text = r.text ++ "/" ++ t ∧ (move r r' p).text = r'.text ++ "/" ++ t := by
  obtain ⟨names, hne, -, hp⟩ := h
  obtain ⟨s, names, rfl⟩ := List.exists_cons_of_ne_nil hne
  have hbelow : String.ofList (below (s :: names)) =
      "/" ++ String.ofList (s.toList ++ below names) := by
    show String.ofList (['/'] ++ (s.toList ++ below names)) = _
    rw [String.ofList_append]
  rw [hbelow, ← String.append_assoc] at hp
  have hmove : move r r' p = ⟨r'.text ++ ("/" ++ String.ofList (s.toList ++ below names))⟩ :=
    move_of_text (by rw [hp, String.append_assoc])
  refine ⟨_, hp, ?_⟩
  rw [hmove, String.append_assoc]

/-- the last name may be a longer one -/
theorem liesBelow_append (hne : names ≠ []) (h : ∀ s ∈ names, (Component.name s).IsProper)
    {e : String} (he : '/' ∉ e.toList) (hp : p.text = r.text ++ String.ofList (below names) ++ e) :
    LiesBelow r p := by
  obtain ⟨before, s, rfl⟩ := (List.eq_nil_or_concat names).resolve_left hne
  rw [List.concat_eq_append] at h hp
  obtain ⟨hbefore, hs⟩ := List.forall_mem_append.mp h
  refine ⟨before ++ [s ++ e], List.append_ne_nil_of_right_ne_nil _ (List.cons_ne_nil _ _), ?_, ?_⟩
  · refine List.forall_mem_append.mpr ⟨hbefore, fun t ht => ?_⟩
    rw [List.mem_singleton.mp ht]
    exact isProper_append (hs s List.mem_cons_self) he
  · rw [hp, String.append_assoc, ← below_concat_append, String.ofList_append, String.ofList_toList]

variable (hr : r.IsHome) (hr' : r'.IsHome)

include hr

theorem IsHome.isPlain (h : LiesBelow r p) : p.IsPlain := by
  obtain ⟨rs, hne, hrs, rfl⟩ := hr.exists_names
  obtain ⟨names, -, hnames, hp⟩ := (liesBelow_rooted hne).mp h
  exact ⟨rs ++ names, List.forall_mem_append.mpr ⟨hrs, hnames⟩, hp⟩

include hr'

/-- **Ids do not tell where a project lives.** -/
theorem ofPath_move (h : LiesBelow r p) :
    ModuleId.ofPath r' (move r r' p) = ModuleId.ofPath r p := by
  obtain ⟨rs, hne, hrs, rfl⟩ := hr.exists_names
  obtain ⟨rs', hne', hrs', rfl⟩ := hr'.exists_names
  obtain ⟨names, -, hnames, rfl⟩ := (liesBelow_rooted hne).mp h
  rw [move_rooted hne hne', ofPath_rooted (List.forall_mem_append.mpr ⟨hrs, hnames⟩),
    ofPath_rooted (List.forall_mem_append.mpr ⟨hrs', hnames⟩)]

theorem beside_parent (h : LiesBelow r p) :
    Beside r r' (p.parent?.getD r) ((move r r' p).parent?.getD r') := by
  obtain ⟨rs, hne, hrs, rfl⟩ := hr.exists_names
  obtain ⟨rs', hne', hrs', rfl⟩ := hr'.exists_names
  obtain ⟨names, hnames_ne, hnames, rfl⟩ := (liesBelow_rooted hne).mp h
  obtain ⟨before, s, rfl⟩ := (List.eq_nil_or_concat names).resolve_left hnames_ne
  rw [List.concat_eq_append] at hnames ⊢
  rw [move_rooted hne hne', ← List.append_assoc, ← List.append_assoc]
  have hbefore := (List.forall_mem_append.mp hnames).1
  obtain ⟨d, hd, hcomponents⟩ := exists_parent? (s := s)
    (List.append_ne_nil_of_left_ne_nil hne before)
    (by rw [List.append_assoc]; exact List.forall_mem_append.mpr ⟨hrs, hnames⟩)
  obtain ⟨d', hd', hcomponents'⟩ := exists_parent? (s := s)
    (List.append_ne_nil_of_left_ne_nil hne' before)
    (by rw [List.append_assoc]; exact List.forall_mem_append.mpr ⟨hrs', hnames⟩)
  rw [hd, hd']
  refine ⟨before, hbefore, ?_, ?_⟩
  · rw [components_rooted hrs, List.cons_append, ← List.map_append]
    exact hcomponents
  · rw [components_rooted hrs', List.cons_append, ← List.map_append]
    exact hcomponents'

/-- what a specifier leads to below one home it leads to below the other -/
theorem exists_normalize_beside (h : Beside r r' d d') (hstays : Stays r d specifier) :
    ∃ names : List String, (∀ s ∈ names, (Component.name s).IsProper) ∧
      (d.join specifier).normalize.text = r.text ++ String.ofList (below names) ∧
      (d'.join specifier).normalize.text = r'.text ++ String.ofList (below names) := by
  obtain ⟨rs, hne, hrs, rfl⟩ := hr.exists_names
  obtain ⟨rs', hne', hrs', rfl⟩ := hr'.exists_names
  obtain ⟨ds, hds, hd, hd'⟩ := h
  rw [components_rooted hrs, List.cons_append, ← List.map_append] at hd
  rw [components_rooted hrs', List.cons_append, ← List.map_append] at hd'
  have hdepth : d.components.length - (rooted rs).components.length = ds.length := by
    rw [hd, components_rooted hrs, List.length_cons, List.length_cons, List.length_map,
      List.length_map, List.length_append]
    omega
  rw [Stays, hdepth] at hstays
  obtain ⟨names, hnames, hjoin⟩ := exists_normalize_join hds hstays
  refine ⟨names, hnames, ?_, ?_⟩
  · rw [hjoin rs d hd, text_rooted_append hne]
  · rw [hjoin rs' d' hd', text_rooted_append hne']

theorem compare_move (hp : LiesBelow r p) (hq : LiesBelow r q) :
    (move r r' p).compare (move r r' q) = p.compare q := by
  obtain ⟨rs, hne, hrs, rfl⟩ := hr.exists_names
  obtain ⟨rs', hne', hrs', rfl⟩ := hr'.exists_names
  obtain ⟨names, -, hnames, rfl⟩ := (liesBelow_rooted hne).mp hp
  obtain ⟨names', -, hnames', rfl⟩ := (liesBelow_rooted hne).mp hq
  rw [move_rooted hne hne', move_rooted hne hne', compare, compare,
    components_rooted (List.forall_mem_append.mpr ⟨hrs, hnames⟩),
    components_rooted (List.forall_mem_append.mpr ⟨hrs, hnames'⟩),
    components_rooted (List.forall_mem_append.mpr ⟨hrs', hnames⟩),
    components_rooted (List.forall_mem_append.mpr ⟨hrs', hnames'⟩)]
  simp only [List.map_append, ← List.cons_append]
  rw [compareComponents_append, compareComponents_append]

theorem insertSorted_move (hp : LiesBelow r p) {ps : List Path} (hps : ∀ q ∈ ps, LiesBelow r q) :
    insertSorted (move r r' p) (ps.map (move r r')) = (insertSorted p ps).map (move r r') := by
  induction ps with
  | nil => rfl
  | cons q ps ih =>
    obtain ⟨hq, hps⟩ := List.forall_mem_cons.mp hps
    rw [List.map_cons, insertSorted, insertSorted, compare_move hr hr' hp hq]
    cases p.compare q with
    | lt => rfl
    | eq => rfl
    | gt =>
      show _ :: insertSorted _ _ = _
      rw [ih hps]
      rfl

end

end Bindle.Path
