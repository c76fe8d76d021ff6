import Bindle.Proofs.Files.KeyOrder
import Bindle.Proofs.Files.Moved
import Mathlib.Logic.Relation

/-!
# Files and directories in memory

A directory is one that was made, or one with a file below it.  Writing looks for a directory in the
place of the file and making a directory looks for files on the way to it; neither looks the other way.

* `Memory.Change`      the changes from outside, and `Memory.after` what they leave;
* `Change.Makes`       a change that makes a directory of a place (`hasDir_after`);
* `Change.Clashes`     one that makes a directory of a stored file (`isBoth_after`).

Main results:

* `isFile_and_isDir_iff`.  A place is a file and a directory exactly when some change has clashed
  there, and it stays both.  With the second file below the first this does happen
  (`not_isFile_or_isDir`).
* `isDir_of_createDirs`.  A directory that was made stays one.  The directories above it were not made
  with it (`not_isDir_above`).
-/

namespace Bindle

namespace Memory

/-! ## the way to a directory -/

theorem pieces_below {names : List String}
    (h : ∀ s ∈ names, (Path.Component.name s).IsProper) :
    Path.pieces (Path.below names) = [] :: names.map String.toList := by
  induction names with
  | nil => rfl
  | cons s names ih =>
    obtain ⟨⟨-, hslash, -⟩, hnames⟩ := List.forall_mem_cons.mp h
    show Path.pieces ('/' :: (s.toList ++ Path.below names)) = _
    rw [Path.pieces_slash]
    cases names with
    | nil =>
      show [] :: Path.pieces (s.toList ++ []) = _
      rw [List.append_nil, Path.pieces_of_not_mem hslash]
      rfl
    | cons s' names =>
      have hrest := ih hnames
      change Path.pieces ('/' :: (s'.toList ++ Path.below names)) = _ at hrest
      rw [Path.pieces_slash] at hrest
      show [] :: Path.pieces (s.toList ++ '/' :: (s'.toList ++ Path.below names)) = _
      rw [Path.pieces_append_slash, (List.cons.inj hrest).2, Path.pieces_of_not_mem hslash]
      rfl

/-- a directory with an absolute path comes last on the way to it -/
theorem mem_lineage_self {r : Path} (hr : r.IsHome) : r.text ∈ lineage r.text := by
  obtain ⟨names, hne, hnames, rfl⟩ := hr.exists_names
  have htext : (Path.rooted names).text = String.ofList (Path.below names) := by
    rw [← Path.toList_text_rooted hne, String.ofList_toList]
  have hparts : (Path.pieces (Path.rooted names).text.toList).filter (· ≠ []) =
      names.map String.toList := by
    rw [Path.toList_text_rooted hne, pieces_below hnames]
    show (names.map String.toList).filter (· ≠ []) = _
    refine List.filter_eq_self.mpr fun cs hcs => ?_
    obtain ⟨s, hs, rfl⟩ := List.mem_map.mp hcs
    exact decide_eq_true fun he => (hnames s hs).1 (String.toList_eq_nil_iff.mp he)
  obtain ⟨s, more, rfl⟩ := List.exists_cons_of_ne_nil hne
  have hlast : (s :: more).map String.toList ∈
      (Path.beginnings ((s :: more).map String.toList)).tail :=
    List.mem_map_of_mem (Path.mem_beginnings (List.prefix_refl _))
  show _ ∈ (Path.beginnings ((Path.pieces _).filter _)).tail.map _
  rw [hparts]
  refine List.mem_map.mpr ⟨_, hlast, ?_⟩
  rw [htext, List.flatMap_map]
  rfl

/-! ## changes -/

/-- a change of files from outside -/
inductive Change where
  | write (p : Path) (content : Content)
  | createDirs (p : Path)

def Change.applyTo (m : Memory) : Change → Except FileError Memory
  | write p content => m.write p content
  | createDirs p => m.createDirs p

/-- what changes leave behind, of which some may fail -/
def after (m : Memory) : List Change → Memory
  | [] => m
  | c :: changes => after (attempt (fun m => c.applyTo m) m).2 changes

/-- the change goes well, and makes a directory of the file with the key `k` -/
inductive Change.Clashes (m : Memory) (k : String) : Change → Prop where
  /-- a file is written below, which is not there as a directory -/
  | write {p : Path} {content : Content} (hfile : m.files.contains k = true)
      (hbelow : Below k (key p)) (hfree : m.hasDir (key p) = false) : Clashes m k (.write p content)
  /-- the file itself is made a directory, and is not seen on the way there -/
  | createDirs {p : Path} (hfile : m.files.contains k = true) (hkey : key p = k)
      (hfree : ∀ d ∈ lineage k, m.files.contains d = false) : Clashes m k (.createDirs p)

/-- a file with an absolute path in normal form is seen when it is made a directory -/
theorem not_clashes_createDirs {m : Memory} {r p : Path} (hr : r.IsHome) :
    ¬ (Change.createDirs p).Clashes m (key r) := by
  have hkey : key r = r.text := by
    have happend := key_append hr ""
    rwa [String.append_empty, addedKey, String.toList_empty, List.map_nil, List.rdropWhile_nil,
      String.ofList_nil, String.append_empty] at happend
  rw [hkey]
  intro h
  cases h with
  | createDirs hfile _ hfree =>
    rw [hfree r.text (mem_lineage_self hr)] at hfile
    cases hfile

/-- the key `k` is that of a file and of a directory -/
def IsBoth (m : Memory) (k : String) : Prop := m.files.contains k = true ∧ m.hasDir k = true

variable {m : Memory} {k : String} {p : Path}

/-- the change goes well, and makes a directory of the place with the key `k` -/
inductive Change.Makes (m : Memory) (k : String) : Change → Prop where
  /-- a file is written below -/
  | write {p : Path} {content : Content} (hbelow : Below k (key p))
      (hfree : m.hasDir (key p) = false) : Makes m k (.write p content)
  /-- the place itself is made a directory, and no file is on the way there -/
  | createDirs {p : Path} (hkey : key p = k)
      (hfree : ∀ d ∈ lineage k, m.files.contains d = false) : Makes m k (.createDirs p)

namespace Change

variable {content : Content}

theorem makes_write :
    (write p content).Makes m k ↔ Below k (key p) ∧ m.hasDir (key p) = false := by
  constructor
  · intro h
    cases h with
    | write hbelow hfree => exact ⟨hbelow, hfree⟩
  · exact fun h => .write h.1 h.2

theorem makes_createDirs : (createDirs p).Makes m k ↔
    key p = k ∧ ∀ d ∈ lineage (key p), m.files.contains d = false := by
  constructor
  · intro h
    cases h with
    | createDirs hkey hfree => exact ⟨hkey, hkey ▸ hfree⟩
  · exact fun h => .createDirs h.1 (h.1 ▸ h.2)

/-- changes clash that make a directory of a file -/
theorem clashes_iff {c : Change} :
    c.Clashes m k ↔ m.files.contains k = true ∧ c.Makes m k := by
  constructor
  · intro h
    cases h with
    | write hfile hbelow hfree => exact ⟨hfile, .write hbelow hfree⟩
    | createDirs hfile hkey hfree => exact ⟨hfile, .createDirs hkey hfree⟩
  · rintro ⟨hfile, h⟩
    cases h with
    | write hbelow hfree => exact .write hfile hbelow hfree
    | createDirs hkey hfree => exact .createDirs hfile hkey hfree

end Change

/-- a change that goes well leaves the files that it makes -/
theorem attempt_of_ok {c : Change} {m' : Memory} (h : c.applyTo m = .ok m') :
    attempt (fun m => c.applyTo m) m = (.ok (), m') := by
  rw [attempt, h]

/-- and one that fails leaves the files as they are -/
theorem attempt_of_error {c : Change} {e : FileError} (h : c.applyTo m = .error e) :
    attempt (fun m => c.applyTo m) m = (.error e, m) := by
  rw [attempt, h]

/-- with a file come the directories above it -/
theorem hasDir_store {content : Content} :
    (m.store p content).hasDir k = true ↔ m.hasDir k = true ∨ Below k (key p) := by
  rw [hasDir_iff, hasDir_iff]
  simp only [store, Table.contains_insert]
  constructor
  · rintro (h | h | ⟨k', rfl | hk', hbelow⟩)
    · exact .inl (.inl h)
    · exact .inl (.inr (.inl h))
    · exact .inr hbelow
    · exact .inl (.inr (.inr ⟨k', hk', hbelow⟩))
  · rintro ((h | h | ⟨k', hk', hbelow⟩) | hbelow)
    · exact .inl h
    · exact .inr (.inl h)
    · exact .inr (.inr ⟨k', .inr hk', hbelow⟩)
    · exact .inr (.inr ⟨key p, .inl rfl, hbelow⟩)

theorem attempt_write (content : Content) :
    (attempt (fun m => (Change.write p content).applyTo m) m).2 =
      if m.hasDir (key p) then m else m.store p content := by
  cases hdir : m.hasDir (key p) with
  | true =>
    have hrefused : (Change.write p content).applyTo m = .error (.notADirectory (key p)) := by
      rw [Change.applyTo, write, hdir, if_pos rfl]
    rw [attempt_of_error hrefused, if_pos rfl]
  | false =>
    have hstored : (Change.write p content).applyTo m = .ok (m.store p content) := by
      rw [Change.applyTo, write, hdir, if_neg Bool.false_ne_true]
    rw [attempt_of_ok hstored, if_neg Bool.false_ne_true]

/-- making a directory leaves the files as they are, and adds itself to the directories -/
theorem createDirs_eq_ok (h : ∀ d ∈ lineage (key p), m.files.contains d = false) :
    ∃ m', m.createDirs p = .ok m' ∧ m'.files = m.files ∧
      ∀ d, d ∈ m'.directories ↔ key p = d ∨ d ∈ m.directories := by
  have hfind : (lineage (key p)).find? m.files.contains = none :=
    List.find?_eq_none.mpr fun d hd => Bool.eq_false_iff.mp (h d hd)
  unfold createDirs
  rw [hfind]
  refine ⟨_, rfl, rfl, fun d => ?_⟩
  dsimp only
  split
  · rename_i hthere
    have hmem : key p ∈ m.directories := List.contains_iff_mem.mp hthere
    exact ⟨.inr, fun h => h.elim (fun hkey => hkey ▸ hmem) id⟩
  · rw [List.mem_cons, eq_comm]

/-- a directory is made only when there is no file on the way -/
theorem free_of_createDirs {m' : Memory} (h : m.createDirs p = .ok m') :
    ∀ d ∈ lineage (key p), m.files.contains d = false := by
  unfold createDirs at h
  split at h
  · cases h
  · rename_i hnone
    exact fun d hd => Bool.eq_false_iff.mpr (List.find?_eq_none.mp hnone d hd)

theorem attempt_createDirs :
    (attempt (fun m => (Change.createDirs p).applyTo m) m).2.files = m.files ∧
      ∀ d, d ∈ (attempt (fun m => (Change.createDirs p).applyTo m) m).2.directories ↔
        d ∈ m.directories ∨ (Change.createDirs p).Makes m d := by
  simp only [Change.makes_createDirs]
  by_cases hfree : ∀ d ∈ lineage (key p), m.files.contains d = false
  · obtain ⟨m', hm', hfiles, hdirectories⟩ := createDirs_eq_ok hfree
    have hmade : (Change.createDirs p).applyTo m = .ok m' := hm'
    rw [attempt_of_ok hmade]
    refine ⟨hfiles, fun d => ?_⟩
    rw [hdirectories, and_iff_left hfree, or_comm]
  · have hsome : ∃ d, (lineage (key p)).find? m.files.contains = some d := by
      rw [← Option.isSome_iff_exists, List.find?_isSome]
      simpa using hfree
    obtain ⟨d, hd⟩ := hsome
    have hrefused : (Change.createDirs p).applyTo m = .error (.notADirectory d) := by
      rw [Change.applyTo]
      unfold createDirs
      rw [hd]
    rw [attempt_of_error hrefused]
    exact ⟨rfl, fun d => (or_iff_left fun hmakes => hfree hmakes.2).symm⟩

/-! ## one change -/

/-- **Directories come by changes that make them, and stay.** -/
theorem hasDir_attempt (c : Change) : (attempt (fun m => c.applyTo m) m).2.hasDir k = true ↔
    m.hasDir k = true ∨ c.Makes m k := by
  cases c with
  | write p content =>
    rw [attempt_write, Change.makes_write]
    cases hdir : m.hasDir (key p) with
    | true =>
      rw [if_pos rfl]
      exact (or_iff_left fun hmakes => Bool.false_ne_true hmakes.2.symm).symm
    | false => rw [if_neg Bool.false_ne_true, hasDir_store, and_iff_left rfl]
  | createDirs p =>
    obtain ⟨hfiles, hdirectories⟩ := attempt_createDirs (m := m) (p := p)
    rw [hasDir_iff, hasDir_iff, hfiles, hdirectories, or_assoc, or_assoc, or_assoc]
    exact or_congr_right (or_congr_right or_comm)

/-- a directory is not written over -/
theorem contains_attempt {c : Change}
    (hdir : (attempt (fun m => c.applyTo m) m).2.hasDir k = true) :
    (attempt (fun m => c.applyTo m) m).2.files.contains k = true ↔ m.files.contains k = true := by
  cases c with
  | write p content =>
    rw [hasDir_attempt, Change.makes_write] at hdir
    rw [attempt_write]
    split
    · exact Iff.rfl
    · rename_i hfree
      have hne : key p ≠ k := by
        rintro rfl
        exact hdir.elim hfree fun hmakes => hmakes.1.ne rfl
      rw [store, Table.contains_insert, or_iff_right hne]
  | createDirs p => rw [attempt_createDirs.1]

theorem isBoth_attempt (c : Change) :
    (attempt (fun m => c.applyTo m) m).2.IsBoth k ↔ m.IsBoth k ∨ c.Clashes m k := by
  rw [Change.clashes_iff, IsBoth, IsBoth, ← and_or_left, ← hasDir_attempt]
  exact and_congr_left contains_attempt

/-! ## many changes -/

/-- what single changes bring about, and what stays, is brought about by one of them -/
theorem after_iff (Q : Memory → Prop) (B : Memory → Change → Prop)
    (hstep : ∀ m c, Q (attempt (fun m => c.applyTo m) m).2 ↔ Q m ∨ B m c) (changes : List Change) :
    Q (m.after changes) ↔
      Q m ∨ ∃ before c later, changes = before ++ c :: later ∧ B (m.after before) c := by
  induction changes generalizing m with
  | nil =>
    refine ⟨.inl, fun h => h.resolve_right ?_⟩
    rintro ⟨before, c, later, he, -⟩
    exact List.append_ne_nil_of_right_ne_nil before (List.cons_ne_nil c later) he.symm
  | cons c changes ih =>
    rw [after, ih, hstep, or_assoc]
    refine or_congr_right ⟨?_, ?_⟩
    · rintro (hc | ⟨before, c', later, rfl, hc'⟩)
      · exact ⟨[], c, changes, rfl, hc⟩
      · exact ⟨c :: before, c', later, rfl, hc'⟩
    · rintro ⟨before, c', later, he, hc'⟩
      cases before with
      | nil =>
        obtain ⟨rfl, rfl⟩ := List.cons.inj he
        exact .inl hc'
      | cons first before =>
        obtain ⟨rfl, rfl⟩ := List.cons.inj he
        exact .inr ⟨before, c', later, rfl, hc'⟩

theorem hasDir_after (changes : List Change) : (m.after changes).hasDir k = true ↔
    m.hasDir k = true ∨ ∃ before c later, changes = before ++ c :: later ∧
      c.Makes (m.after before) k :=
  after_iff (fun m => m.hasDir k = true) (fun m c => c.Makes m k) (fun _ => hasDir_attempt) changes

theorem isBoth_after (changes : List Change) : (m.after changes).IsBoth k ↔
    m.IsBoth k ∨ ∃ before c later, changes = before ++ c :: later ∧
      c.Clashes (m.after before) k :=
  after_iff (fun m => m.IsBoth k) (fun m c => c.Clashes m k) (fun _ => isBoth_attempt) changes

/-- **When a file is a directory.**  After any changes of files that were empty, of which some may have
failed, a path names a file and a directory exactly if one of the changes went well although it made a
directory of a file in this place. -/
theorem isFile_and_isDir_iff (changes : List Change) (p : Path) :
    ((({} : Memory).after changes).isFile p = true ∧ (({} : Memory).after changes).isDir p = true) ↔
      ∃ before c later, changes = before ++ c :: later ∧
        c.Clashes (({} : Memory).after before) (key p) := by
  have hempty : ¬ ({} : Memory).IsBoth (key p) := fun h => Bool.false_ne_true h.1
  exact (isBoth_after changes).trans (or_iff_right hempty)

/-- a second file may be written below a first one -/
theorem not_isFile_or_isDir :
    ¬ ∀ (changes : List Change) (p : Path),
      ¬ ((({} : Memory).after changes).isFile p = true ∧
        (({} : Memory).after changes).isDir p = true) := by
  intro h
  refine h [.write ⟨"/a"⟩ (.text "1"), .write ⟨"/a/b"⟩ (.text "2")] ⟨"/a"⟩ ?_
  decide +kernel

/-! ## directories that are made -/

/-- **Directories that are made stay.**  When a directory is made, its path names a directory from then
on, whatever is changed later.  Another path does so for certain only if it named one before; else it
names one as soon as a later change makes it one. -/
theorem isDir_of_createDirs {m' : Memory} (h : m.createDirs p = .ok m') :
    (∀ changes, (m'.after changes).isDir p = true) ∧
      (∀ q, (∀ changes, (m'.after changes).isDir q = true) ↔ key q = key p ∨ m.isDir q = true) ∧
      ∀ q changes, (m'.after changes).isDir q = true ↔
        (key q = key p ∨ m.isDir q = true) ∨ ∃ before c later, changes = before ++ c :: later ∧
          c.Makes (m'.after before) (key q) := by
  have hmade : ∀ q, m'.isDir q = true ↔ key q = key p ∨ m.isDir q = true := by
    intro q
    have hstep := hasDir_attempt (m := m) (k := key q) (.createDirs p)
    rw [attempt_of_ok (show (Change.createDirs p).applyTo m = .ok m' from h)] at hstep
    refine hstep.trans (or_comm.trans (or_congr_left ?_))
    rw [Change.makes_createDirs, and_iff_left (free_of_createDirs h), eq_comm]
  have hafter : ∀ q changes, (m'.after changes).isDir q = true ↔
      (key q = key p ∨ m.isDir q = true) ∨ ∃ before c later, changes = before ++ c :: later ∧
        c.Makes (m'.after before) (key q) :=
    fun q changes => (hasDir_after changes).trans (or_congr_left (hmade q))
  refine ⟨fun changes => (hafter p changes).mpr (.inl (.inl rfl)), fun q => ⟨fun hdir => ?_, ?_⟩,
    hafter⟩
  · exact (hmade q).mp (hdir [])
  · exact fun hq changes => (hafter q changes).mpr (.inl hq)

def sourceFile : Memory := .ofList [(⟨"/src/a.js"⟩, .text "")]

/-- of the directories on the way to one that is made, those with files are there to stay -/
theorem isDir_of_createDirs_below : ∃ m', sourceFile.createDirs ⟨"/src/out/assets"⟩ = .ok m' ∧
    (∀ changes, (m'.after changes).isDir ⟨"/src/out/assets"⟩ = true) ∧
    (∀ changes, (m'.after changes).isDir ⟨"/src"⟩ = true) ∧
    ¬ ∀ changes, (m'.after changes).isDir ⟨"/src/out"⟩ = true := by
  cases h : sourceFile.createDirs ⟨"/src/out/assets"⟩ with
  | error e =>
    have hok : (sourceFile.createDirs ⟨"/src/out/assets"⟩).isOk = true := by decide +kernel
    rw [h] at hok
    cases hok
  | ok m' =>
    obtain ⟨hself, hothers, -⟩ := isDir_of_createDirs h
    refine ⟨m', rfl, hself, (hothers _).mpr (.inr (by decide +kernel)), fun hout => ?_⟩
    exact absurd ((hothers _).mp hout) (by decide +kernel)

/-- making a directory makes it alone, and a file may take the place of the one above it -/
theorem not_isDir_above : ¬ ∀ (m m' : Memory) (p q : Path) (changes : List Change),
    p.isAbsolute = true → m.createDirs p = .ok m' →
    Relation.ReflTransGen (fun d p => p.parent? = some d) q p →
      (m'.after changes).isDir q = true := by
  intro h
  have hdir := h {} { directories := ["/out/assets"] } ⟨"/out/assets"⟩ ⟨"/out"⟩
    [.write ⟨"/out"⟩ (.text "")] (by decide) rfl (.single (by decide +kernel))
  exact absurd hdir (by decide +kernel)

end Memory

end Bindle
