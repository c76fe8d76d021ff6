import Bindle.Files.Memory
import Bindle.Proofs.Files.Storing
import Bindle.Proofs.Text.ByteOrder

/-!
# What lies below a directory

A text is a directory when it is the root, when it was recorded, or when some key begins with it and
a slash.  Keys that begin alike stand together in the order of bytes (`prefix_of_between`), so that the
first key that is not below the text and the slash tells whether there is one.

* `Table.IsFirstFrom`   the first key from a text on, by its bytes (`firstFrom_eq_some_iff`);
* `Memory.Below`        a key that lies below a directory (`hasBelow_iff_first`, `hasBelowPlain_iff`);
* `Memory.hasDir_iff`   directories, by any of the keys below them;
* `Memory.hasDir_eq_hasDirPlain`.  One look at the keys in their order tells as much as a look at each.
-/

namespace Bindle

/-! ## keys in order -/

/-- what lies between a text and one that begins with it begins with it too -/
theorem prefix_of_between {p a b : List Char} (hb : p <+: b)
    (hpa : ¬ List.Lex (· < ·) a p) (hab : ¬ List.Lex (· < ·) b a) : p <+: a := by
  induction p generalizing a b with
  | nil => exact List.nil_prefix
  | cons c p ih =>
    obtain ⟨more, rfl⟩ := hb
    cases a with
    | nil => exact absurd .nil hpa
    | cons d a =>
      have hdc : ¬ d < c := fun hlt => hpa (.rel hlt)
      have hcd : ¬ c < d := fun hlt => hab (.rel hlt)
      obtain rfl : c = d := Char.le_antisymm (Char.not_lt.mp hdc) (Char.not_lt.mp hcd)
      have hrest : p <+: a := ih (List.prefix_append p more) (fun h => hpa (.cons h))
        (fun h => hab (.cons h))
      exact List.cons_prefix_cons.mpr ⟨rfl, hrest⟩

namespace Table

variable {α : Type} {t : Table α} {k : String}

/-- the first key from `k` on is below all others from there -/
theorem firstFrom_eq_some {first : String} (h : t.firstFrom k = some first) :
    first ∈ t.keys ∧ k ≤ first ∧ ∀ k' ∈ t.keys, k ≤ k' → first ≤ k' := by
  obtain ⟨e, hfind, rfl⟩ := Option.map_eq_some_iff.mp h
  obtain ⟨hle, before, after, hentries, hbefore⟩ := List.find?_eq_some_iff_append.mp hfind
  refine ⟨List.mem_map_of_mem (List.mem_of_find?_eq_some hfind), of_decide_eq_true hle, ?_⟩
  intro k' hk' hkk'
  obtain ⟨e', he', rfl⟩ := List.mem_map.mp hk'
  rw [hentries] at he'
  rcases List.mem_append.mp he' with he' | he'
  · have hnot := hbefore e' he'
    rw [decide_eq_true hkk'] at hnot
    cases hnot
  · have hsorted := t.sorted
    rw [hentries] at hsorted
    rcases List.mem_cons.mp he' with rfl | he'
    · exact String.le_refl _
    · have hrest := (List.pairwise_append.mp hsorted).2.1
      exact String.not_lt.mp (String.lt_asymm ((List.pairwise_cons.mp hrest).1 e' he'))

theorem firstFrom_eq_none (h : t.firstFrom k = none) : ∀ k' ∈ t.keys, ¬ k ≤ k' := by
  intro k' hk' hle
  obtain ⟨e, he, rfl⟩ := List.mem_map.mp hk'
  have hnone := List.find?_eq_none.mp (Option.map_eq_none_iff.mp h) e he
  exact hnone (decide_eq_true hle)

/-- `first` is a key of the table that is not below `k` in the order of bytes, and no other such key is
below it -/
structure IsFirstFrom (t : Table α) (k first : String) : Prop where
  mem : first ∈ t.keys
  le : Text.bytesOf k ≤ Text.bytesOf first
  least : ∀ k' ∈ t.keys, Text.bytesOf k ≤ Text.bytesOf k' → Text.bytesOf first ≤ Text.bytesOf k'

theorem firstFrom_eq_some_iff {first : String} :
    t.firstFrom k = some first ↔ t.IsFirstFrom k first := by
  constructor
  · intro h
    obtain ⟨hmem, hle, hleast⟩ := firstFrom_eq_some h
    refine ⟨hmem, Text.le_iff_bytesOf_le.mp hle, fun k' hk' hkk' => ?_⟩
    exact Text.le_iff_bytesOf_le.mp (hleast k' hk' (Text.le_iff_bytesOf_le.mpr hkk'))
  · rintro ⟨hmem, hle, hleast⟩
    cases h : t.firstFrom k with
    | none => exact absurd (Text.le_iff_bytesOf_le.mpr hle) (firstFrom_eq_none h first hmem)
    | some k' =>
      obtain ⟨hmem', hle', hleast'⟩ := firstFrom_eq_some h
      have hfirst := hleast k' hmem' (Text.le_iff_bytesOf_le.mp hle')
      have hother := hleast' first hmem (Text.le_iff_bytesOf_le.mpr hle)
      rw [String.le_antisymm hother (Text.le_iff_bytesOf_le.mpr hfirst)]

/-- **Some key begins with a text exactly if the first one from there on does.** -/
theorem exists_firstFrom_prefix_iff :
    (∃ first, t.firstFrom k = some first ∧ k.toList <+: first.toList) ↔
      ∃ k' ∈ t.keys, k.toList <+: k'.toList := by
  constructor
  · rintro ⟨first, hfirst, hprefix⟩
    exact ⟨first, (firstFrom_eq_some hfirst).1, hprefix⟩
  · rintro ⟨k', hk', hprefix⟩
    have hkk' : k ≤ k' := hprefix.le
    cases hfirst : t.firstFrom k with
    | none => exact absurd hkk' (firstFrom_eq_none hfirst k' hk')
    | some first =>
      obtain ⟨-, hle, hleast⟩ := firstFrom_eq_some hfirst
      exact ⟨first, rfl, prefix_of_between hprefix hle (hleast k' hk' hkk')⟩

end Table

namespace Memory

/-- the key `k` lies below the directory `d` -/
def Below (d k : String) : Prop := (d ++ "/").toList <+: k.toList

theorem Below.ne {d k : String} (h : Below d k) : d ≠ k := by
  rintro rfl
  have hlength := h.length_le
  rw [String.toList_append, List.length_append] at hlength
  exact absurd hlength (Nat.not_succ_le_self _)

/-- the one look that is taken -/
theorem hasBelow_iff_first {files : Table Content} {d : String} : hasBelow files d = true ↔
    ∃ first, files.firstFrom (d ++ "/") = some first ∧ Below d first := by
  unfold hasBelow
  cases hfirst : files.firstFrom (d ++ "/") with
  | none =>
    refine iff_of_false Bool.false_ne_true ?_
    rintro ⟨_, hnone, -⟩
    cases hnone
  | some first =>
    show List.isPrefixOf _ _ = true ↔ _
    rw [List.isPrefixOf_iff_prefix]
    constructor
    · exact fun hbelow => ⟨first, rfl, hbelow⟩
    · rintro ⟨_, hsome, hbelow⟩
      rwa [← Option.some.inj hsome] at hbelow

theorem hasBelow_iff {files : Table Content} {d : String} :
    hasBelow files d = true ↔ ∃ k, files.contains k = true ∧ Below d k := by
  simp only [← Table.mem_keys]
  exact hasBelow_iff_first.trans Table.exists_firstFrom_prefix_iff

theorem hasBelowPlain_iff {files : Table Content} {d : String} :
    hasBelowPlain files d = true ↔ ∃ k, files.contains k = true ∧ Below d k := by
  simp only [hasBelowPlain, List.any_eq_true, List.isPrefixOf_iff_prefix, Table.mem_keys, Below]

theorem hasDir_iff_hasBelow {m : Memory} {d : String} :
    m.hasDir d = true ↔ d = "/" ∨ d ∈ m.directories ∨ hasBelow m.files d = true := by
  rw [hasDir, Bool.or_eq_true, Bool.or_eq_true, beq_iff_eq, List.contains_iff_mem, or_assoc]

theorem hasDir_iff {m : Memory} {d : String} : m.hasDir d = true ↔
    d = "/" ∨ d ∈ m.directories ∨ ∃ k, m.files.contains k = true ∧ Below d k := by
  rw [hasDir_iff_hasBelow, hasBelow_iff]

/-- **One look at the keys in their order tells what a look at each of them tells.**  Whatever the keys
of the files are and whatever directories were recorded, a text is found to be a directory exactly if it
is the root or was recorded, or if among the bytes of some key those of the text and a slash come first;
and of the keys, only the first that is not below the text and the slash is looked at for it. -/
theorem hasDir_eq_hasDirPlain (m : Memory) (d : String) :
    m.hasDir d = m.hasDirPlain d ∧
      (m.hasDir d = true ↔ d = "/" ∨ d ∈ m.directories ∨
        ∃ k, m.files.IsFirstFrom (d ++ "/") k ∧ Text.bytesOf (d ++ "/") <+: Text.bytesOf k) ∧
      (m.hasDir d = true ↔ d = "/" ∨ d ∈ m.directories ∨
        ∃ k ∈ m.paths, Text.bytesOf (d ++ "/") <+: Text.bytesOf k) := by
  simp only [Text.bytesOf_prefix_iff, ← Table.firstFrom_eq_some_iff]
  refine ⟨?_, ?_, ?_⟩
  · have hbelow : hasBelow m.files d = hasBelowPlain m.files d :=
      Bool.eq_iff_iff.mpr (hasBelow_iff.trans hasBelowPlain_iff.symm)
    rw [hasDir, hasDirPlain, hbelow]
  · rw [hasDir_iff_hasBelow, hasBelow_iff_first]
    rfl
  · rw [hasDir_iff]
    simp only [paths, Table.mem_keys, Below]

-- `-` comes before `/`, so without the slash the first key would be that of a neighbour
example : let m := Memory.ofList [(⟨"/a-b/c.js"⟩, .text ""), (⟨"/a/c.js"⟩, .text "")]
    m.files.firstFrom "/a" = some "/a-b/c.js" ∧ m.files.firstFrom "/a/" = some "/a/c.js" ∧
      m.hasDir "/a" = true ∧ m.hasDir "/a-" = false := by decide +kernel

end Memory

end Bindle
