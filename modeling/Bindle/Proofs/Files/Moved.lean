import Bindle.Files.Host
import Bindle.Proofs.Build.Resolve
import Bindle.Proofs.Files.Storing
import Bindle.Proofs.Path.Below
import Mathlib.Data.List.DropRight
import Mathlib.Data.List.Find

/-!
# Files that were moved

`a.Moved r r' b` says that the files `b` are the files `a`, moved from below `r` to the same places
below `r'`.  Questions about moved paths have the same answers then, so a specifier that stays below
the home stands for the same file on both sides (`resolve_move`).

A path that is a file lies below the home (`liesBelow_of_isFile`), unless an extension begins with
`\`: to the path of the home itself such an extension adds the separator that a key below it needs.
-/

namespace Bindle

namespace Memory

structure Moved (r r' : Path) (a b : Memory) : Prop where
  below : ∀ k ∈ a.paths, ∃ t, k = r.text ++ "/" ++ t
  below' : ∀ k ∈ b.paths, ∃ t, k = r'.text ++ "/" ++ t
  get?_eq : ∀ t, b.files.get? (r'.text ++ "/" ++ t) = a.files.get? (r.text ++ "/" ++ t)

/-- the files of two tables that list the same places, below `r` and below `r'` -/
theorem moved_of_entries {r r' : Path} {a b : Memory} (entries : List (String × Content))
    (ha : a.files.entries = entries.map (fun e => (r.text ++ "/" ++ e.1, e.2)))
    (hb : b.files.entries = entries.map (fun e => (r'.text ++ "/" ++ e.1, e.2))) :
    a.Moved r r' b := by
  have hbelow : ∀ {m : Memory} {r : Path},
      m.files.entries = entries.map (fun e => (r.text ++ "/" ++ e.1, e.2)) →
        ∀ k ∈ m.paths, ∃ t, k = r.text ++ "/" ++ t := by
    intro m r hm k hk
    rw [paths, Table.keys, hm, List.map_map] at hk
    obtain ⟨e, -, rfl⟩ := List.mem_map.mp hk
    exact ⟨e.1, rfl⟩
  have hget : ∀ {m : Memory} {r : Path},
      m.files.entries = entries.map (fun e => (r.text ++ "/" ++ e.1, e.2)) →
        ∀ t, m.files.get? (r.text ++ "/" ++ t) = Table.lookup t entries := by
    intro m r hm t
    rw [Table.get?, hm]
    exact Table.lookup_map_fst (fun _ _ => (String.append_right_inj _).mp) t entries
  exact ⟨hbelow ha, hbelow hb, fun t => (hget hb t).trans (hget ha t).symm⟩

/-! ## keys -/

/-- what a text adds to the key of a path behind which it is put -/
def addedKey (text : String) : String :=
  String.ofList ((text.toList.map (fun c => if c = '\\' then '/' else c)).rdropWhile (· = '/'))

theorem rdropWhile_append {α : Type} {P : α → Bool} {as : List α} (bs : List α)
    (h : ∀ a ∈ as.getLast?, P a = false) : (as ++ bs).rdropWhile P = as ++ bs.rdropWhile P := by
  induction bs using List.reverseRecOn with
  | nil =>
    rw [List.append_nil, List.rdropWhile_nil, List.append_nil, List.rdropWhile_eq_self_iff]
    intro hne hlast
    rw [h _ (List.getLast?_eq_some_getLast hne)] at hlast
    cases hlast
  | append_singleton bs b ih =>
    rw [← List.append_assoc, List.rdropWhile_concat, List.rdropWhile_concat]
    split
    · exact ih
    · rw [List.append_assoc]

theorem withoutEnd_eq {cs : List Char} (h : cs.rdropWhile (· = '/') ≠ []) :
    withoutEnd cs = cs.rdropWhile (· = '/') := by
  unfold withoutEnd
  split
  · rename_i hnil
    exact absurd hnil h
  · rfl

variable {r r' : Path} {a b : Memory}

theorem key_append (hr : r.IsHome) (text : String) :
    key ⟨r.text ++ text⟩ = r.text ++ addedKey text := by
  have hunix : r.text.toList.map (fun c => if c = '\\' then '/' else c) = r.text.toList := by
    have hsame : ∀ c ∈ r.text.toList, (if c = '\\' then '/' else c) = c := by
      intro c hc
      refine if_neg ?_
      rintro rfl
      exact hr.unix hc
    rw [List.map_congr_left hsame, List.map_id']
  have hlast : ∀ c ∈ r.text.toList.getLast?, decide (c = '/') = false := by
    intro c hc
    refine decide_eq_false ?_
    rintro rfl
    exact hr.getLast?_ne hc
  have hne : r.text.toList ≠ [] := by
    obtain ⟨more, hmore⟩ := List.head?_eq_some_iff.mp (of_decide_eq_true hr.absolute)
    rw [hmore]
    exact List.cons_ne_nil _ _
  have hdrop := rdropWhile_append (text.toList.map fun c => if c = '\\' then '/' else c) hlast
  rw [key, Path.unixText, String.toList_ofList, String.toList_append, List.map_append, hunix,
    withoutEnd_eq (hdrop ▸ List.append_ne_nil_of_left_ne_nil hne _), hdrop, String.ofList_append,
    String.ofList_toList]
  rfl

theorem mem_paths {m : Memory} {k : String} : k ∈ m.paths ↔ m.files.get? k ≠ none := by
  rw [paths, Table.mem_keys, Table.contains, Option.isSome_iff_ne_none]

namespace Moved

variable (h : a.Moved r r' b)

include h

theorem get?_append (text : String) :
    b.files.get? (r'.text ++ text) = a.files.get? (r.text ++ text) := by
  by_cases hslash : ∃ t, text = "/" ++ t
  · obtain ⟨t, rfl⟩ := hslash
    rw [← String.append_assoc, ← String.append_assoc]
    exact h.get?_eq t
  · have hnone : ∀ {m : Memory} {r : Path}, (∀ k ∈ m.paths, ∃ t, k = r.text ++ "/" ++ t) →
        m.files.get? (r.text ++ text) = none := by
      intro m r hbelow
      by_contra hsome
      obtain ⟨t, ht⟩ := hbelow _ (mem_paths.mpr hsome)
      rw [String.append_assoc, String.append_right_inj] at ht
      exact hslash ⟨t, ht⟩
    rw [hnone h.below, hnone h.below']

variable (hr : r.IsHome) (hr' : r'.IsHome)

include hr hr'

theorem get?_key (text : String) :
    b.files.get? (key ⟨r'.text ++ text⟩) = a.files.get? (key ⟨r.text ++ text⟩) := by
  rw [key_append hr, key_append hr', h.get?_append]

theorem isFile_append (text : String) : b.isFile ⟨r'.text ++ text⟩ = a.isFile ⟨r.text ++ text⟩ := by
  rw [isFile, isFile, Table.contains, Table.contains, h.get?_key hr hr']

theorem readText_append {text source : String} (hread : a.readText ⟨r.text ++ text⟩ = .ok source) :
    b.readText ⟨r'.text ++ text⟩ = .ok source := by
  unfold readText read at hread ⊢
  rw [h.get?_key hr hr']
  cases hfile : a.files.get? (key ⟨r.text ++ text⟩) with
  | none =>
    rw [hfile] at hread
    cases hread
  | some content =>
    rw [hfile] at hread
    cases content with
    | text s => exact hread
    | binary bytes => cases hread

end Moved

/-- what the path of a home is continued with, to that of a file, begins with a separator -/
theorem head?_of_isFile (hr : r.IsHome) (hbelow : ∀ k ∈ a.paths, ∃ t, k = r.text ++ "/" ++ t)
    {text : String} (h : a.isFile ⟨r.text ++ text⟩ = true) :
    text.toList.head? = some '/' ∨ text.toList.head? = some '\\' := by
  have hmem : key ⟨r.text ++ text⟩ ∈ a.paths := mem_paths.mpr (Option.isSome_iff_ne_none.mp h)
  obtain ⟨t, ht⟩ := hbelow _ hmem
  rw [key_append hr, String.append_assoc, String.append_right_inj, ← String.toList_inj, addedKey,
    String.toList_ofList, String.toList_append] at ht
  have hprefix := List.rdropWhile_prefix (fun c => decide (c = '/'))
    (l := text.toList.map fun c => if c = '\\' then '/' else c)
  rw [ht] at hprefix
  cases hcs : text.toList with
  | nil =>
    rw [hcs] at hprefix
    exact absurd (List.prefix_nil.mp hprefix) (List.cons_ne_nil _ _)
  | cons c cs =>
    rw [hcs] at hprefix
    have hc : '/' = if c = '\\' then '/' else c := (List.cons_prefix_cons.mp hprefix).1
    by_cases hback : c = '\\'
    · exact .inr (congrArg some hback)
    · rw [if_neg hback] at hc
      exact .inl (congrArg some hc.symm)

end Memory

/-! ## specifiers -/

section

open Bindle.Path

variable {r r' d d' : Path} {a b : Memory} {extensions : List String} {specifier : String}

theorem candidates_of_text {text : String}
    (h : (d.join specifier).normalize.text = r.text ++ text) :
    candidates extensions d specifier =
      ("" :: extensions).map (fun e => ⟨r.text ++ (text ++ e)⟩) := by
  have hplain : (d.join specifier).normalize = ⟨r.text ++ text⟩ := congrArg Path.mk h
  unfold candidates
  rw [hplain, List.map_cons, String.append_empty]
  simp only [String.append_assoc]

/-- the same paths are tried, at both places -/
theorem candidates_beside (extensions : List String) (hr : r.IsHome) (hr' : r'.IsHome)
    (hd : Beside r r' d d') (hstays : Stays r d specifier) :
    candidates extensions d' specifier = (candidates extensions d specifier).map (move r r') ∧
    ∀ p ∈ candidates extensions d specifier, ∃ names : List String, ∃ e ∈ "" :: extensions,
      (∀ s ∈ names, (Component.name s).IsProper) ∧
        p.text = r.text ++ (String.ofList (below names) ++ e) := by
  obtain ⟨names, hnames, htext, htext'⟩ := exists_normalize_beside hr hr' hd hstays
  rw [candidates_of_text htext, candidates_of_text htext']
  constructor
  · rw [List.map_map]
    exact List.map_congr_left fun e _ => (move_of_text rfl).symm
  · intro p hp
    obtain ⟨e, he, rfl⟩ := List.mem_map.mp hp
    exact ⟨names, e, he, hnames, rfl⟩

variable (h : a.Moved r r' b) (hr : r.IsHome) (hr' : r'.IsHome)
  (hextensions : ∀ e ∈ extensions, '/' ∉ e.toList ∧ e.toList.head? ≠ some '\\')

include h hr hextensions

/-- **What is found lies below the home.** -/
theorem liesBelow_of_isFile {p : Path} {names : List String} {e : String}
    (hnames : ∀ s ∈ names, (Component.name s).IsProper) (he : e ∈ "" :: extensions)
    (hp : p.text = r.text ++ (String.ofList (below names) ++ e)) (hfile : a.isFile p = true) :
    LiesBelow r p := by
  have he : '/' ∉ e.toList ∧ e.toList.head? ≠ some '\\' := by
    rcases List.mem_cons.mp he with rfl | he
    · decide
    · exact hextensions e he
  -- with no names the path is that of the home itself and an extension, which is no file
  have hne : names ≠ [] := by
    rintro rfl
    obtain rfl : p = ⟨r.text ++ e⟩ := congrArg Path.mk (hp.trans (by rw [below]; rfl))
    rcases Memory.head?_of_isFile hr h.below hfile with hslash | hback
    · exact he.1 (List.mem_of_head? hslash)
    · exact he.2 hback
  rw [← String.append_assoc] at hp
  exact liesBelow_append hne hnames he.1 hp

include hr'

/-- **A specifier that stays below the home stands for the same file at both places.** -/
theorem resolve_move (hd : Beside r r' d d') (hstays : Stays r d specifier) (parser : Parser)
    {importer : Option ModuleId} (importer' : Option ModuleId) {p : Path}
    (hp : (resolve extensions d specifier importer).result (a.answer parser) = .ok p) :
    LiesBelow r p ∧
      (resolve extensions d' specifier importer').result (b.answer parser) = .ok (move r r' p) := by
  have hfind := resolve_eq_ok_iff.mp hp
  obtain ⟨hmoved, hcandidates⟩ := candidates_beside extensions hr hr' hd hstays
  constructor
  · obtain ⟨names, e, he, hnames, htext⟩ := hcandidates p (List.mem_of_find?_eq_some hfind)
    exact liesBelow_of_isFile h hr hextensions hnames he htext (List.find?_some hfind)
  · refine resolve_eq_ok_iff.mpr ?_
    have hsame : ∀ q ∈ candidates extensions d specifier, b.isFile (move r r' q) = a.isFile q := by
      intro q hq
      obtain ⟨names, e, -, -, htext⟩ := hcandidates q hq
      rw [move_of_text htext, h.isFile_append hr hr']
      exact congrArg a.isFile (congrArg Path.mk htext.symm)
    rw [hmoved, List.find?_map]
    exact congrArg (Option.map (move r r')) ((List.find?_congr hsame).trans hfind)

end

end Bindle
