import Bindle.Proofs.Files.Moved
import Bindle.Proofs.Path.Parts

/-!
# The paths of a stored file

A key has `/` for every `\` of a path and no `/` at its end, while components are told apart by `/`
only.  So a file that is stored under a key can be reached by many paths, and each `/` of the key may
be a `\` of the path.

* `spellings cs`       the texts that are `cs` when their `\` are read as `/`;
* `allSpellings m`     the spellings of all keys.

Of a path without `\` the components are those of its key (`components_eq_of_isUnix`), and of a tidy
path those of a spelling of its key (`exists_mem_allSpellings`).
-/

namespace Bindle.Memory

open Bindle.Path

/-- a character as a key has it -/
def keyChar (c : Char) : Char := if c = '\\' then '/' else c

theorem toList_key (p : Path) : (key p).toList = withoutEnd (p.text.toList.map keyChar) := by
  rw [key, String.toList_ofList, unixText, String.toList_ofList]
  rfl

/-- each `/` may have been a `\` -/
def spellings : List Char → List (List Char)
  | [] => [[]]
  | c :: cs =>
    if c = '/' then (spellings cs).map ('/' :: ·) ++ (spellings cs).map ('\\' :: ·)
    else (spellings cs).map (c :: ·)

theorem mem_spellings (cs : List Char) : cs ∈ spellings (cs.map keyChar) := by
  induction cs with
  | nil => exact List.mem_singleton_self _
  | cons c cs ih =>
    rw [List.map_cons, spellings]
    by_cases hback : c = '\\'
    · have hkey : keyChar c = '/' := if_pos hback
      rw [if_pos hkey, hback]
      exact List.mem_append_right _ (List.mem_map_of_mem ih)
    · have hkey : keyChar c = c := if_neg hback
      rw [hkey]
      by_cases hslash : c = '/'
      · rw [if_pos hslash, hslash]
        exact List.mem_append_left _ (List.mem_map_of_mem ih)
      · rw [if_neg hslash]
        exact List.mem_map_of_mem ih

/-! ## ends -/

theorem withoutEnd_slash {cs : List Char} (h : cs ≠ []) :
    withoutEnd (cs ++ ['/']) = withoutEnd cs := by
  have htake : (cs ++ ['/']).take 1 = cs.take 1 := by
    rw [List.take_append_of_le_length (List.length_pos_iff.mpr h)]
  unfold withoutEnd
  rw [List.reverse_append, htake]
  rfl

theorem withoutEnd_of_getLast? {cs : List Char} (h : cs.getLast? ≠ some '/') :
    withoutEnd cs = cs := by
  rcases List.eq_nil_or_concat cs with rfl | ⟨before, c, rfl⟩
  · rfl
  · rw [List.concat_eq_append, List.getLast?_concat] at h
    have hc : c ≠ '/' := fun he => h (congrArg some he)
    unfold withoutEnd
    rw [List.concat_eq_append, List.reverse_append]
    simp [hc]

theorem componentsOf_slash {cs : List Char} (h : cs ≠ []) :
    componentsOf (cs ++ ['/']) = componentsOf cs := by
  obtain ⟨first, rest, hparts⟩ := List.exists_cons_of_ne_nil (pieces_ne_nil cs)
  have hmore : pieces (cs ++ ['/']) = first :: (rest ++ [[]]) := by
    rw [pieces_append_slash, hparts]
    rfl
  have hhead : (cs ++ ['/']).head? = cs.head? := List.head?_append_of_ne_nil cs h
  have hnone : ∀ parts : List (List Char),
      (parts ++ [[]]).filterMap component? = parts.filterMap component? := by
    intro parts
    rw [List.filterMap_append]
    exact List.append_nil _
  have hall : (first :: (rest ++ [[]])).filterMap component? =
      (first :: rest).filterMap component? := hnone (first :: rest)
  unfold componentsOf
  simp only [hparts, hmore, hhead, hnone, hall]

/-- **A text in which no part ends in `\` begins with a spelling of its key** that has the same
components. -/
theorem exists_spelling {cs : List Char} (h : ∀ part ∈ pieces cs, part.getLast? ≠ some '\\') :
    ∃ spelt, spelt <+: cs ∧ spelt.map keyChar = withoutEnd (cs.map keyChar) ∧
      componentsOf spelt = componentsOf cs := by
  induction cs using List.reverseRecOn with
  | nil => exact ⟨[], List.prefix_refl _, rfl, rfl⟩
  | append_singleton cs c ih =>
    by_cases hc : c = '/'
    · subst hc
      by_cases hcs : cs = []
      · rw [hcs]
        exact ⟨['/'], List.prefix_refl _, rfl, rfl⟩
      · have hparts : ∀ part ∈ pieces cs, part.getLast? ≠ some '\\' := by
          intro part hpart
          refine h part ?_
          rw [pieces_append_slash]
          exact List.mem_append_left _ hpart
        obtain ⟨spelt, hbegins, hkey, hcomponents⟩ := ih hparts
        refine ⟨spelt, hbegins.trans (List.prefix_append _ _), ?_, ?_⟩
        · rw [hkey, List.map_append]
          exact (withoutEnd_slash fun he => hcs (List.map_eq_nil_iff.mp he)).symm
        · rw [hcomponents, componentsOf_slash hcs]
    · -- nothing is taken from the end, as `c` is not a `\` either
      obtain ⟨part, hpart, hlast⟩ := exists_part_concat cs hc
      have hback : c ≠ '\\' := fun he => h part hpart (he ▸ hlast)
      have hkey : keyChar c = c := if_neg hback
      refine ⟨cs ++ [c], List.prefix_refl _, (withoutEnd_of_getLast? ?_).symm, rfl⟩
      rw [List.map_append, List.map_singleton, hkey, List.getLast?_concat]
      exact fun he => hc (Option.some.inj he)

/-! ## stored files -/

variable {p q : Path}

/-- without `\` a path has the components of its key -/
theorem components_eq_of_isUnix (hp : p.IsUnix) : p.components = componentsOf (key p).toList := by
  obtain ⟨spelt, hbegins, hkey, hcomponents⟩ := exists_spelling hp.isTidy
  have hsame : spelt.map keyChar = spelt := by
    have hchar : ∀ c ∈ spelt, keyChar c = c := by
      intro c hc
      refine if_neg ?_
      rintro rfl
      exact isUnix_iff.mp hp (hbegins.subset hc)
    rw [List.map_congr_left hchar, List.map_id']
  rw [toList_key, ← hkey, hsame, hcomponents]
  rfl

/-- the spellings of all keys -/
def allSpellings (m : Memory) : List (List Char) := m.paths.flatMap fun k => spellings k.toList

/-- **A tidy path of a stored file has the components of one of finitely many texts.** -/
theorem exists_mem_allSpellings {m : Memory} (hp : p.IsTidy) (hfile : m.isFile p = true) :
    ∃ spelt ∈ m.allSpellings, componentsOf spelt = p.components := by
  obtain ⟨spelt, -, hkey, hcomponents⟩ := exists_spelling hp
  have hmem : key p ∈ m.paths := mem_paths.mpr (Option.isSome_iff_ne_none.mp hfile)
  refine ⟨spelt, List.mem_flatMap.mpr ⟨key p, hmem, ?_⟩, hcomponents⟩
  rw [toList_key, ← hkey]
  exact mem_spellings spelt

end Bindle.Memory
