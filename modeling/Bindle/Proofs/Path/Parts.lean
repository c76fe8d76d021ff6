import Bindle.Proofs.Path.Plain

/-!
# What the parts of paths are like

The parts of a path are the texts between its slashes.  A kind of parts is handed on by all that a
build does to paths: where two paths have such parts only, the path that leads from the first by the
second has, and so do its normal form, its directory, and the path with an extension.

* `PartsAre Q p`    all parts of `p` are of the kind `Q`;
* `IsKind Q`        dots are of the kind `Q`, and so is what is put together from two such parts;
* `IsUnix p`        no part of the path has a `\`;
* `IsTidy p`        no part of the path ends in `\`.

Main result: `partsAre_of_mem_candidates`.
-/

namespace Bindle.Path

def PartsAre (Q : List Char → Prop) (p : Path) : Prop := ∀ part ∈ pieces p.text.toList, Q part

instance (Q : List Char → Prop) [DecidablePred Q] (p : Path) : Decidable (p.PartsAre Q) :=
  inferInstanceAs (Decidable (∀ part ∈ pieces p.text.toList, Q part))

structure IsKind (Q : List Char → Prop) : Prop where
  empty : Q []
  current : Q ['.']
  parent : Q ['.', '.']
  append : ∀ {a b : List Char}, Q a → Q b → Q (a ++ b)

variable {Q : List Char → Prop} {p q base : Path} {specifier : String}

/-! ## parts -/

/-- the last part of one text and the first of another are one part of both together -/
theorem pieces_append {a b last first : List Char} {before after : List (List Char)}
    (ha : pieces a = before ++ [last]) (hb : pieces b = first :: after) :
    pieces (a ++ b) = before ++ (last ++ first) :: after := by
  induction a generalizing before last with
  | nil =>
    obtain ⟨rfl, rfl⟩ : before = [] ∧ last = [] := by
      rcases List.append_eq_singleton_iff.mp ha.symm with ⟨rfl, hlast⟩ | ⟨-, hlast⟩
      · exact ⟨rfl, (List.cons.inj hlast).1⟩
      · cases hlast
    exact hb
  | cons c a ih =>
    rw [List.cons_append]
    by_cases hc : c = '/'
    · rw [hc, pieces_slash] at ha ⊢
      rcases List.cons_eq_append_iff.mp ha with ⟨-, hlast⟩ | ⟨before', rfl, ha'⟩
      · exact absurd (List.cons.inj hlast).2.symm (pieces_ne_nil a)
      · rw [ih ha', List.cons_append]
    · obtain ⟨part, others, hparts⟩ := List.exists_cons_of_ne_nil (pieces_ne_nil a)
      rw [pieces_cons hc hparts] at ha
      rcases List.cons_eq_append_iff.mp ha with ⟨rfl, hlast⟩ | ⟨before', rfl, ha'⟩
      · obtain ⟨rfl, rfl⟩ := List.cons.inj hlast
        have hrest : pieces (a ++ b) = [] ++ (part ++ first) :: after := ih hparts
        exact pieces_cons hc hrest
      · have hrest : pieces (a ++ b) = part :: before' ++ (last ++ first) :: after :=
          ih (by rw [hparts, ha', List.cons_append])
        exact pieces_cons hc hrest

theorem mem_pieces_append {a b part : List Char} (h : part ∈ pieces (a ++ b)) :
    part ∈ pieces a ∨ part ∈ pieces b ∨ ∃ x ∈ pieces a, ∃ y ∈ pieces b, part = x ++ y := by
  obtain ⟨before, last, ha⟩ := (List.eq_nil_or_concat (pieces a)).resolve_left (pieces_ne_nil a)
  obtain ⟨first, after, hb⟩ := List.exists_cons_of_ne_nil (pieces_ne_nil b)
  rw [List.concat_eq_append] at ha
  rw [pieces_append ha hb] at h
  rw [ha, hb]
  rcases List.mem_append.mp h with h | h
  · exact .inl (List.mem_append_left _ h)
  · rcases List.mem_cons.mp h with rfl | h
    · exact .inr (.inr ⟨last, List.mem_append_right _ List.mem_cons_self, first,
        List.mem_cons_self, rfl⟩)
    · exact .inr (.inl (List.mem_cons_of_mem _ h))

theorem subset_of_mem_pieces {cs part : List Char} (h : part ∈ pieces cs) : part ⊆ cs := by
  induction cs generalizing part with
  | nil =>
    rw [List.mem_singleton.mp h]
    exact List.Subset.refl _
  | cons c cs ih =>
    by_cases hc : c = '/'
    · rw [hc, pieces_slash] at h
      rcases List.mem_cons.mp h with rfl | h
      · exact List.nil_subset _
      · exact List.Subset.trans (ih h) (List.subset_cons_self _ _)
    · obtain ⟨first, others, hparts⟩ := List.exists_cons_of_ne_nil (pieces_ne_nil cs)
      rw [pieces_cons hc hparts] at h
      rw [hparts] at ih
      rcases List.mem_cons.mp h with rfl | h
      · exact List.cons_subset_cons _ (ih List.mem_cons_self)
      · exact List.Subset.trans (ih (List.mem_cons_of_mem _ h)) (List.subset_cons_self _ _)

/-- every character but the slash is in a part -/
theorem exists_part_of_mem {cs : List Char} {c : Char} (hc : c ≠ '/') (h : c ∈ cs) :
    ∃ part ∈ pieces cs, c ∈ part := by
  induction cs with
  | nil => exact absurd h List.not_mem_nil
  | cons d cs ih =>
    by_cases hd : d = '/'
    · obtain ⟨part, hpart, hmem⟩ := ih ((List.mem_cons.mp h).resolve_left (hd ▸ hc))
      rw [hd, pieces_slash]
      exact ⟨part, List.mem_cons_of_mem _ hpart, hmem⟩
    · obtain ⟨first, others, hparts⟩ := List.exists_cons_of_ne_nil (pieces_ne_nil cs)
      rw [pieces_cons hd hparts]
      rw [hparts] at ih
      rcases List.mem_cons.mp h with rfl | h
      · exact ⟨_, List.mem_cons_self, List.mem_cons_self⟩
      · obtain ⟨part, hpart, hmem⟩ := ih h
        rcases List.mem_cons.mp hpart with rfl | hpart
        · exact ⟨_, List.mem_cons_self, List.mem_cons_of_mem _ hmem⟩
        · exact ⟨part, List.mem_cons_of_mem _ hpart, hmem⟩

/-- and the last one at the end of a part -/
theorem exists_part_concat (cs : List Char) {c : Char} (hc : c ≠ '/') :
    ∃ part ∈ pieces (cs ++ [c]), part.getLast? = some c := by
  obtain ⟨before, last, hcs⟩ := (List.eq_nil_or_concat (pieces cs)).resolve_left (pieces_ne_nil cs)
  rw [List.concat_eq_append] at hcs
  have hone : pieces [c] = [[c]] := pieces_of_not_mem (by simpa using hc.symm)
  rw [pieces_append hcs hone]
  exact ⟨last ++ [c], List.mem_append_right _ List.mem_cons_self, List.getLast?_concat⟩

theorem mem_componentsOf_name {cs : List Char} {s : String} :
    .name s ∈ componentsOf cs ↔ .name s ∈ (pieces cs).filterMap component? := by
  obtain ⟨first, rest, hparts⟩ := List.exists_cons_of_ne_nil (pieces_ne_nil cs)
  unfold componentsOf
  simp only [hparts]
  split
  · rename_i habs
    obtain ⟨cs, rfl⟩ := List.head?_eq_some_iff.mp habs
    rw [pieces_slash] at hparts
    obtain ⟨rfl, -⟩ := List.cons.inj hparts
    simp [component?]
  · split
    · rename_i hdot
      simp [hdot, component?]
    · exact Iff.rfl

theorem component?_eq_name {part : List Char} {s : String} (h : component? part = some (.name s)) :
    part = s.toList := by
  unfold component? at h
  split at h
  · cases h
  · split at h
    · cases h
    · cases h
      exact String.toList_ofList.symm

/-! ## kinds of parts -/

/-- the parts that tell are the names -/
theorem partsAre_iff (hQ : IsKind Q) :
    p.PartsAre Q ↔ ∀ s, .name s ∈ p.components → Q s.toList := by
  constructor
  · intro h s hs
    obtain ⟨part, hpart, hname⟩ := List.mem_filterMap.mp (mem_componentsOf_name.mp hs)
    exact component?_eq_name hname ▸ h part hpart
  · intro h part hpart
    by_cases hnone : part = [] ∨ part = ['.']
    · rcases hnone with rfl | rfl
      · exact hQ.empty
      · exact hQ.current
    · by_cases hdots : part = ['.', '.']
      · exact hdots ▸ hQ.parent
      · have hname : component? part = some (.name (String.ofList part)) := by
          rw [component?, if_neg hnone, if_neg hdots]
        have hmem := h _ (mem_componentsOf_name.mpr (List.mem_filterMap.mpr ⟨part, hpart, hname⟩))
        rwa [String.toList_ofList] at hmem

namespace PartsAre

variable (hQ : IsKind Q)

include hQ

theorem append {a b : String} (ha : (⟨a⟩ : Path).PartsAre Q) (hb : (⟨b⟩ : Path).PartsAre Q) :
    (⟨a ++ b⟩ : Path).PartsAre Q := by
  intro part hpart
  change part ∈ pieces (a ++ b).toList at hpart
  rw [String.toList_append] at hpart
  rcases mem_pieces_append hpart with h | h | ⟨x, hx, y, hy, rfl⟩
  · exact ha part h
  · exact hb part h
  · exact hQ.append (ha x hx) (hb y hy)

theorem join (hp : p.PartsAre Q) (hq : (⟨specifier⟩ : Path).PartsAre Q) :
    (p.join specifier).PartsAre Q := by
  have hslash : (⟨"/"⟩ : Path).PartsAre Q := by
    intro part hpart
    have hpart' : part ∈ [[], []] := hpart
    have hempty : part = [] := by simpa using hpart'
    exact hempty ▸ hQ.empty
  unfold Path.join
  split
  · exact hq
  · split
    · exact append hQ hp hq
    · exact append hQ (append hQ hp hslash) hq

theorem of_components (h : p.PartsAre Q)
    (hq : ∀ s, .name s ∈ q.components → .name s ∈ p.components) : q.PartsAre Q :=
  (partsAre_iff hQ).mpr fun s hs => (partsAre_iff hQ).mp h s (hq s hs)

end PartsAre

/-- normalizing makes no names -/
theorem mem_of_mem_foldl {cs done : List Component} {s : String}
    (h : .name s ∈ cs.foldl Component.fold done) : .name s ∈ done ∨ .name s ∈ cs := by
  induction cs generalizing done with
  | nil => exact .inl h
  | cons c cs ih =>
    rcases ih h with hfold | hcs
    · cases c with
      | current => exact .inl hfold
      | root => exact .inl ((List.mem_cons.mp hfold).resolve_left (by simp))
      | name t =>
        rcases List.mem_cons.mp hfold with he | hdone
        · exact .inr (he ▸ List.mem_cons_self)
        · exact .inl hdone
      | parent =>
        by_cases hname : ∃ t rest, done = .name t :: rest
        · obtain ⟨t, rest, rfl⟩ := hname
          exact .inl (List.mem_cons_of_mem _ hfold)
        · rw [fold_parent_of_no_name fun t rest he => hname ⟨t, rest, he⟩] at hfold
          split at hfold
          · exact .inl hfold
          · exact .inl ((List.mem_cons.mp hfold).resolve_left (by simp))
    · exact .inr (List.mem_cons_of_mem _ hcs)

namespace PartsAre

variable (hQ : IsKind Q)

include hQ

theorem normalize (h : p.PartsAre Q) : p.normalize.PartsAre Q := by
  refine of_components hQ h fun s hs => ?_
  rw [components_normalize, normalComponents, List.mem_reverse] at hs
  exact (mem_of_mem_foldl hs).resolve_left List.not_mem_nil

theorem parent (h : p.PartsAre Q) (hq : p.parent? = some q) : q.PartsAre Q := by
  refine of_components hQ h fun s hs => ?_
  rw [(components_parent? hq).1] at hs
  exact List.dropLast_subset _ hs

end PartsAre

/-- **What a specifier may stand for is of the kind** of the directory, the specifier and the
extensions. -/
theorem partsAre_of_mem_candidates (hQ : IsKind Q) {extensions : List String}
    (hextensions : ∀ e ∈ extensions, (⟨e⟩ : Path).PartsAre Q) (hbase : base.PartsAre Q)
    (hspecifier : (⟨specifier⟩ : Path).PartsAre Q) (hp : p ∈ candidates extensions base specifier) :
    p.PartsAre Q := by
  have hplain := (hbase.join hQ hspecifier).normalize hQ
  rcases List.mem_cons.mp hp with rfl | hp
  · exact hplain
  · obtain ⟨e, he, rfl⟩ := List.mem_map.mp hp
    exact hplain.append hQ (hextensions e he)

/-! ## paths without `\`, and paths in which it does no harm -/

def NoBackslash (part : List Char) : Prop := '\\' ∉ part

def EndsWell (part : List Char) : Prop := part.getLast? ≠ some '\\'

instance : DecidablePred NoBackslash := fun part => inferInstanceAs (Decidable ('\\' ∉ part))

instance : DecidablePred EndsWell :=
  fun part => inferInstanceAs (Decidable (part.getLast? ≠ some '\\'))

def IsUnix (p : Path) : Prop := p.PartsAre NoBackslash

def IsTidy (p : Path) : Prop := p.PartsAre EndsWell

theorem isKind_noBackslash : IsKind NoBackslash where
  empty := List.not_mem_nil
  current := by decide
  parent := by decide
  append ha hb h := (List.mem_append.mp h).elim ha hb

theorem isKind_endsWell : IsKind EndsWell where
  empty := by decide
  current := by decide
  parent := by decide
  append {a b} ha hb := by
    unfold EndsWell at ha hb ⊢
    rcases List.eq_nil_or_concat b with rfl | ⟨before, c, rfl⟩
    · rwa [List.append_nil]
    · rwa [List.getLast?_append_of_ne_nil a (by simp)]

theorem isUnix_iff : p.IsUnix ↔ '\\' ∉ p.text.toList := by
  constructor
  · intro h hmem
    obtain ⟨part, hpart, hin⟩ := exists_part_of_mem (by decide) hmem
    exact h part hpart hin
  · exact fun h part hpart hmem => h (subset_of_mem_pieces hpart hmem)

theorem IsUnix.isTidy (h : p.IsUnix) : p.IsTidy :=
  fun part hpart hlast => h part hpart (List.mem_of_getLast? hlast)

end Bindle.Path
