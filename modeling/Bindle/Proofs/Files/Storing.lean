import Bindle.Table
import Mathlib.Data.List.Perm.Basic

/-!
# Many insertions

`Table.insertAll t pairs` puts pairs into a table one after the other.  Of two with one key the later
counts (`get?_insertAll`), and nothing changes exactly when all that counts was there already
(`insertAll_eq_self_iff`).
-/

namespace Bindle.Table

variable {α : Type}

/-! ## tables by their values -/

theorem lookup_eq_some_iff {entries : List (String × α)}
    (h : entries.Pairwise (fun a b => a.1 < b.1)) {k : String} {v : α} :
    lookup k entries = some v ↔ (k, v) ∈ entries := by
  induction entries with
  | nil => simp [lookup]
  | cons e rest ih =>
    obtain ⟨k', v'⟩ := e
    obtain ⟨hfirst, hrest⟩ := List.pairwise_cons.mp h
    unfold lookup
    split
    · rename_i hk
      subst hk
      rw [List.mem_cons]
      constructor
      · intro hv
        exact .inl (by rw [Option.some.inj hv])
      · rintro (he | hmem)
        · rw [(Prod.mk.inj he).2]
        · exact absurd (hfirst _ hmem) (String.lt_irrefl k')
    · rename_i hk
      rw [ih hrest, List.mem_cons]
      constructor
      · exact .inr
      · rintro (he | hmem)
        · exact absurd (Prod.mk.inj he).1.symm hk
        · exact hmem

theorem lookup_eq_none_iff {entries : List (String × α)} {k : String} :
    lookup k entries = none ↔ ∀ e ∈ entries, e.1 ≠ k := by
  induction entries with
  | nil => simp [lookup]
  | cons e rest ih =>
    obtain ⟨k', v⟩ := e
    rw [List.forall_mem_cons, lookup]
    split
    · rename_i hk
      simp [hk]
    · rename_i hk
      rw [ih]
      exact ⟨fun h => ⟨hk, h⟩, And.right⟩

theorem mem_keys {t : Table α} {k : String} : k ∈ t.keys ↔ t.contains k = true := by
  rw [contains, Option.isSome_iff_ne_none, Ne, get?, lookup_eq_none_iff]
  simp [keys]

theorem contains_insert {t : Table α} {k k' : String} {v : α} :
    (t.insert k v).contains k' = true ↔ k = k' ∨ t.contains k' = true := by
  unfold contains
  rw [get?_insert]
  by_cases hk : k = k'
  · simp [hk]
  · simp [hk]

/-- keys that are changed without making two of them equal -/
theorem lookup_map_fst {f : String → String} (hf : Function.Injective f) (k : String)
    (entries : List (String × α)) :
    lookup (f k) (entries.map (fun e => (f e.1, e.2))) = lookup k entries := by
  induction entries with
  | nil => rfl
  | cons e rest ih =>
    obtain ⟨k', v⟩ := e
    rw [List.map_cons, lookup, lookup, ih]
    by_cases hk : k' = k
    · rw [if_pos hk, if_pos (congrArg f hk)]
    · rw [if_neg hk, if_neg fun he => hk (hf he)]

theorem nodup_entries (t : Table α) : t.entries.Nodup := by
  refine t.sorted.imp ?_
  rintro a _ hab rfl
  exact String.lt_irrefl a.1 hab

/-- a table is known by the values of its keys -/
theorem ext_get? {t t' : Table α} (h : ∀ k, t.get? k = t'.get? k) : t = t' := by
  have hmem : ∀ e, e ∈ t.entries ↔ e ∈ t'.entries := by
    rintro ⟨k, v⟩
    rw [← lookup_eq_some_iff t.sorted, ← lookup_eq_some_iff t'.sorted]
    exact iff_of_eq (congrArg (· = some v) (h k))
  have hperm : t.entries.Perm t'.entries :=
    (List.perm_ext_iff_of_nodup t.nodup_entries t'.nodup_entries).mpr hmem
  have hentries : t.entries = t'.entries :=
    hperm.eq_of_pairwise (fun a b _ _ hab hba => absurd hba (String.lt_asymm hab)) t.sorted t'.sorted
  cases t
  cases t'
  cases hentries
  rfl

/-! ## many pairs -/

def insertAll (t : Table α) (pairs : List (String × α)) : Table α :=
  pairs.foldl (fun t e => t.insert e.1 e.2) t

theorem lookup_append (k : String) (pairs more : List (String × α)) :
    lookup k (pairs ++ more) = (lookup k pairs).or (lookup k more) := by
  induction pairs with
  | nil => rfl
  | cons e rest ih =>
    obtain ⟨k', v⟩ := e
    rw [List.cons_append, lookup, lookup]
    split
    · rfl
    · exact ih

/-- the last value that a key was given, or else the old one -/
theorem get?_insertAll (t : Table α) (pairs : List (String × α)) (k : String) :
    (t.insertAll pairs).get? k = (lookup k pairs.reverse).or (t.get? k) := by
  induction pairs generalizing t with
  | nil => rfl
  | cons e rest ih =>
    obtain ⟨k', v⟩ := e
    show ((t.insert k' v).insertAll rest).get? k = _
    rw [ih, List.reverse_cons, lookup_append, Option.or_assoc, get?_insert, lookup]
    split
    · rfl
    · rfl

theorem insertAll_eq_self_iff {t : Table α} {pairs : List (String × α)} :
    t.insertAll pairs = t ↔ ∀ k v, lookup k pairs.reverse = some v → t.get? k = some v := by
  constructor
  · intro h k v hv
    rw [← h, get?_insertAll, hv]
    rfl
  · intro h
    refine ext_get? (fun k => ?_)
    rw [get?_insertAll]
    cases hv : lookup k pairs.reverse with
    | none => rfl
    | some v => exact (h k v hv).symm

end Bindle.Table
