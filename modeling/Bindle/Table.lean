/-!
# Tables

A `Table α` holds one value for each of finitely many texts.  Its entries are in the order of
their keys, and characters are ordered as their UTF-8 bytes are, so this is also the order of the
bytes.

* `Table.get? t k`        the value of a key;
* `Table.insert t k v`    gives a key its only value;
* `Table.erase t k`       takes a key out;
* `Table.firstFrom t k`   the first key that is not below `k`;
* `Table.keys t`          all keys, each once, in order.
-/

namespace Bindle

structure Table (α : Type) where
  entries : List (String × α)
  sorted : entries.Pairwise (fun a b => a.1 < b.1)

namespace Table

variable {α : Type}

def empty : Table α := ⟨[], .nil⟩

instance : Inhabited (Table α) := ⟨empty⟩

instance : EmptyCollection (Table α) := ⟨empty⟩

def keys (t : Table α) : List String := t.entries.map (·.1)

def size (t : Table α) : Nat := t.entries.length

def isEmpty (t : Table α) : Bool := t.entries.isEmpty

/-- the value of a key in a list of pairs -/
def lookup (k : String) : List (String × α) → Option α
  | [] => none
  | (k', v) :: rest => if k' = k then some v else lookup k rest

def get? (t : Table α) (k : String) : Option α := lookup k t.entries

def contains (t : Table α) (k : String) : Bool := (t.get? k).isSome

def firstFrom (t : Table α) (k : String) : Option String :=
  (t.entries.find? (fun e => decide (k ≤ e.1))).map (·.1)

/-! ## insertion -/

def insertEntry (k : String) (v : α) : List (String × α) → List (String × α)
  | [] => [(k, v)]
  | (k', v') :: rest =>
    if k < k' then (k, v) :: (k', v') :: rest
    else if k = k' then (k, v) :: rest
    else (k', v') :: insertEntry k v rest

theorem mem_insertEntry {k : String} {v : α} {es : List (String × α)} {e : String × α}
    (h : e ∈ insertEntry k v es) : e = (k, v) ∨ e ∈ es := by
  induction es with
  | nil => simpa [insertEntry] using h
  | cons f rest ih =>
    obtain ⟨k', v'⟩ := f
    unfold insertEntry at h
    split at h
    · simpa using h
    · split at h
      · simp only [List.mem_cons] at h ⊢
        exact h.imp_right .inr
      · simp only [List.mem_cons] at h ⊢
        rcases h with h | h
        · exact .inr (.inl h)
        · exact (ih h).imp_right .inr

theorem sorted_insertEntry (k : String) (v : α) {es : List (String × α)}
    (h : es.Pairwise (fun a b => a.1 < b.1)) :
    (insertEntry k v es).Pairwise (fun a b => a.1 < b.1) := by
  induction es with
  | nil => simp [insertEntry]
  | cons f rest ih =>
    obtain ⟨k', v'⟩ := f
    have h' := List.pairwise_cons.mp h
    unfold insertEntry
    split
    · rename_i hlt
      refine List.pairwise_cons.mpr ⟨?_, h⟩
      intro e he
      rcases List.mem_cons.mp he with rfl | he
      · exact hlt
      · exact String.lt_trans hlt (h'.1 e he)
    · split
      · rename_i heq
        subst heq
        exact List.pairwise_cons.mpr ⟨h'.1, h'.2⟩
      · rename_i hlt heq
        refine List.pairwise_cons.mpr ⟨?_, ih h'.2⟩
        intro e he
        rcases mem_insertEntry he with rfl | he
        · rcases String.le_total k' k with hle | hle
          · by_cases hk : k' < k
            · exact hk
            · exact absurd (String.le_antisymm (String.not_lt.mp hk) hle) heq
          · exact absurd (String.le_antisymm hle (String.not_lt.mp hlt)) heq
        · exact h'.1 e he

def insert (t : Table α) (k : String) (v : α) : Table α :=
  ⟨insertEntry k v t.entries, sorted_insertEntry k v t.sorted⟩

theorem lookup_insertEntry (k : String) (v : α) (es : List (String × α)) (k' : String) :
    es.Pairwise (fun a b => a.1 < b.1) →
      lookup k' (insertEntry k v es) = if k = k' then some v else lookup k' es := by
  intro hs
  induction es with
  | nil => simp [insertEntry, lookup]
  | cons f rest ih =>
    obtain ⟨j, w⟩ := f
    have hs' := List.pairwise_cons.mp hs
    unfold insertEntry
    split
    · simp [lookup]
    · split
      · rename_i hkj
        subst hkj
        by_cases hk : k = k' <;> simp [lookup, hk]
      · rename_i hkj
        simp only [lookup, ih hs'.2]
        by_cases hj : j = k'
        · subst hj
          simp [hkj]
        · simp [hj]

@[simp] theorem get?_insert (t : Table α) (k : String) (v : α) (k' : String) :
    (t.insert k v).get? k' = if k = k' then some v else t.get? k' :=
  lookup_insertEntry k v t.entries k' t.sorted

@[simp] theorem get?_empty (k : String) : (empty : Table α).get? k = none := rfl

/-- a later pair with the same key wins -/
def ofList (es : List (String × α)) : Table α := es.foldl (fun t e => t.insert e.1 e.2) empty

/-! ## removal -/

def erase (t : Table α) (k : String) : Table α :=
  ⟨t.entries.filter (·.1 ≠ k), t.sorted.filter _⟩

theorem lookup_filter (k : String) (es : List (String × α)) (k' : String) :
    lookup k' (es.filter (·.1 ≠ k)) = if k = k' then none else lookup k' es := by
  induction es with
  | nil => simp [lookup]
  | cons f rest ih =>
    obtain ⟨j, w⟩ := f
    by_cases hj : j = k
    · subst hj
      by_cases hk : j = k' <;> simp_all [lookup]
    · by_cases hk : k = k'
      · subst hk
        simp_all [lookup]
      · simp_all [lookup]

@[simp] theorem get?_erase (t : Table α) (k k' : String) :
    (t.erase k).get? k' = if k = k' then none else t.get? k' := lookup_filter k t.entries k'

end Table

end Bindle
