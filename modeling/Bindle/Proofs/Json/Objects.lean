import Bindle.Proofs.Json.Spelling
import Mathlib.Data.List.Forall2

/-!
# How objects and arrays may be written

White space may stand around every piece.  A field or an item is given by the text of its value, so
that a reader of objects is judged apart from the readers of the values.

* `IsBlank w`                      white space;
* `Opens first p`                  what stands in front of a field or an item: a comma, unless it is
                                   the first one;
* `Stops more`                     a text that no value goes on with;
* `WritesFields first fields t`    fields and the closing brace;
* `WritesItems first items t`      items and the closing bracket;
* `reads_fields`, `reads_byName`   objects are read field by field;
* `reads_inOrder`                  arrays are read item by item;
* `refuses_byName`, `refuses_inOrder`   nothing is read if a value cannot be.
-/

namespace Bindle.Json

open Bindle.Text Read

variable {α σ : Type} {w cs text : List Char} {first : Bool}

/-! ## white space -/

def IsBlank (w : List Char) : Prop := ∀ c ∈ w, isJsonSpace c = true

instance (w : List Char) : Decidable (IsBlank w) :=
  decidable_of_iff (w.all isJsonSpace = true) List.all_eq_true

theorem isBlank_nil : IsBlank [] := fun _ h => absurd h List.not_mem_nil

theorem reads_skipSpace (hw : IsBlank w) {c : Char} (hc : isJsonSpace c = false)
    (cs : List Char) : Reads skipSpace (w ++ c :: cs) (some c) (c :: cs) := fun i => by
  have hdrop : (w ++ c :: cs).dropWhile isJsonSpace = c :: cs := by
    rw [List.dropWhile_append_of_pos hw, List.dropWhile_cons_of_neg (by rw [hc]; decide)]
  exact ⟨i + spaceLength (w ++ c :: cs), by simp only [skipSpace, hdrop, List.head?_cons]⟩

theorem reads_skipSpace_end (hw : IsBlank w) : Reads skipSpace w none [] := fun i => by
  have hdrop : w.dropWhile isJsonSpace = [] := by
    rw [← List.append_nil w, List.dropWhile_append_of_pos hw, List.dropWhile_nil]
  exact ⟨i + spaceLength w, by simp only [skipSpace, hdrop, List.head?_nil]⟩

theorem reads_next (c : Char) (cs : List Char) : Reads next (c :: cs) () cs := fun _ => ⟨_, rfl⟩

/-! ## what stands between fields and items -/

/-- what stands in front of a field or an item -/
def Opens (first : Bool) (p : List Char) : Prop :=
  if first then IsBlank p else ∃ w w', IsBlank w ∧ IsBlank w' ∧ p = w ++ ',' :: w'

theorem Opens.reads_hasField {p : List Char} (h : Opens first p) (cs : List Char) :
    Reads (hasField first) (p ++ '\x22' :: cs) true ('\x22' :: cs) := by
  cases first with
  | true => exact (reads_skipSpace h (by decide) cs).bind (.pure _ _)
  | false =>
    obtain ⟨w, w', hw, hw', rfl⟩ := h
    rw [List.append_assoc, List.cons_append]
    refine (reads_skipSpace hw (by decide) _).bind ?_
    refine (reads_next ',' _).bind ?_
    exact (reads_skipSpace hw' (by decide) cs).bind (.pure _ _)

theorem reads_hasField_end (hw : IsBlank w) (first : Bool) (cs : List Char) :
    Reads (hasField first) (w ++ '\x7d' :: cs) false ('\x7d' :: cs) :=
  (reads_skipSpace hw (by decide) cs).bind (.pure _ _)

theorem reads_colon (hw : IsBlank w) (cs : List Char) : Reads colon (w ++ ':' :: cs) () cs :=
  (reads_skipSpace hw (by decide) _).bind (reads_next _ _)

theorem reads_closeObject (cs : List Char) : Reads closeObject ('\x7d' :: cs) () cs :=
  (reads_skipSpace isBlank_nil (by decide) cs).bind (reads_next _ _)

/-- a text that no value goes on with: no number takes its first character -/
def Stops (more : List Char) : Prop :=
  ∀ c ∈ more.head?, isDecimalDigit c = false ∧ c ≠ '.' ∧ c ≠ 'e' ∧ c ≠ 'E'

theorem Stops.of_blank_append (hw : IsBlank w) {more : List Char} (h : Stops more) :
    Stops (w ++ more) := by
  cases w with
  | nil => exact h
  | cons c w =>
    intro d hd
    obtain rfl : c = d := Option.some.inj hd
    have hc := hw c List.mem_cons_self
    simp only [isJsonSpace, Bool.or_eq_true, beq_iff_eq] at hc
    rcases hc with ((rfl | rfl) | rfl) | rfl <;> decide

/-! ## fields -/

/-- fields and the brace behind them; each has a key and the text of its value -/
inductive WritesFields : Bool → List (String × List Char) → List Char → Prop where
  | close {first : Bool} {w : List Char} (hw : IsBlank w) : WritesFields first [] (w ++ ['\x7d'])
  | field {first : Bool} {p k w value text : List Char} {key : String}
      {fields : List (String × List Char)} (hp : Opens first p) (hk : Quotes k key)
      (hw : IsBlank w) (h : WritesFields false fields text) :
      WritesFields first ((key, value) :: fields) (p ++ (k ++ (w ++ ':' :: (value ++ text))))

theorem WritesFields.stops {fields : List (String × List Char)} {t : List Char}
    (h : WritesFields false fields t) (more : List Char) : Stops (t ++ more) := by
  cases h with
  | close hw =>
    rw [List.append_assoc]
    exact .of_blank_append hw (by rintro c ⟨⟩; decide)
  | field hp =>
    obtain ⟨w, w', hw, -, rfl⟩ := hp
    simp only [List.append_assoc]
    exact .of_blank_append hw (by rintro c ⟨⟩; decide)

theorem WritesFields.length_le {fields : List (String × List Char)} {t : List Char}
    (h : WritesFields first fields t) : fields.length < t.length := by
  induction h with
  | close => simp
  | field =>
    simp only [List.length_cons, List.length_append]
    omega

/-- the reader stands before the key once it has passed what is in front of it -/
theorem Opens.reads_key {p k : List Char} {key : String} (hp : Opens first p) (hk : Quotes k key)
    (cs : List Char) : Reads (hasField first) (p ++ (k ++ cs)) true (k ++ cs) := by
  obtain ⟨t, -, rfl⟩ := hk
  exact hp.reads_hasField _

/-- the reader `p` reads the texts of fields as the values `xs`, whatever stands behind them -/
def ReadAs (p : Read α) (fields : List (String × List Char)) (xs : List (String × α)) : Prop :=
  List.Forall₂ (fun f x => f.1 = x.1 ∧ ∀ more, Stops more → Reads p (f.2 ++ more) x.2 more)
    fields xs

/-- one turn of the reading of an object -/
def fieldStep (p : Read α) (acc : List (String × α) × Bool) :
    Read (Option (List (String × α) × Bool)) := do
  if acc.2 then return none
  if ← hasField acc.1.isEmpty then
    let key ← readString
    colon
    return some ((key, ← p) :: acc.1, false)
  else return some (acc.1, true)

theorem loops_fieldStep {p : Read α} {fields : List (String × List Char)} {xs : List (String × α)}
    (hread : ReadAs p fields xs) (seen : List (String × α)) {t : List Char}
    (ht : WritesFields seen.isEmpty fields t) (more : List Char) :
    Loops (fieldStep p) (fields.length + 2) (seen, false) (t ++ more)
      (xs.reverse ++ seen, true) ('\x7d' :: more) := by
  induction hread generalizing t seen with
  | nil =>
    cases ht with
    | close hw =>
      rw [List.append_assoc]
      exact .more ((reads_hasField_end hw _ more).bind (.pure _ _)) (.stop (.pure _ _))
  | @cons f x fields xs hfx _ ih =>
    obtain ⟨key, value⟩ := f
    obtain ⟨key', a⟩ := x
    obtain ⟨rfl, hvalue⟩ := hfx
    cases ht with
    | field hp hk hw hlater =>
      have hloops := ih ((key, a) :: seen) hlater
      simp only [List.append_assoc, List.cons_append, List.reverse_cons, List.nil_append]
      refine .more ((hp.reads_key hk _).bind ?_) hloops
      refine (reads_readString hk _).bind ?_
      refine (reads_colon hw _).bind ?_
      exact (hvalue _ (hlater.stops more)).bind (.pure _ _)

/-- **An object is read field by field**, in the order in which its fields are written. -/
theorem reads_fields {p : Read α} {fields : List (String × List Char)} {xs : List (String × α)}
    (hread : ReadAs p fields xs) {t : List Char} (ht : WritesFields true fields t)
    (more : List Char) : Reads (closedBy (Read.fields p) closeObject) (t ++ more) xs more := by
  have hlength := ht.length_le
  have hloops := loops_fieldStep hread [] ht more
  refine Reads.closedBy ((hloops.iterate ?_).bind ?_) (reads_closeObject more)
  · rw [List.length_append]
    omega
  · show Reads (pure (xs.reverse ++ []).reverse) _ xs _
    rw [List.append_nil, List.reverse_reverse]
    exact .pure _ _

/-! ## structures -/

namespace Shape

variable {shape : Shape σ} {depth : Nat}

/-- the field `f` has a known name, and reading the text of its value changes the structure by `u`,
whatever stands behind it -/
def FieldReads (shape : Shape σ) (depth : Nat) (f : String × List Char) (u : σ → σ) : Prop :=
  f.1 ∈ shape.fields ∧ ∀ record more, Stops more →
    Reads (shape.read depth f.1 record) (f.2 ++ more) (u record) more

/-- one turn of the reading of a structure by the names of its fields -/
def nameStep (shape : Shape σ) (depth : Nat) (acc : List String × σ × Bool) :
    Read (Option (List String × σ × Bool)) := do
  let (seen, record, done) := acc
  if done then return none
  if ← hasField seen.isEmpty then
    let key ← readString
    if !shape.fields.contains key then raise (.unknownField key shape.fields)
    if seen.contains key then raise (.repeatedField key)
    colon
    return some (key :: seen, ← shape.read depth key record, false)
  else return some (seen, record, true)

section

variable {seen : List String} {record : σ} {p k w value text : List Char} {name : String}
  (hp : Opens seen.isEmpty p) (hk : Quotes k name) (hw : IsBlank w) (hknown : name ∈ shape.fields)
  (hnew : name ∉ seen)

include hp hk hw hknown hnew

/-- a turn comes to the value of the field -/
theorem nameStep_eq (i : Nat) : ∃ j,
    nameStep shape depth (seen, record, false) ⟨p ++ (k ++ (w ++ ':' :: (value ++ text))), i⟩ =
      (do return some (name :: seen, ← shape.read depth name record, false) : Read _)
        ⟨value ++ text, j⟩ := by
  obtain ⟨j, hj⟩ := hp.reads_key hk (w ++ ':' :: (value ++ text)) i
  obtain ⟨j', hj'⟩ := reads_readString hk (w ++ ':' :: (value ++ text)) j
  obtain ⟨j'', hj''⟩ := reads_colon hw (value ++ text) j'
  have hcontains : shape.fields.contains name = true := List.contains_iff_mem.mpr hknown
  have hnot : seen.contains name = false :=
    Bool.eq_false_iff.mpr fun h => hnew (List.contains_iff_mem.mp h)
  refine ⟨j'', ?_⟩
  unfold nameStep
  dsimp only
  rw [if_neg (by decide), bind_of_ok hj, if_pos rfl, bind_of_ok hj']
  simp only [hcontains, hnot, Bool.not_true, Bool.false_eq_true, if_false]
  rw [bind_of_ok hj'']

theorem reads_nameStep {record' : σ}
    (hread : Reads (shape.read depth name record) (value ++ text) record' text) :
    Reads (nameStep shape depth (seen, record, false)) (p ++ (k ++ (w ++ ':' :: (value ++ text))))
      (some (name :: seen, record', false)) text := fun i => by
  obtain ⟨j, hj⟩ := nameStep_eq hp hk hw hknown hnew i
  obtain ⟨j', hj'⟩ := hread j
  exact ⟨j', by rw [hj, bind_of_ok hj']; rfl⟩

theorem refuses_nameStep (hread : Refuses (shape.read depth name record) (value ++ text)) :
    Refuses (nameStep shape depth (seen, record, false))
      (p ++ (k ++ (w ++ ':' :: (value ++ text)))) := fun i => by
  obtain ⟨j, hj⟩ := nameStep_eq hp hk hw hknown hnew i
  obtain ⟨e, t, he⟩ := hread j
  exact ⟨e, t, by rw [hj, bind_of_error he]⟩

end

/-- the names of fields that can all be read are seen, and each has changed the structure in turn -/
theorem loops_nameStep {fields : List (String × List Char)} {us : List (σ → σ)}
    (hread : List.Forall₂ (shape.FieldReads depth) fields us)
    (hdistinct : (fields.map Prod.fst).Nodup) (seen : List String) (record : σ)
    (hnew : ∀ f ∈ fields, f.1 ∉ seen) {t : List Char} (ht : WritesFields seen.isEmpty fields t)
    (more : List Char) :
    Loops (nameStep shape depth) (fields.length + 2) (seen, record, false) (t ++ more)
      ((fields.map Prod.fst).reverse ++ seen, us.foldl (fun r u => u r) record, true)
      ('\x7d' :: more) := by
  induction hread generalizing seen record t with
  | nil =>
    cases ht with
    | close hw =>
      rw [List.append_assoc]
      exact .more ((reads_hasField_end hw _ more).bind (.pure _ _)) (.stop (.pure _ _))
  | @cons f u fields us hfu _ ih =>
    obtain ⟨hfirst, hothers⟩ := List.nodup_cons.mp hdistinct
    cases ht with
    | @field _ _ _ _ value _ name _ hp hk hw hlater =>
      have hloops := ih hothers (name :: seen) (u record) (fun f hf => by
        rw [List.mem_cons, not_or]
        exact ⟨fun he => hfirst (List.mem_map.mpr ⟨f, hf, he⟩), hnew f (List.mem_cons_of_mem _ hf)⟩)
        hlater
      simp only [List.append_assoc, List.cons_append, List.map_cons, List.reverse_cons,
        List.nil_append, List.foldl_cons]
      refine .more (reads_nameStep hp hk hw hfu.1 (hnew _ List.mem_cons_self) ?_) hloops
      exact hfu.2 record _ (hlater.stops more)

/-- a field whose value cannot be read ends the reading -/
theorem breaks_nameStep {before after : List (String × List Char)} {us : List (σ → σ)}
    {name : String} {value : List Char} (hread : List.Forall₂ (shape.FieldReads depth) before us)
    (hdistinct : ((before ++ (name, value) :: after).map Prod.fst).Nodup)
    (hknown : name ∈ shape.fields)
    (hrefuse : ∀ record more, Stops more → Refuses (shape.read depth name record) (value ++ more))
    (seen : List String) (record : σ) (hnew : ∀ f ∈ before ++ (name, value) :: after, f.1 ∉ seen)
    {t : List Char} (ht : WritesFields seen.isEmpty (before ++ (name, value) :: after) t)
    (more : List Char) : Breaks (nameStep shape depth) (seen, record, false) (t ++ more) := by
  induction hread generalizing seen record t with
  | nil =>
    cases ht with
    | field hp hk hw hlater =>
      simp only [List.append_assoc, List.cons_append]
      exact .here (refuses_nameStep hp hk hw hknown (hnew _ List.mem_cons_self)
        (hrefuse record _ (hlater.stops more)))
  | @cons f u before us hfu _ ih =>
    rw [List.cons_append] at hdistinct hnew ht
    obtain ⟨hfirst, hothers⟩ := List.nodup_cons.mp hdistinct
    cases ht with
    | @field _ _ _ _ value' _ name' _ hp hk hw hlater =>
      have hbreaks := ih hothers (name' :: seen) (u record) (fun f hf => by
        rw [List.mem_cons, not_or]
        exact ⟨fun he => hfirst (List.mem_map.mpr ⟨f, hf, he⟩), hnew f (List.mem_cons_of_mem _ hf)⟩)
        hlater
      simp only [List.append_assoc, List.cons_append]
      refine .later (reads_nameStep hp hk hw hfu.1 (hnew _ List.mem_cons_self) ?_) hbreaks
      exact hfu.2 record _ (hlater.stops more)

/-- **A structure is read by its fields, whatever their order**, if none is there twice and no
required one is missing. -/
theorem reads_byName {fields : List (String × List Char)} {us : List (σ → σ)}
    (hread : List.Forall₂ (shape.FieldReads depth) fields us)
    (hdistinct : (fields.map Prod.fst).Nodup)
    (hrequired : ∀ name ∈ shape.required, name ∈ fields.map Prod.fst) {t : List Char}
    (ht : WritesFields true fields t) (more : List Char) :
    Reads (closedBy (shape.byName depth) closeObject) (t ++ more)
      (us.foldl (fun r u => u r) shape.empty) more := by
  have hlength := ht.length_le
  have hloops := loops_nameStep hread hdistinct [] shape.empty (fun _ _ => List.not_mem_nil) ht more
  refine Reads.closedBy ((hloops.iterate ?_).bind ?_) (reads_closeObject more)
  · rw [List.length_append]
    omega
  · have hnone : shape.required.find? (fun name =>
        !((fields.map Prod.fst).reverse ++ []).contains name) = none := by
      refine List.find?_eq_none.mpr fun name hname => ?_
      rw [List.append_nil, List.contains_reverse, List.contains_iff_mem.mpr (hrequired name hname)]
      decide
    dsimp only
    rw [hnone]
    exact .pure _ _

theorem refuses_byName {before after : List (String × List Char)} {us : List (σ → σ)}
    {name : String} {value : List Char} (hread : List.Forall₂ (shape.FieldReads depth) before us)
    (hdistinct : ((before ++ (name, value) :: after).map Prod.fst).Nodup)
    (hknown : name ∈ shape.fields)
    (hrefuse : ∀ record more, Stops more → Refuses (shape.read depth name record) (value ++ more))
    {t : List Char} (ht : WritesFields true (before ++ (name, value) :: after) t)
    (more : List Char) :
    Refuses (closedBy (shape.byName depth) closeObject) (t ++ more) := by
  have hbreaks := breaks_nameStep hread hdistinct hknown hrefuse [] shape.empty
    (fun _ _ => List.not_mem_nil) ht more
  exact Refuses.closedBy hbreaks.iterate.bind

end Shape

/-! ## arrays -/

/-- items and the bracket behind them; an item begins with a character that is no white space and
not the bracket -/
inductive WritesItems : Bool → List (List Char) → List Char → Prop where
  | close {first : Bool} {w : List Char} (hw : IsBlank w) : WritesItems first [] (w ++ [']'])
  | item {first : Bool} {p item text : List Char} {items : List (List Char)} {c : Char}
      (hp : Opens first p) (hc : item.head? = some c) (hblank : isJsonSpace c = false)
      (hclose : c ≠ ']') (h : WritesItems false items text) :
      WritesItems first (item :: items) (p ++ (item ++ text))

theorem WritesItems.stops {items : List (List Char)} {t : List Char}
    (h : WritesItems false items t) (more : List Char) : Stops (t ++ more) := by
  cases h with
  | close hw =>
    rw [List.append_assoc]
    exact .of_blank_append hw (by rintro c ⟨⟩; decide)
  | item hp =>
    obtain ⟨w, w', hw, -, rfl⟩ := hp
    simp only [List.append_assoc]
    exact .of_blank_append hw (by rintro c ⟨⟩; decide)

theorem Opens.reads_hasItem {p : List Char} (hp : Opens first p) {c : Char}
    (hblank : isJsonSpace c = false) (hclose : c ≠ ']') (cs : List Char) :
    Reads (hasItem first) (p ++ c :: cs) true (c :: cs) := by
  have hsome : some c ≠ some ']' := fun h => hclose (Option.some.inj h)
  cases first with
  | true =>
    refine (reads_skipSpace hp hblank cs).bind ?_
    split
    · contradiction
    · contradiction
    · exact .pure _ _
  | false =>
    obtain ⟨w, w', hw, hw', rfl⟩ := hp
    rw [List.append_assoc, List.cons_append]
    refine (reads_skipSpace hw (by decide) _).bind ?_
    refine (reads_next ',' _).bind ?_
    refine (reads_skipSpace hw' hblank cs).bind ?_
    split
    · contradiction
    · exact .pure _ _
    · contradiction

theorem reads_hasItem_end {w : List Char} (hw : IsBlank w) (first : Bool) (cs : List Char) :
    Reads (hasItem first) (w ++ ']' :: cs) false (']' :: cs) :=
  (reads_skipSpace hw (by decide) cs).bind (.pure _ _)

theorem reads_closeList {w : List Char} (hw : IsBlank w) (cs : List Char) :
    Reads closeList (w ++ ']' :: cs) () cs :=
  (reads_skipSpace hw (by decide) cs).bind (reads_next _ _)

namespace Shape

variable {shape : Shape σ} {depth : Nat}

/-- names that are not required take no items -/
theorem reads_inOrder_end (names : List String) (hnames : ∀ name ∈ names, name ∉ shape.required)
    (hw : IsBlank w) (i : Nat) (record : σ) (more : List Char) :
    ∃ w', IsBlank w' ∧
      Reads (shape.inOrder depth i names record) (w ++ ']' :: more) record (w' ++ ']' :: more) := by
  induction names generalizing w i with
  | nil => exact ⟨w, hw, .pure _ _⟩
  | cons name names ih =>
    have hnot : shape.required.contains name = false :=
      Bool.eq_false_iff.mpr fun h => hnames name List.mem_cons_self (List.contains_iff_mem.mp h)
    obtain ⟨w', hw', hrest⟩ :=
      ih (fun n hn => hnames n (List.mem_cons_of_mem _ hn)) isBlank_nil (i + 1)
    refine ⟨w', hw', (reads_hasItem_end hw (i == 0) more).bind ?_⟩
    rw [if_neg (by decide), hnot, if_neg (by decide)]
    exact hrest

/-- **A structure is read by the items of an array**, in the order of its fields. -/
theorem reads_inOrder {items : List (List Char)} {names : List String} {us : List (σ → σ)}
    (hread : List.Forall₂ (shape.FieldReads depth) (names.zip items) us)
    (hlength : items.length ≤ names.length)
    (hrest : ∀ name ∈ names.drop items.length, name ∉ shape.required) (i : Nat) (record : σ)
    {t : List Char} (ht : WritesItems (i == 0) items t) (more : List Char) :
    ∃ w, IsBlank w ∧ Reads (shape.inOrder depth i names record) (t ++ more)
      (us.foldl (fun r u => u r) record) (w ++ ']' :: more) := by
  induction names generalizing items us i record t with
  | nil =>
    obtain rfl := List.eq_nil_of_length_eq_zero (Nat.le_zero.mp hlength)
    cases hread
    cases ht with
    | @close _ w hw => exact ⟨w, hw, by rw [List.append_assoc]; exact .pure _ _⟩
  | cons name names ih =>
    cases ht with
    | close hw =>
      cases hread
      rw [List.append_assoc]
      exact reads_inOrder_end _ hrest hw i record more
    | @item _ p item text items c hp hc hblank hclose hlater =>
      rw [List.zip_cons_cons] at hread
      cases hread with
      | @cons _ u _ us hfirst hothers =>
        obtain ⟨w, hw, hreads⟩ :=
          ih hothers (Nat.le_of_succ_le_succ hlength) hrest (i + 1) (u record) hlater
        obtain ⟨cs, rfl⟩ : ∃ cs, item = c :: cs := List.head?_eq_some_iff.mp hc
        refine ⟨w, hw, ?_⟩
        simp only [List.append_assoc]
        refine (hp.reads_hasItem hblank hclose _).bind ?_
        rw [if_pos rfl]
        exact (hfirst.2 record _ (hlater.stops more)).bind hreads

theorem refuses_inOrder {name : String} {names : List String} {item : List Char}
    {items : List (List Char)}
    (hrefuse : ∀ record more, Stops more → Refuses (shape.read depth name record) (item ++ more))
    (record : σ) {t : List Char} (ht : WritesItems true (item :: items) t) (more : List Char) :
    Refuses (shape.inOrder depth 0 (name :: names) record) (t ++ more) := by
  cases ht with
  | @item _ p _ text _ c hp hc hblank hclose hlater =>
    obtain ⟨cs, rfl⟩ : ∃ cs, item = c :: cs := List.head?_eq_some_iff.mp hc
    simp only [List.append_assoc]
    refine (hp.reads_hasItem hblank hclose _).bind_refuses ?_
    rw [if_pos rfl]
    exact (hrefuse record _ (hlater.stops more)).bind

end Shape

/-! ## values and whole texts -/

/-- an object whose fields are written in this order -/
def WritesObject (fields : List (String × List Char)) (text : List Char) : Prop :=
  ∃ t, WritesFields true fields t ∧ text = '\x7b' :: t

theorem reads_value_string (hw : IsBlank w) {k : List Char} {s : String} (hk : Quotes k s)
    (depth : Nat) (cs : List Char) : Reads (value depth) (w ++ (k ++ cs)) (.string s) cs := by
  have hscalar : Reads (scalar '\x22') (k ++ cs) (.string s) cs :=
    (reads_readString hk cs).bind (.pure _ _)
  obtain ⟨t, ht, rfl⟩ := hk
  cases depth <;> exact (reads_skipSpace hw (by decide) _).bind hscalar

theorem reads_value_object (hw : IsBlank w) {depth : Nat} {fields : List (String × List Char)}
    {xs : List (String × Json)} (hread : ReadAs (value depth) fields xs)
    (ht : WritesObject fields text) (cs : List Char) :
    Reads (value (depth + 1)) (w ++ (text ++ cs)) (.object xs) cs := by
  obtain ⟨t, ht, rfl⟩ := ht
  refine (reads_skipSpace hw (by decide) (t ++ cs)).bind ?_
  refine (reads_next _ _).bind ?_
  exact (reads_fields hread ht cs).bind (.pure _ _)

section

variable {shape : Shape σ} {depth : Nat} {a : σ} {t rest : List Char} (hw : IsBlank w)

include hw

/-- a structure in braces -/
theorem reads_record_object (h : Reads (closedBy (shape.byName depth) closeObject) t a rest) :
    Reads (record shape (depth + 1)) (w ++ '\x7b' :: t) a rest :=
  (reads_skipSpace hw (by decide) t).bind ((reads_next _ _).bind h).settle

theorem refuses_record_object (h : Refuses (closedBy (shape.byName depth) closeObject) t) :
    Refuses (record shape (depth + 1)) (w ++ '\x7b' :: t) :=
  (reads_skipSpace hw (by decide) t).bind_refuses ((reads_next _ _).bind_refuses h).settle

/-- a structure in brackets -/
theorem reads_record_array
    (h : Reads (closedBy (shape.inOrder depth 0 shape.fields shape.empty) closeList) t a rest) :
    Reads (record shape (depth + 1)) (w ++ '[' :: t) a rest :=
  (reads_skipSpace hw (by decide) t).bind ((reads_next _ _).bind h).settle

theorem refuses_record_array
    (h : Refuses (closedBy (shape.inOrder depth 0 shape.fields shape.empty) closeList) t) :
    Refuses (record shape (depth + 1)) (w ++ '[' :: t) :=
  (reads_skipSpace hw (by decide) t).bind_refuses ((reads_next _ _).bind_refuses h).settle

end

theorem decode_of_reads {p : Nat → Read α} {a : α} (h : Reads (p nesting) text a w)
    (hw : IsBlank w) : decode (String.ofList text) p = .ok a := by
  have hfinish : Reads finish w () [] := (reads_skipSpace_end hw).bind (.pure _ _)
  have hwhole : Reads (do let a ← p nesting; finish; return a : Read α) text a [] :=
    h.bind (hfinish.bind (.pure a []))
  obtain ⟨j, hj⟩ := hwhole 0
  rw [decode, run, String.toList_ofList, hj]

theorem decode_of_refuses {p : Nat → Read α} (h : Refuses (p nesting) text) :
    ∃ e, decode (String.ofList text) p = .error e := by
  obtain ⟨e, t, he⟩ := h 0
  refine ⟨⟨e.problem, e.index.map (placeAt text)⟩, ?_⟩
  rw [decode, run, String.toList_ofList, bind_of_error he]

end Bindle.Json
