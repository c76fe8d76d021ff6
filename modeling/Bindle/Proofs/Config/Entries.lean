import Bindle.Config.Reader
import Bindle.Proofs.Json.Steady
import Mathlib.Data.List.Nodup

/-!
# Named entries as they are written

The entries of a configuration are an object from chunk names to paths.  They are kept as written,
in their order, however the strings are spelled and whatever else the configuration says.

* `accepts field value`     the text is a value of that field, and nothing else;
* `Frame`                   a configuration with its entry left out, as an object or as an array;
* `Frame.Writes`            the texts of it, given the text of the entry;
* `WritesPairs pairs value` an object of strings with these keys and values;
* `Frame.exists_base`       what a frame says of the other fields does not depend on the entry;
* `ofText_named`            names that are distinct are kept with their paths, others are refused.
-/

namespace Bindle.Config

open Json Json.Read

/-! ## the readers of the fields -/

theorem steady_readComponent (depth : Nat) : Steady (readComponent depth) := by
  refine (steady_value depth).bind fun v => ?_
  split
  · exact steady_pure _
  · exact steady_raise _

theorem steady_output (depth : Nat) : Steady (record outputShape depth) :=
  steady_record (fun _ _ _ => steady_text.bind fun _ => steady_pure _) depth

theorem steady_rule (depth : Nat) : Steady (record ruleShape depth) := by
  refine steady_record (fun depth field r => ?_) depth
  dsimp only [ruleShape]
  split
  · exact steady_text.bind fun _ => steady_pure _
  · exact (steady_list steady_readComponent depth).bind fun _ => steady_pure _

theorem steady_rules (depth : Nat) : Steady (record rulesShape depth) :=
  steady_record (fun depth _ _ => steady_list steady_rule depth) depth

theorem steady_extensions (depth : Nat) : Steady (record extensionsShape depth) :=
  steady_record (fun depth _ _ => steady_list (fun _ => steady_text) depth) depth

/-- how many brackets may be opened in the value of a field -/
def inside : Nat := nesting - 1

/-- the text is a value of that field of a configuration, and nothing else -/
def accepts (field : String) (value : List Char) : Bool :=
  match shape.read inside field shape.empty ⟨value, 0⟩ with
  | .ok _ t => t.chars.isEmpty
  | .error _ _ => false

/-- a change of a configuration that leaves its entry alone -/
def LeavesEntry (u : Config → Config) : Prop :=
  ∀ c e, u { c with entry := e } = { u c with entry := e }

/-- a text that a field accepts alone is its value wherever it stands -/
theorem exists_fieldReads {β : Type} {field : String} {p : Read β} (set : Config → β → Config)
    (hread : ∀ c, shape.read inside field c = (do return set c (← p))) (hp : Steady p)
    (hknown : field ∈ shape.fields) (hset : ∀ x, LeavesEntry (set · x)) {value : List Char}
    (h : accepts field value = true) :
    ∃ u, shape.FieldReads inside (field, value) u ∧ LeavesEntry u := by
  unfold accepts at h
  split at h
  · rename_i c t hc
    rw [hread] at hc
    obtain ⟨x, s, hx, hpure⟩ := bind_eq_ok.mp hc
    cases hpure
    refine ⟨(set · x), ⟨hknown, fun c more hmore => ?_⟩, hset x⟩
    have hx := hp value 0 x t hx more hmore
    rw [List.isEmpty_iff.mp h] at hx
    rw [hread]
    exact hx.bind (.pure _ _)
  · cases h

/-- the fields besides the entry, in their order -/
def otherFields : List String := ["output", "module", "resolve", "plugins"]

theorem ne_entry_of_mem {field : String} (h : field ∈ otherFields) : field ≠ "entry" := by
  rintro rfl
  exact absurd h (by decide)

/-- **The other fields are read apart from the entry.** -/
theorem exists_leavesEntry {field : String} (hfield : field ∈ otherFields) {value : List Char}
    (h : accepts field value = true) :
    ∃ u, shape.FieldReads inside (field, value) u ∧ LeavesEntry u := by
  simp only [otherFields, List.mem_cons, List.not_mem_nil, or_false] at hfield
  rcases hfield with rfl | rfl | rfl | rfl
  · exact exists_fieldReads (fun c x => { c with output := x }) (fun _ => rfl)
      (steady_output inside) (by decide) (fun _ _ _ => rfl) h
  · exact exists_fieldReads (fun c x => { c with rules := x }) (fun _ => rfl)
      (steady_rules inside) (by decide) (fun _ _ _ => rfl) h
  · exact exists_fieldReads (fun c x => { c with extensions := x }) (fun _ => rfl)
      (steady_extensions inside) (by decide) (fun _ _ _ => rfl) h
  · exact exists_fieldReads (fun c x => { c with plugins := x }) (fun _ => rfl)
      (steady_list steady_readComponent inside) (by decide) (fun _ _ _ => rfl) h

theorem exists_forall₂_leavesEntry {fields : List (String × List Char)}
    (h : ∀ f ∈ fields, f.1 ∈ otherFields ∧ accepts f.1 f.2 = true) :
    ∃ us, List.Forall₂ (shape.FieldReads inside) fields us ∧ ∀ u ∈ us, LeavesEntry u := by
  induction fields with
  | nil => exact ⟨[], .nil, fun _ hu => absurd hu List.not_mem_nil⟩
  | cons f fields ih =>
    obtain ⟨us, hus, hleave⟩ := ih fun g hg => h g (List.mem_cons_of_mem _ hg)
    obtain ⟨hfield, haccepts⟩ := h f List.mem_cons_self
    obtain ⟨u, hu, huleave⟩ := exists_leavesEntry hfield haccepts
    refine ⟨u :: us, .cons hu hus, fun v hv => ?_⟩
    rcases List.mem_cons.mp hv with rfl | hv
    · exact huleave
    · exact hleave v hv

theorem foldl_leavesEntry {us : List (Config → Config)} (h : ∀ u ∈ us, LeavesEntry u) (c : Config)
    (e : Entry) :
    us.foldl (fun r u => u r) { c with entry := e } =
      { us.foldl (fun r u => u r) c with entry := e } := by
  induction us generalizing c with
  | nil => rfl
  | cons u us ih =>
    rw [List.foldl_cons, List.foldl_cons, h u List.mem_cons_self c e]
    exact ih (fun v hv => h v (List.mem_cons_of_mem _ hv)) (u c)

/-! ## the entry -/

/-- the value of the field with the entries, read from its text -/
theorem fieldReads_entry {value : List Char} {e : Entry}
    (h : ∀ more, Stops more → Reads (readEntry inside) (value ++ more) e more) :
    shape.FieldReads inside ("entry", value) (fun c => { c with entry := e }) :=
  ⟨show "entry" ∈ shape.fields by decide, fun c more hmore => (h more hmore).bind (.pure _ _)⟩

theorem refuses_entry {value : List Char}
    (h : ∀ more, Stops more → Refuses (readEntry inside) (value ++ more)) (c : Config)
    (more : List Char) (hmore : Stops more) :
    Refuses (shape.read inside "entry" c) (value ++ more) :=
  (h more hmore).bind

/-- a string with white space in front of it -/
def WritesString (s : String) (text : List Char) : Prop :=
  ∃ w k, IsBlank w ∧ Quotes k s ∧ text = w ++ k

/-- an object with these keys and strings, in their order -/
def WritesPairs (pairs : List (String × String)) (text : List Char) : Prop :=
  ∃ fields w t,
    List.Forall₂ (fun f x => f.1 = x.1 ∧ WritesString x.2 f.2) fields pairs ∧
      IsBlank w ∧ WritesObject fields t ∧ text = w ++ t

theorem pairsOf?_strings (pairs : List (String × String)) :
    pairsOf? (pairs.map fun x => (x.1, .string x.2)) =
      if (pairs.map Prod.fst).Nodup then some pairs else none := by
  induction pairs with
  | nil => rfl
  | cons x pairs ih =>
    obtain ⟨name, path⟩ := x
    have hany : ((pairs.map fun x => (x.1, Json.string x.2)).any (·.1 = name)) = true ↔
        name ∈ pairs.map Prod.fst := by
      simp only [List.any_map, List.any_eq_true, Function.comp_apply, decide_eq_true_eq,
        List.mem_map]
    rw [List.map_cons, pairsOf?]
    simp only [hany, ih, List.map_cons, List.nodup_cons]
    by_cases hmem : name ∈ pairs.map Prod.fst
    · rw [if_pos hmem, if_neg fun h => h.1 hmem]
    · rw [if_neg hmem]
      split
      · rename_i hnodup
        rw [if_pos ⟨hmem, hnodup⟩]
        rfl
      · rename_i hrepeated
        rw [if_neg fun h => hrepeated h.2]
        rfl

theorem reads_readEntry_single {path : String} {value : List Char} (h : WritesString path value)
    (more : List Char) : Reads (readEntry inside) (value ++ more) (.single path) more := by
  obtain ⟨w, k, hw, hk, rfl⟩ := h
  rw [List.append_assoc]
  exact (reads_value_string hw hk _ more).bind (.pure _ _)

/-- the object is read as a value, in which every key still is -/
theorem reads_value_pairs {pairs : List (String × String)} {value : List Char}
    (h : WritesPairs pairs value) (more : List Char) :
    Reads (Read.value inside) (value ++ more) (.object (pairs.map fun x => (x.1, .string x.2)))
      more := by
  obtain ⟨fields, w, t, hfields, hw, ht, rfl⟩ := h
  rw [List.append_assoc]
  have hread : ReadAs (Read.value (inside - 1)) fields (pairs.map fun x => (x.1, .string x.2)) := by
    rw [ReadAs, List.forall₂_map_right_iff]
    refine hfields.imp fun f x hfx => ⟨hfx.1, fun more _ => ?_⟩
    obtain ⟨w, k, hw, hk, hf⟩ := hfx.2
    rw [hf, List.append_assoc]
    exact reads_value_string hw hk _ more
  exact reads_value_object hw hread ht more

theorem reads_readEntry_named {pairs : List (String × String)} {value : List Char}
    (h : WritesPairs pairs value) (hdistinct : (pairs.map Prod.fst).Nodup) (more : List Char) :
    Reads (readEntry inside) (value ++ more) (.named pairs) more := by
  refine (reads_value_pairs h more).bind ?_
  rw [Entry.ofJson?, pairsOf?_strings, if_pos hdistinct]
  exact .pure _ _

theorem refuses_readEntry_named {pairs : List (String × String)} {value : List Char}
    (h : WritesPairs pairs value) (hrepeated : ¬(pairs.map Prod.fst).Nodup) (more : List Char) :
    Refuses (readEntry inside) (value ++ more) := by
  refine (reads_value_pairs h more).bind_refuses ?_
  rw [Entry.ofJson?, pairsOf?_strings, if_neg hrepeated]
  exact refuses_raise _ _

/-! ## configurations around an entry -/

/-- a configuration with its entry left out: the names and texts of the fields in front of it and
behind it, or the texts of the items behind it -/
inductive Frame where
  | object (before after : List (String × List Char))
  | array (items : List (List Char))

namespace Frame

/-- the other fields with the texts of their values -/
def others : Frame → List (String × List Char)
  | object before after => before ++ after
  | array items => otherFields.zip items

/-- nothing is wrong with the configuration besides its entry: the fields are there, each at most
once, with values that they accept -/
def Valid (frame : Frame) : Prop :=
  (∀ f ∈ frame.others, f.1 ∈ otherFields ∧ accepts f.1 f.2 = true) ∧
    match frame with
    | object before after => ((before ++ after).map Prod.fst).Nodup
    | array items => items.length ≤ otherFields.length

instance : (frame : Frame) → Decidable frame.Valid
  | object before after => inferInstanceAs (Decidable
      ((∀ f ∈ before ++ after, f.1 ∈ otherFields ∧ accepts f.1 f.2 = true) ∧
        ((before ++ after).map Prod.fst).Nodup))
  | array items => inferInstanceAs (Decidable
      ((∀ f ∈ otherFields.zip items, f.1 ∈ otherFields ∧ accepts f.1 f.2 = true) ∧
        items.length ≤ otherFields.length))

/-- the texts of a configuration, given the text of its entry -/
inductive Writes : Frame → List Char → List Char → Prop where
  | object {before after : List (String × List Char)} {entry t w w' : List Char} (hw : IsBlank w)
      (hw' : IsBlank w') (h : WritesFields true (before ++ ("entry", entry) :: after) t) :
      Writes (object before after) entry (w ++ '\x7b' :: (t ++ w'))
  | array {items : List (List Char)} {entry t w w' : List Char} (hw : IsBlank w)
      (hw' : IsBlank w') (h : WritesItems true (entry :: items) t) :
      Writes (array items) entry (w ++ '[' :: (t ++ w'))

/-- no field is there twice once the entry is -/
theorem nodup_entry {before after : List (String × List Char)} {entry : List Char}
    (hknown : ∀ f ∈ before ++ after, f.1 ∈ otherFields)
    (hdistinct : ((before ++ after).map Prod.fst).Nodup) :
    ((before ++ ("entry", entry) :: after).map Prod.fst).Nodup := by
  have hnew : "entry" ∉ (before ++ after).map Prod.fst := by
    intro h
    obtain ⟨f, hf, hentry⟩ := List.mem_map.mp h
    exact ne_entry_of_mem (hknown f hf) hentry
  rw [List.map_append] at hnew hdistinct ⊢
  rw [List.map_cons, List.nodup_middle, List.nodup_cons]
  exact ⟨hnew, hdistinct⟩

/-- **What a frame says of the other fields does not depend on the entry.** -/
theorem exists_base {frame : Frame} (h : frame.Valid) :
    ∃ base : Config, ∀ e entry text,
      (∀ more, Stops more → Reads (readEntry inside) (entry ++ more) e more) →
      frame.Writes entry text → ofText (String.ofList text) = .ok { base with entry := e } := by
  cases frame with
  | object before after =>
    obtain ⟨hothers, hdistinct⟩ := h
    obtain ⟨us, hus, -⟩ := exists_forall₂_leavesEntry fun f hf =>
      hothers f (List.mem_append_left _ hf)
    obtain ⟨vs, hvs, hleave⟩ := exists_forall₂_leavesEntry fun f hf =>
      hothers f (List.mem_append_right _ hf)
    refine ⟨vs.foldl (fun r u => u r) (us.foldl (fun r u => u r) shape.empty),
      fun e entry text hentry htext => ?_⟩
    cases htext with
    | object hw hw' ht =>
      have hread := List.rel_append hus (.cons (fieldReads_entry hentry) hvs)
      have hrequired : ∀ name ∈ shape.required,
          name ∈ (before ++ ("entry", entry) :: after).map Prod.fst := by
        intro name hname
        rw [List.mem_singleton.mp hname]
        exact List.mem_map.mpr ⟨_, List.mem_append_right _ List.mem_cons_self, rfl⟩
      have hfields := Shape.reads_byName hread
        (nodup_entry (fun f hf => (hothers f hf).1) hdistinct) hrequired ht
      rw [List.foldl_append, List.foldl_cons, foldl_leavesEntry hleave] at hfields
      exact decode_of_reads (reads_record_object hw (hfields _)) hw'
  | array items =>
    obtain ⟨hothers, hlength⟩ := h
    obtain ⟨us, hus, hleave⟩ := exists_forall₂_leavesEntry hothers
    refine ⟨us.foldl (fun r u => u r) shape.empty, fun e entry text hentry htext => ?_⟩
    cases htext with
    | @array _ _ t _ w' hw hw' ht =>
      have hread : List.Forall₂ (shape.FieldReads inside) (shape.fields.zip (entry :: items))
          ((fun c => { c with entry := e }) :: us) := .cons (fieldReads_entry hentry) hus
      have hrest : ∀ name ∈ shape.fields.drop (entry :: items).length, name ∉ shape.required := by
        intro name hname hrequired
        have hother : name ∈ otherFields := List.mem_of_mem_drop hname
        exact ne_entry_of_mem hother (List.mem_singleton.mp hrequired)
      obtain ⟨b, hb, hitems⟩ := Shape.reads_inOrder hread (Nat.succ_le_succ hlength) hrest 0
        shape.empty ht w'
      rw [List.foldl_cons, foldl_leavesEntry hleave] at hitems
      exact decode_of_reads (reads_record_array hw (hitems.closedBy (reads_closeList hb _))) hw'

/-- an entry that cannot be read leaves no configuration -/
theorem refuses_writes {frame : Frame} (h : frame.Valid) {entry text : List Char}
    (hentry : ∀ more, Stops more → Refuses (readEntry inside) (entry ++ more))
    (htext : frame.Writes entry text) : ∃ e, ofText (String.ofList text) = .error e := by
  cases htext with
  | @object before after entry t w w' hw hw' ht =>
    obtain ⟨hothers, hdistinct⟩ := h
    obtain ⟨us, hus, -⟩ := exists_forall₂_leavesEntry fun f hf =>
      hothers f (List.mem_append_left _ hf)
    have hfields := Shape.refuses_byName hus
      (nodup_entry (fun f hf => (hothers f hf).1) hdistinct) (show "entry" ∈ shape.fields by decide)
      (refuses_entry hentry) ht w'
    exact decode_of_refuses (refuses_record_object hw hfields)
  | @array items entry t w w' hw hw' ht =>
    have hitems : Refuses (shape.inOrder inside 0 shape.fields shape.empty) (t ++ w') :=
      Shape.refuses_inOrder (refuses_entry hentry) shape.empty ht w'
    exact decode_of_refuses (refuses_record_array hw hitems.closedBy)

end Frame

/-- **Named entries are kept exactly.**  A frame that is valid is a configuration with a path as its
entry; with an object of strings it is one if and only if the names are distinct, and then the
entries are these pairs in the order of the text. -/
theorem ofText_named (frame : Frame) (hframe : frame.Valid) :
    ∃ base : Config,
      (∀ path entry text, WritesString path entry → frame.Writes entry text →
        ofText (String.ofList text) = .ok { base with entry := .single path }) ∧
      ∀ pairs entry text, WritesPairs pairs entry → frame.Writes entry text →
        ((∃ c, ofText (String.ofList text) = .ok c) ↔ (pairs.map Prod.fst).Nodup) ∧
        ∀ c, ofText (String.ofList text) = .ok c →
          c = { base with entry := .named pairs } ∧ c.entry.pairs = pairs := by
  obtain ⟨base, hbase⟩ := Frame.exists_base hframe
  refine ⟨base, fun path entry text hentry htext => ?_, fun pairs entry text hentry htext => ?_⟩
  · exact hbase _ _ _ (fun more _ => reads_readEntry_single hentry more) htext
  by_cases hdistinct : (pairs.map Prod.fst).Nodup
  · have hok := hbase _ _ _ (fun more _ => reads_readEntry_named hentry hdistinct more) htext
    refine ⟨⟨fun _ => hdistinct, fun _ => ⟨_, hok⟩⟩, fun c hc => ?_⟩
    rw [hok] at hc
    cases hc
    exact ⟨rfl, rfl⟩
  · obtain ⟨e, he⟩ := Frame.refuses_writes hframe
      (fun more _ => refuses_readEntry_named hentry hdistinct more) htext
    have hnone : ¬∃ c, ofText (String.ofList text) = .ok c := fun ⟨c, hc⟩ => by
      rw [he] at hc
      cases hc
    exact ⟨⟨fun h => absurd h hnone, fun h => absurd h hdistinct⟩, fun c hc => absurd ⟨c, hc⟩ hnone⟩

/-- an output path in front of the entry, no plugins behind it -/
def outputFrame : Frame :=
  .object [("output", " \x7b\"path\":\"out\"\x7d".toList)] [("plugins", " []".toList)]

/-- two entries; the second has its name `a` spelled by a code -/
def spelledEntries (name : Char) : List Char :=
  " \x7b\"".toList ++ name :: "\": \"./b.js\" ,\n\"\\u0061\":\"./a.js\"\x7d".toList

def spelledText (name : Char) : List Char :=
  "\x7b\"output\": \x7b\"path\":\"out\"\x7d, \"entry\":".toList ++
    (spelledEntries name ++ ",\"plugins\": []\x7d\n".toList)

theorem writesPairs_spelledEntries {name : Char} (h : isPlain name = true) :
    WritesPairs [(String.ofList [name], "./b.js"), ("a", "./a.js")] (spelledEntries name) := by
  have hpaths : List.Forall₂ (fun f x => f.1 = x.1 ∧ WritesString x.2 f.2)
      [(String.ofList [name], " \"./b.js\"".toList), ("a", "\"./a.js\"".toList)]
      [(String.ofList [name], "./b.js"), ("a", "./a.js")] :=
    .cons ⟨rfl, [' '], _, by decide, quotes_of_isPlain (t := "./b.js".toList) (by decide), rfl⟩ <|
      .cons ⟨rfl, [], _, isBlank_nil, quotes_of_isPlain (t := "./a.js".toList) (by decide), rfl⟩
        .nil
  have hfirst : Opens true [] := isBlank_nil
  have hcomma : Opens false " ,\n".toList := ⟨[' '], ['\n'], by decide, by decide, rfl⟩
  have hplain := quotes_of_isPlain (t := [name]) (by rw [List.all_cons, h]; rfl)
  have hdigits : Digits "0061".toList 97 := ⟨by decide, by decide, by decide⟩
  have hcode : Quotes "\"\\u0061\"".toList "a" :=
    ⟨_, .code hdigits (by decide) (by decide) .nil, rfl⟩
  exact ⟨_, [' '], _, hpaths, by decide, ⟨_, .field hfirst hplain isBlank_nil
    (.field hcomma hcode isBlank_nil (.close isBlank_nil)), rfl⟩, rfl⟩

theorem writes_spelledText (name : Char) :
    outputFrame.Writes (spelledEntries name) (spelledText name) := by
  have hfirst : Opens true [] := isBlank_nil
  have hspaced : Opens false ", ".toList := ⟨[], [' '], by decide, by decide, rfl⟩
  have hcomma : Opens false [','] := ⟨[], [], by decide, by decide, rfl⟩
  have hfields : WritesFields true ([("output", " \x7b\"path\":\"out\"\x7d".toList)] ++
      ("entry", spelledEntries name) :: [("plugins", " []".toList)]) _ :=
    .field hfirst (quotes_of_isPlain (t := "output".toList) (by decide)) isBlank_nil
      (.field hspaced (quotes_of_isPlain (t := "entry".toList) (by decide)) isBlank_nil
        (.field hcomma (quotes_of_isPlain (t := "plugins".toList) (by decide)) isBlank_nil
          (.close isBlank_nil)))
  have hwrites := Frame.Writes.object isBlank_nil (show IsBlank ['\n'] by decide) hfields
  exact hwrites

theorem ofText_named_spelled :
    outputFrame.Valid ∧
      (∃ c, ofText (String.ofList (spelledText 'b')) = .ok c ∧
        c.entry.pairs = [("b", "./b.js"), ("a", "./a.js")]) ∧
      ¬∃ c, ofText (String.ofList (spelledText 'a')) = .ok c := by
  have hvalid : outputFrame.Valid := by decide +kernel
  obtain ⟨base, -, hnamed⟩ := ofText_named outputFrame hvalid
  obtain ⟨hread, hkept⟩ :=
    hnamed _ _ _ (writesPairs_spelledEntries (by decide)) (writes_spelledText 'b')
  obtain ⟨hrepeated, -⟩ :=
    hnamed _ _ _ (writesPairs_spelledEntries (by decide)) (writes_spelledText 'a')
  obtain ⟨c, hc⟩ := hread.mpr (by decide)
  exact ⟨hvalid, ⟨c, hc, (hkept c hc).2⟩, fun h => absurd (hrepeated.mp h) (by decide)⟩

end Bindle.Config
