import Bindle.Proofs.Emission.Memory
import Bindle.Proofs.Text.ByteOrder

/-!
# What writing leaves behind

Assets are written in the order of their names, each under the key of its path.

* `Emission.stored`     the files after some assets have been written;
* `Emission.IsLast`     the asset that counts, of all with one key (`get?_stored`);
* `Emission.StopsAt`    the three ways to fail: with the output directory, with the directory of an
                        asset, and with the asset.

Main result: `Emission.effect_emit`.
-/

namespace Bindle

/-- what stands before an element of a list that is put together from others -/
theorem exists_of_flatMap_eq {α β : Type} {f : α → List β} {xs : List α} {before after : List β}
    {y : β} (h : xs.flatMap f = before ++ y :: after) :
    ∃ done x rest begun more, xs = done ++ x :: rest ∧ before = done.flatMap f ++ begun ∧
      f x = begun ++ y :: more := by
  induction xs generalizing before with
  | nil => exact absurd h.symm (List.append_ne_nil_of_right_ne_nil _ (List.cons_ne_nil _ _))
  | cons x xs ih =>
    rw [List.flatMap_cons] at h
    rcases List.append_eq_append_iff.mp h with ⟨later, rfl, hrest⟩ | ⟨more, hx, hrest⟩
    · obtain ⟨done, x', rest, begun, more, rfl, rfl, hx'⟩ := ih hrest
      exact ⟨x :: done, x', rest, begun, more, rfl, (List.append_assoc _ _ _).symm, hx'⟩
    · cases more with
      | nil =>
        have hnext : xs.flatMap f = [] ++ y :: after := hrest.symm
        obtain ⟨done, x', rest, begun, more, rfl, hbegun, hx'⟩ := ih hnext
        refine ⟨x :: done, x', rest, begun, more, rfl, ?_, hx'⟩
        rw [List.flatMap_cons, List.append_assoc, ← hbegun, hx, List.append_nil, List.append_nil]
      | cons y' more =>
        obtain ⟨rfl, -⟩ := List.cons.inj hrest
        exact ⟨[], x, xs, before, more, rfl, rfl, hx⟩

namespace Emission

variable {output : Path} {assets : Table String} {m m' : Memory}

/-! ## what is stored -/

/-- the key under which an asset is written -/
def keyOf (output : Path) (filename : String) : String := Memory.key (assetPath output filename)

/-- files after assets have been written to them -/
def stored (output : Path) (files : Table Content) (es : List (String × String)) : Table Content :=
  es.foldl (fun files e => files.insert (keyOf output e.1) (.text e.2)) files

/-- the asset `last` comes last of those with the key `k` -/
def IsLast (output : Path) (es : List (String × String)) (k : String) (last : String × String) :
    Prop :=
  keyOf output last.1 = k ∧
    ∃ before after, es = before ++ last :: after ∧ ∀ e ∈ after, keyOf output e.1 ≠ k

theorem IsLast.mem {es : List (String × String)} {k : String} {last : String × String}
    (h : IsLast output es k last) : last ∈ es := by
  obtain ⟨-, before, after, rfl, -⟩ := h
  exact List.mem_append_right _ List.mem_cons_self

/-- in the order of the names, the last asset is the one with the last name -/
theorem IsLast.le {es : List (String × String)} {k : String} {last : String × String}
    (h : IsLast output es k last) (hsorted : es.Pairwise (fun a b => a.1 < b.1)) :
    ∀ e ∈ es, keyOf output e.1 = k → e.1 ≤ last.1 := by
  obtain ⟨-, before, after, rfl, hafter⟩ := h
  intro e he hkey
  rcases List.mem_append.mp he with he | he
  · have hlt : e.1 < last.1 := (List.pairwise_append.mp hsorted).2.2 e he last List.mem_cons_self
    exact String.not_lt.mp (String.lt_asymm hlt)
  · rcases List.mem_cons.mp he with rfl | he
    · exact String.le_refl _
    · exact absurd hkey (hafter e he)

/-- **The last asset with a key is stored there, and all other keys keep what they had.** -/
theorem get?_stored (files : Table Content) (es : List (String × String)) (k : String) :
    (∃ last, IsLast output es k last ∧ (stored output files es).get? k = some (.text last.2)) ∨
      (∀ e ∈ es, keyOf output e.1 ≠ k) ∧ (stored output files es).get? k = files.get? k := by
  induction es generalizing files with
  | nil => exact .inr ⟨List.forall_mem_nil _, rfl⟩
  | cons e es ih =>
    rcases ih (files.insert (keyOf output e.1) (.text e.2)) with
      ⟨last, ⟨hkey, before, after, rfl, hafter⟩, hget⟩ | ⟨hnone, hget⟩
    · exact .inl ⟨last, ⟨hkey, e :: before, after, rfl, hafter⟩, hget⟩
    · rw [Table.get?_insert] at hget
      by_cases hkey : keyOf output e.1 = k
      · rw [if_pos hkey] at hget
        exact .inl ⟨e, ⟨hkey, [], es, rfl, hnone⟩, hget⟩
      · rw [if_neg hkey] at hget
        exact .inr ⟨List.forall_mem_cons.mpr ⟨hkey, hnone⟩, hget⟩

/-! ## deeds -/

theorem writes_append (before after : List Deed) :
    writes (before ++ after) = writes before ++ writes after := List.filterMap_append

/-- an asset is written after its directory has been made, where that is not the output directory -/
theorem planAsset_cases (output : Path) (asset : String × String) :
    planAsset output asset = [.write (output.join asset.1) asset.2] ∨
      ∃ d, (output.join asset.1).parent? = some d ∧ d.same output = false ∧
        planAsset output asset = [.createDirs d, .write (output.join asset.1) asset.2] := by
  unfold planAsset directoryFor assetPath
  dsimp only
  cases (output.join asset.1).parent? with
  | none => exact .inl rfl
  | some d =>
    cases hsame : d.same output with
    | true => exact .inl (by simp only [hsame, if_true, List.nil_append])
    | false =>
      exact .inr ⟨d, rfl, hsame, by simp only [hsame, Bool.false_eq_true, if_false]; rfl⟩

theorem writes_planAsset (output : Path) (asset : String × String) :
    writes (planAsset output asset) = [(keyOf output asset.1, .text asset.2)] := by
  rcases planAsset_cases output asset with h | ⟨d, -, -, h⟩
  · rw [h]
    rfl
  · rw [h]
    rfl

theorem writes_assets (output : Path) (es : List (String × String)) :
    writes (es.flatMap (planAsset output)) =
      es.map fun e => (keyOf output e.1, Content.text e.2) := by
  induction es with
  | nil => rfl
  | cons e rest ih => rw [List.flatMap_cons, writes_append, writes_planAsset, ih, List.map_cons]; rfl

/-- what is done for an asset before the deed `d` writes nothing -/
theorem planAsset_split {asset : String × String} {begun more : List Deed} {d : Deed}
    (h : planAsset output asset = begun ++ d :: more) : writes begun = [] ∧
      (d = .write (output.join asset.1) asset.2 ∨
        ∃ q, (output.join asset.1).parent? = some q ∧ q.same output = false ∧
          d = .createDirs q) := by
  rcases planAsset_cases output asset with hplan | ⟨q, hq, hother, hplan⟩
  · rw [hplan] at h
    cases begun with
    | nil => exact ⟨rfl, .inl (List.cons.inj h).1.symm⟩
    | cons b begun => exact absurd (List.cons.inj h).2.symm (by simp)
  · rw [hplan] at h
    cases begun with
    | nil => exact ⟨rfl, .inr ⟨q, hq, hother, (List.cons.inj h).1.symm⟩⟩
    | cons b begun =>
      obtain ⟨rfl, hrest⟩ := List.cons.inj h
      cases begun with
      | nil => exact ⟨rfl, .inl (List.cons.inj hrest).1.symm⟩
      | cons b begun => exact absurd (List.cons.inj hrest).2.symm (by simp)

end Emission

/-- the files after the deeds for some assets, and after others that write nothing -/
theorem Done.files_assets {output : Path} {es : List (String × String)} {others : List Deed}
    {m m' : Memory} (hothers : Emission.writes others = [])
    (h : Done (.createDirs output :: (es.flatMap (Emission.planAsset output) ++ others)) m m') :
    m'.files = Emission.stored output m.files es := by
  rw [h.files_eq, Emission.writes_createDirs, Emission.writes_append, hothers, List.append_nil,
    Emission.writes_assets]
  exact List.foldl_map

theorem Done.files_plan {output : Path} {assets : Table String} {m m' : Memory}
    (h : Done (Emission.plan output assets) m m') :
    m'.files = Emission.stored output m.files assets.entries := by
  rw [Emission.plan, ← List.append_nil (assets.entries.flatMap _)] at h
  exact h.files_assets rfl

namespace Emission

/-! ## where writing stops -/

/-- `StopsAt output assets m before path cause`: with the assets `before` written, and the files as in
`m`, the next thing to do is about `path` and fails -/
inductive StopsAt (output : Path) (assets : Table String) (m : Memory) :
    List (String × String) → Path → FileError → Prop
  | output {cause : FileError} (h : m.createDirs output = .error cause) :
    StopsAt output assets m [] output cause
  | directory {before after : List (String × String)} {asset : String × String} {d : Path}
    {cause : FileError} (hassets : assets.entries = before ++ asset :: after)
    (hparent : (output.join asset.1).parent? = some d) (hother : d.same output = false)
    (h : m.createDirs d = .error cause) : StopsAt output assets m before d cause
  | asset {before after : List (String × String)} {asset : String × String}
    {cause : FileError} (hassets : assets.entries = before ++ asset :: after)
    (h : m.write (output.join asset.1) (.text asset.2) = .error cause) :
    StopsAt output assets m before (output.join asset.1) cause

/-- a deed that fails is one of the three things that can be next -/
theorem exists_stopsAt {before after : List Deed} {d : Deed} {cause : FileError}
    (hplan : plan output assets = before ++ d :: after) (hdone : Done before m m')
    (hd : d.applyTo m' = .error cause) :
    ∃ written, m'.files = stored output m.files written ∧
      StopsAt output assets m' written d.path cause := by
  cases before with
  | nil =>
    obtain ⟨rfl, -⟩ := List.cons.inj hplan
    cases hdone
    rw [Deed.applyTo_createDirs] at hd
    exact ⟨[], rfl, .output hd⟩
  | cons b before =>
    obtain ⟨rfl, hrest⟩ := List.cons.inj hplan
    obtain ⟨written, asset, _, begun, _, hassets, rfl, hasset⟩ := exists_of_flatMap_eq hrest
    obtain ⟨hbegun, hdeed⟩ := planAsset_split hasset
    refine ⟨written, hdone.files_assets hbegun, ?_⟩
    rcases hdeed with rfl | ⟨q, hparent, hother, rfl⟩
    · rw [Deed.applyTo_write] at hd
      exact .asset hassets hd
    · rw [Deed.applyTo_createDirs] at hd
      exact .directory hassets hparent hother hd

/-- **What writing does.**  Where it succeeds, the last asset with a key is stored under it, and what has
no asset stays as it was.  Where it fails, some assets have been written, in the order of the bytes of
their names, and nothing else; the error is about the output directory, or about the next asset or
the directory that this stands in. -/
theorem effect_emit (parser : Parser) (output : Path) (assets : Table String) (m : Memory) :
    let result := (emit (Memory.host parser) output assets m).1
    let m' := (emit (Memory.host parser) output assets m).2
    assets.keys.Pairwise (fun f f' => Text.bytesOf f < Text.bytesOf f') ∧
    (∀ written, result = .ok written → written = assets.keys.map output.join ∧
      ∀ k, (∃ last, IsLast output assets.entries k last ∧
          m'.files.get? k = some (.text last.2)) ∨
        (∀ e ∈ assets.entries, keyOf output e.1 ≠ k) ∧ m'.files.get? k = m.files.get? k) ∧
    (∀ e, result = .error e → ∃ before path cause, e = .io path cause ∧
      m'.files = stored output m.files before ∧ StopsAt output assets m' before path cause) := by
  intro result m'
  refine ⟨List.pairwise_map.mpr (assets.sorted.imp Text.lt_iff_bytesOf_lt.mp), ?_⟩
  rcases done_or_fails (plan output assets) m with
    ⟨m₁, hdone⟩ | ⟨before, d, after, m₁, cause, hplan, hdone, hd⟩
  · have hemit : emit (Memory.host parser) output assets m = (.ok (paths output assets), m₁) :=
      emit_of_done hdone
    have hresult : result = .ok (paths output assets) := congrArg Prod.fst hemit
    have hm' : m' = m₁ := congrArg Prod.snd hemit
    rw [hresult, hm', hdone.files_plan]
    exact ⟨fun written hwritten => ⟨(Except.ok.inj hwritten).symm, get?_stored _ _⟩,
      fun e he => by cases he⟩
  · have hemit : emit (Memory.host parser) output assets m = (.error (.io d.path cause), m₁) :=
      emit_of_error hplan hdone hd
    have hresult : result = .error (.io d.path cause) := congrArg Prod.fst hemit
    have hm' : m' = m₁ := congrArg Prod.snd hemit
    rw [hresult, hm']
    obtain ⟨written, hfiles, hstops⟩ := exists_stopsAt hplan hdone hd
    refine ⟨fun _ hwritten => (by cases hwritten), fun e he => ?_⟩
    cases he
    exact ⟨written, d.path, cause, rfl, hfiles, hstops⟩

-- the first asset stands where the second needs a directory
example : (emit (Memory.host fun _ => .error default) ⟨"/dist"⟩
    (.ofList [("a", "1"), ("a/b", "2")]) {}).2.paths = ["/dist/a"] := by
  decide +kernel

end Emission

end Bindle
