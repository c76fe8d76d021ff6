import Bindle.Path.Id
import Bindle.Table

/-!
# Graphs of modules

A module is a file of the build with its dependencies and with its text, in which every dependency
stands by its id.  `Records` list modules in the order in which they were found, and an index says
where in the list the module with an id stands.  Each module carries the names of the chunks that it
is in.

* `Records.find? r id`          the module with an id, by the index;
* `Records.insert r m`          a further module at the end, unless its id is taken;
* `Records.addChunk r id name`  puts the module with an id into a chunk;
* `Records.InStep r`            the index has every id of the list with its place, and no other.

A `ModuleGraph` is records in step.  `ModuleGraph.join g name l` puts the modules `l` and all that they
depend on into a chunk.
-/

namespace Bindle

structure Dependency where
  specifier : String
  id : ModuleId
  path : Path
  deriving DecidableEq, Inhabited

structure Module where
  id : ModuleId
  path : Path
  /-- the chunks that the module is in, in the order in which it came into them -/
  chunkNames : List String
  dependencies : List Dependency
  source : String
  deriving DecidableEq, Inhabited

namespace Module

def inChunk (m : Module) (name : String) : Bool := m.chunkNames.contains name

def dependencyIds (m : Module) : List ModuleId := m.dependencies.map Dependency.id

def addChunk (m : Module) (name : String) : Module := { m with chunkNames := m.chunkNames ++ [name] }

theorem inChunk_addChunk (m : Module) (name : String) : (m.addChunk name).inChunk name = true := by
  simp [inChunk, addChunk]

end Module

/-! ## records -/

structure Records where
  modules : List Module := []
  /-- places in the list, by the texts of ids -/
  index : Table Nat := {}

namespace Records

variable {r : Records} {id : ModuleId}

def place? (r : Records) (id : ModuleId) : Option Nat := r.index.get? id.text

def find? (r : Records) (id : ModuleId) : Option Module := (r.place? id).bind (r.modules[·]?)

def contains (r : Records) (id : ModuleId) : Bool := (r.place? id).isSome

/-- a module whose id is there already changes nothing -/
def insert (r : Records) (m : Module) : Records :=
  if r.contains m.id then r
  else ⟨r.modules ++ [m], r.index.insert m.id.text r.modules.length⟩

theorem modules_insert {m : Module} (h : ¬ r.contains m.id) :
    (r.insert m).modules = r.modules ++ [m] := by
  rw [insert, if_neg h]

/-- puts a single module into a chunk -/
def addChunk (r : Records) (id : ModuleId) (name : String) : Records :=
  match r.place? id with
  | none => r
  | some i => { r with modules := r.modules.modify i (·.addChunk name) }

def InStep (r : Records) : Prop :=
  ∀ id i, r.place? id = some i ↔ (r.modules[i]?).map Module.id = some id

theorem inStep_empty : ({} : Records).InStep := by
  intro id i
  constructor <;> exact nofun

namespace InStep

variable (h : r.InStep)

include h

theorem place?_of_getElem? {i : Nat} {m : Module} (hm : r.modules[i]? = some m) :
    r.place? m.id = some i := (h m.id i).mpr (by rw [hm]; rfl)

theorem exists_of_place? {i : Nat} (hi : r.place? id = some i) :
    ∃ m, r.modules[i]? = some m ∧ m.id = id := Option.map_eq_some_iff.mp ((h id i).mp hi)

theorem contains_iff : r.contains id = true ↔ id ∈ r.modules.map Module.id := by
  rw [contains, Option.isSome_iff_exists, List.mem_map]
  constructor
  · rintro ⟨i, hi⟩
    obtain ⟨m, hm, hid⟩ := h.exists_of_place? hi
    exact ⟨m, List.mem_of_getElem? hm, hid⟩
  · rintro ⟨m, hm, rfl⟩
    obtain ⟨i, hi⟩ := List.getElem?_of_mem hm
    exact ⟨i, h.place?_of_getElem? hi⟩

theorem find?_eq_some_iff {m : Module} :
    r.find? id = some m ↔ m ∈ r.modules ∧ m.id = id := by
  rw [find?, Option.bind_eq_some_iff]
  constructor
  · rintro ⟨i, hi, hm⟩
    obtain ⟨m', hm', hid⟩ := h.exists_of_place? hi
    obtain rfl : m' = m := Option.some.inj (hm'.symm.trans hm)
    exact ⟨List.mem_of_getElem? hm, hid⟩
  · rintro ⟨hm, rfl⟩
    obtain ⟨i, hi⟩ := List.getElem?_of_mem hm
    exact ⟨i, h.place?_of_getElem? hi, hi⟩

/-- no two modules have one id, as an id has one place -/
theorem nodup : (r.modules.map Module.id).Nodup := by
  rw [List.Nodup, List.pairwise_map, List.pairwise_iff_getElem]
  intro i j hi hj hij he
  have hplace := h.place?_of_getElem? (List.getElem?_eq_getElem hi)
  rw [he, h.place?_of_getElem? (List.getElem?_eq_getElem hj)] at hplace
  exact absurd (Option.some.inj hplace) (Nat.ne_of_gt hij)

/-- the module at the place of an id is the only one with this id -/
theorem modules_addChunk (name : String) : (r.addChunk id name).modules =
    r.modules.map (fun m => if m.id = id then m.addChunk name else m) := by
  refine List.ext_getElem? fun j => ?_
  rw [addChunk, List.getElem?_map]
  cases hm : r.modules[j]? with
  | none =>
    cases r.place? id with
    | none => exact hm
    | some i => rw [List.getElem?_modify, hm]; split <;> rfl
  | some m =>
    have hplace := h.place?_of_getElem? hm
    cases hi : r.place? id with
    | none =>
      have hne : m.id ≠ id := fun he => by rw [he, hi] at hplace; cases hplace
      exact hm.trans (congrArg some (if_neg hne).symm)
    | some i =>
      have hiff : i = j ↔ m.id = id := by
        constructor
        · rintro rfl
          obtain ⟨m', hm', hid⟩ := h.exists_of_place? hi
          rw [← hid, Option.some.inj (hm.symm.trans hm')]
        · intro he
          rw [he, hi] at hplace
          exact Option.some.inj hplace
      rw [List.getElem?_modify, hm]
      by_cases hid : m.id = id
      · simp [hiff.mpr hid, hid]
      · simp [mt hiff.mp hid, hid]

theorem insert (m : Module) : (r.insert m).InStep := by
  unfold Records.insert
  split
  · exact h
  · rename_i hnew
    intro id i
    have hplace : (⟨r.modules ++ [m], r.index.insert m.id.text r.modules.length⟩ : Records).place? id =
        if m.id.text = id.text then some r.modules.length else r.place? id :=
      Table.get?_insert _ _ _ _
    rw [hplace, List.getElem?_append]
    by_cases hi : i < r.modules.length
    · -- an old place has another id, as the new id was not there
      rw [if_pos hi]
      by_cases hid : m.id.text = id.text
      · obtain rfl : m.id = id := ModuleId.ext hid
        have hnone : r.place? m.id = none := by simpa [contains] using hnew
        have hold := h m.id i
        rw [hnone] at hold
        rw [if_pos hid, ← hold]
        simp only [reduceCtorEq, iff_false, Option.some.injEq]
        exact Nat.ne_of_gt hi
      · rw [if_neg hid]
        exact h id i
    · rw [if_neg hi]
      have hnone : r.modules[i]? = none := List.getElem?_eq_none (Nat.le_of_not_lt hi)
      have hold : r.place? id ≠ some i := by
        intro hold
        obtain ⟨m', hm', -⟩ := h.exists_of_place? hold
        rw [hnone] at hm'
        cases hm'
      by_cases hid : m.id.text = id.text
      · obtain rfl : m.id = id := ModuleId.ext hid
        rw [if_pos hid, Option.some.injEq]
        by_cases he : r.modules.length = i
        · simp [he]
        · simp [List.getElem?_singleton, Nat.sub_eq_zero_iff_le, he]
          omega
      · rw [if_neg hid]
        have hne : m.id ≠ id := fun he => hid (congrArg ModuleId.text he)
        simp [hold, List.getElem?_singleton, hne]

theorem addChunk (id : ModuleId) (name : String) : (r.addChunk id name).InStep := by
  intro id' i
  have hids : (r.addChunk id name).modules.map Module.id = r.modules.map Module.id := by
    rw [h.modules_addChunk, List.map_map]
    refine List.map_congr_left fun m _ => ?_
    simp only [Function.comp_apply]
    split <;> rfl
  have hplace : (r.addChunk id name).place? id' = r.place? id' := by
    unfold Records.addChunk
    split <;> rfl
  rw [hplace, ← List.getElem?_map, hids, List.getElem?_map]
  exact h id' i

end InStep

/-- one thing done to records -/
inductive Step where
  | insert (m : Module)
  | addChunk (id : ModuleId) (name : String)

def perform (r : Records) : Step → Records
  | .insert m => r.insert m
  | .addChunk id name => r.addChunk id name

def after (r : Records) (steps : List Step) : Records := steps.foldl perform r

/-- **The list and its index stay in step**, whatever is inserted and put into chunks. -/
theorem InStep.after (h : r.InStep) (steps : List Step) : (r.after steps).InStep := by
  induction steps generalizing r with
  | nil => exact h
  | cons step steps ih =>
    refine ih ?_
    cases step with
    | insert m => exact h.insert m
    | addChunk id name => exact h.addChunk id name

end Records

/-! ## graphs -/

structure ModuleGraph extends Records where
  inStep : toRecords.InStep

namespace ModuleGraph

theorem eq_of_toRecords_eq {g g' : ModuleGraph} (h : g.toRecords = g'.toRecords) : g = g' := by
  cases g
  cases g'
  cases h
  rfl

def empty : ModuleGraph := ⟨{}, Records.inStep_empty⟩

instance : Inhabited ModuleGraph := ⟨empty⟩

def find? (g : ModuleGraph) (id : ModuleId) : Option Module := g.toRecords.find? id

def contains (g : ModuleGraph) (id : ModuleId) : Bool := g.toRecords.contains id

def size (g : ModuleGraph) : Nat := g.modules.length

def isEmpty (g : ModuleGraph) : Bool := g.modules.isEmpty

def ids (g : ModuleGraph) : List ModuleId := g.modules.map Module.id

theorem distinct (g : ModuleGraph) : g.ids.Nodup := g.inStep.nodup

theorem find?_eq_some_iff {g : ModuleGraph} {id : ModuleId} {m : Module} :
    g.find? id = some m ↔ m ∈ g.modules ∧ m.id = id := g.inStep.find?_eq_some_iff

theorem contains_iff {g : ModuleGraph} {id : ModuleId} : g.contains id = true ↔ id ∈ g.ids :=
  g.inStep.contains_iff

def insert (g : ModuleGraph) (m : Module) : ModuleGraph := ⟨g.toRecords.insert m, g.inStep.insert m⟩

def addChunk (g : ModuleGraph) (id : ModuleId) (name : String) : ModuleGraph :=
  ⟨g.toRecords.addChunk id name, g.inStep.addChunk id name⟩

theorem modules_addChunk (g : ModuleGraph) (id : ModuleId) (name : String) :
    (g.addChunk id name).modules =
      g.modules.map (fun m => if m.id = id then m.addChunk name else m) :=
  g.inStep.modules_addChunk name

/-! ## chunks -/

/-- how many dependencies the modules outside a chunk have -/
def weightOf (name : String) : List Module → Nat
  | [] => 0
  | m :: ms => (if m.inChunk name then 0 else m.dependencyIds.length) + weightOf name ms

def weight (g : ModuleGraph) (name : String) : Nat := weightOf name g.modules

theorem weightOf_append (name : String) (ms ms' : List Module) :
    weightOf name (ms ++ ms') = weightOf name ms + weightOf name ms' := by
  induction ms with
  | nil => exact (Nat.zero_add _).symm
  | cons m ms ih => rw [List.cons_append, weightOf, weightOf, ih, Nat.add_assoc]

theorem weightOf_addChunk_le (id : ModuleId) (name : String) (ms : List Module) :
    weightOf name (ms.map (fun m => if m.id = id then m.addChunk name else m)) ≤
      weightOf name ms := by
  induction ms with
  | nil => exact Nat.le_refl _
  | cons m ms ih =>
    rw [List.map_cons, weightOf, weightOf]
    refine Nat.add_le_add ?_ ih
    by_cases hid : m.id = id
    · rw [if_pos hid, if_pos (m.inChunk_addChunk name)]
      exact Nat.zero_le _
    · exact Nat.le_of_eq (by rw [if_neg hid])

/-- a module that was outside a chunk takes its dependencies with it when it is put there -/
theorem weight_addChunk_le {g : ModuleGraph} {id : ModuleId} {m : Module} {name : String}
    (h : g.find? id = some m) (ho : m.inChunk name = false) :
    (g.addChunk id name).weight name + m.dependencyIds.length ≤ g.weight name := by
  obtain ⟨hmem, hid⟩ := find?_eq_some_iff.mp h
  obtain ⟨before, after, hm⟩ := List.append_of_mem hmem
  have hbefore := weightOf_addChunk_le id name before
  have hafter := weightOf_addChunk_le id name after
  simp only [weight, modules_addChunk, hm, List.map_append, List.map_cons, weightOf_append, weightOf,
    hid, if_true, Module.inChunk_addChunk, ho, Bool.false_eq_true, if_false]
  omega

/-- goes through the modules `pending` and what they depend on; a module that is in the chunk
already is passed over together with what lies behind it -/
def join (g : ModuleGraph) (name : String) : List ModuleId → ModuleGraph
  | [] => g
  | id :: pending =>
    match _h : g.find? id with
    | none => g.join name pending
    | some m =>
      if _ho : m.inChunk name then g.join name pending
      else (g.addChunk id name).join name (m.dependencyIds ++ pending)
termination_by pending => g.weight name + pending.length
decreasing_by
  · exact Nat.lt_succ_self _
  · exact Nat.lt_succ_self _
  · have hw := weight_addChunk_le _h (by simpa using _ho)
    rw [List.length_append, List.length_cons]
    omega

end ModuleGraph

end Bindle
