import Bindle.Emission
import Bindle.Proofs.Files.Host
import Bindle.Proofs.Files.Storing

/-!
# Writing to memory

* `Deed.applyTo m d`    the files after one deed;
* `Done deeds m m'`     all of `deeds` can be done, one after the other, and lead from `m` to `m'`;
* `Emission.writes`     what deeds store, with its keys.

Writing does as many deeds as can be done (`done_or_fails`), and what it does to the files are the
writes among them (`Done.files_eq`).
-/

namespace Bindle

def Deed.applyTo (m : Memory) : Deed → Except FileError Memory
  | createDirs p => m.createDirs p
  | write p code => m.write p (.text code)

theorem Deed.applyTo_createDirs (m : Memory) (p : Path) :
    (Deed.createDirs p).applyTo m = m.createDirs p := by
  rw [applyTo]

theorem Deed.applyTo_write (m : Memory) (p : Path) (code : String) :
    (Deed.write p code).applyTo m = m.write p (.text code) := by
  rw [applyTo]

inductive Done : List Deed → Memory → Memory → Prop where
  | nil (m : Memory) : Done [] m m
  | cons {d : Deed} {rest : List Deed} {m m₁ m' : Memory} (hd : d.applyTo m = .ok m₁)
      (hrest : Done rest m₁ m') : Done (d :: rest) m m'

namespace Emission

variable {parser : Parser}

theorem performOne_memory (d : Deed) (m : Memory) :
    performOne (Memory.host parser) d m = attempt (fun m => d.applyTo m) m := by
  cases d with
  | createDirs p => simp only [performOne, Memory.createDirs_host, Deed.applyTo_createDirs]
  | write p code => simp only [performOne, Memory.write_host, Deed.applyTo_write]

theorem performOne_of_ok {d : Deed} {m m' : Memory} (h : d.applyTo m = .ok m') :
    performOne (Memory.host parser) d m = (.ok (), m') := by
  rw [performOne_memory, attempt, h]

theorem performOne_of_error {d : Deed} {m : Memory} {e : FileError} (h : d.applyTo m = .error e) :
    performOne (Memory.host parser) d m = (.error e, m) := by
  rw [performOne_memory, attempt, h]

theorem perform_of_done {deeds : List Deed} {m m' : Memory} (h : Done deeds m m') :
    perform (Memory.host parser) deeds m = (.ok (), m') := by
  induction h with
  | nil m => rfl
  | cons hd _ ih =>
    unfold perform
    rw [state_bind (performOne_of_ok hd)]
    exact ih

theorem perform_of_error {before after : List Deed} {d : Deed} {m m' : Memory} {e : FileError}
    (h : Done before m m') (hd : d.applyTo m' = .error e) :
    perform (Memory.host parser) (before ++ d :: after) m = (.error (.io d.path e), m') := by
  induction h with
  | nil m =>
    rw [List.nil_append]
    unfold perform
    rw [state_bind (performOne_of_error hd)]
    rfl
  | cons hd' _ ih =>
    rw [List.cons_append]
    unfold perform
    rw [state_bind (performOne_of_ok hd')]
    exact ih hd

/-- **Deeds are done up to the first that fails.** -/
theorem done_or_fails (deeds : List Deed) (m : Memory) :
    (∃ m', Done deeds m m') ∨ ∃ before d after m' e, deeds = before ++ d :: after ∧
      Done before m m' ∧ d.applyTo m' = .error e := by
  induction deeds generalizing m with
  | nil => exact .inl ⟨m, .nil m⟩
  | cons d rest ih =>
    cases hd : d.applyTo m with
    | error e => exact .inr ⟨[], d, rest, m, e, rfl, .nil m, hd⟩
    | ok m₁ =>
      rcases ih m₁ with ⟨m', hdone⟩ | ⟨before, d', after, m', e, rfl, hdone, hfails⟩
      · exact .inl ⟨m', .cons hd hdone⟩
      · exact .inr ⟨d :: before, d', after, m', e, rfl, .cons hd hdone, hfails⟩

variable {output : Path} {assets : Table String} {m m' : Memory}

theorem emit_of_done (h : Done (plan output assets) m m') :
    emit (Memory.host parser) output assets m = (.ok (paths output assets), m') := by
  unfold emit
  rw [state_bind (perform_of_done h)]
  rfl

theorem emit_of_error {before after : List Deed} {d : Deed} {e : FileError}
    (hplan : plan output assets = before ++ d :: after) (h : Done before m m')
    (hd : d.applyTo m' = .error e) :
    emit (Memory.host parser) output assets m = (.error (.io d.path e), m') := by
  unfold emit
  rw [hplan, state_bind (perform_of_error h hd)]
  rfl

/-! ## files -/

def writes (deeds : List Deed) : List (String × Content) :=
  deeds.filterMap (fun d => match d with
    | .createDirs _ => none
    | .write p code => some (Memory.key p, .text code))

theorem writes_write (p : Path) (code : String) (rest : List Deed) :
    writes (.write p code :: rest) = (Memory.key p, .text code) :: writes rest := rfl

theorem writes_createDirs (p : Path) (rest : List Deed) :
    writes (.createDirs p :: rest) = writes rest := rfl

end Emission

theorem Memory.files_createDirs {m m' : Memory} {p : Path} (h : m.createDirs p = .ok m') :
    m'.files = m.files := by
  unfold Memory.createDirs at h
  split at h
  · cases h
  · cases h
    rfl

theorem Memory.files_write {m m' : Memory} {p : Path} {content : Content}
    (h : m.write p content = .ok m') : m'.files = m.files.insert (Memory.key p) content := by
  unfold Memory.write at h
  split at h
  · cases h
  · cases h
    rfl

/-- **What deeds do to the files.** -/
theorem Done.files_eq {deeds : List Deed} {m m' : Memory} (h : Done deeds m m') :
    m'.files = m.files.insertAll (Emission.writes deeds) := by
  induction h with
  | nil m => rfl
  | @cons d rest m m₁ m' hd _ ih =>
    rw [ih]
    cases d with
    | createDirs p =>
      rw [Deed.applyTo_createDirs] at hd
      rw [Memory.files_createDirs hd, Emission.writes_createDirs]
    | write p code =>
      rw [Deed.applyTo_write] at hd
      rw [Memory.files_write hd, Emission.writes_write]
      rfl

end Bindle
