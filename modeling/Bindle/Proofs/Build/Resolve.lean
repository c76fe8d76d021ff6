import Bindle.Build.Resolve
import Bindle.Proofs.Build.Endings

/-!
# What specifiers resolve to

A specifier that is resolved stands for one of its candidates (`mem_candidates_of_resolve`); with
answers known beforehand for the first that is a file (`resolve_eq_ok_iff`).  It is refused when none
of them is a file, and the error lists them (`resolve_eq_error_iff`).
-/

namespace Bindle

variable {fits : (q : Question) → q.Answer → Prop} {extensions : List String} {base : Path}
  {specifier : String} {importer : Option ModuleId}

theorem mem_of_firstFile {ps : List Path} {p : Path}
    (h : (firstFile ps).EndsIn fits (some p)) : p ∈ ps := by
  induction ps with
  | nil => cases Dialogue.endsIn_done.mp h
  | cons q ps ih =>
    obtain ⟨found, -, h⟩ := Dialogue.endsIn_ask.mp h
    cases found with
    | true =>
      cases Dialogue.endsIn_done.mp h
      exact List.mem_cons_self
    | false => exact List.mem_cons_of_mem q (ih h)

theorem mem_candidates_of_resolve {p : Path}
    (h : (resolve extensions base specifier importer).EndsIn fits (.ok p)) :
    p ∈ candidates extensions base specifier := by
  obtain ⟨found, hfound, h⟩ := Dialogue.endsIn_bind.mp h
  cases found with
  | none => cases Dialogue.endsIn_done.mp h
  | some q =>
    cases Dialogue.endsIn_done.mp h
    exact mem_of_firstFile hfound

theorem firstFile_eq_none_iff {ps : List Path} :
    (firstFile ps).EndsIn fits none ↔ ∀ p ∈ ps, fits (.isFile p) false := by
  induction ps with
  | nil => exact iff_of_true (.done none) fun _ hp => absurd hp List.not_mem_nil
  | cons p ps ih =>
    show (Dialogue.ask (.isFile p) _).EndsIn fits none ↔ _
    rw [Dialogue.endsIn_ask, List.forall_mem_cons, ← ih]
    constructor
    · rintro ⟨found, hfits, h⟩
      cases found with
      | true => cases Dialogue.endsIn_done.mp h
      | false => exact ⟨hfits, h⟩
    · rintro ⟨hfits, h⟩
      exact ⟨false, hfits, h⟩

theorem isFile_of_firstFile {ps : List Path} {p : Path} (h : (firstFile ps).EndsIn fits (some p)) :
    fits (.isFile p) true := by
  induction ps with
  | nil => cases Dialogue.endsIn_done.mp h
  | cons q ps ih =>
    obtain ⟨found, hfits, h⟩ := Dialogue.endsIn_ask.mp h
    cases found with
    | true =>
      cases Dialogue.endsIn_done.mp h
      exact hfits
    | false => exact ih h

theorem isFile_of_resolve {p : Path}
    (h : (resolve extensions base specifier importer).EndsIn fits (.ok p)) :
    fits (.isFile p) true := by
  obtain ⟨found, hfound, h⟩ := Dialogue.endsIn_bind.mp h
  cases found with
  | none => cases Dialogue.endsIn_done.mp h
  | some q =>
    cases Dialogue.endsIn_done.mp h
    exact isFile_of_firstFile hfound

/-- a specifier is refused when none of its candidates is a file -/
theorem resolve_eq_error_iff {e : BuildError} :
    (resolve extensions base specifier importer).EndsIn fits (.error e) ↔
      (∀ p ∈ candidates extensions base specifier, fits (.isFile p) false) ∧
        e = .resolution specifier base importer (candidates extensions base specifier) := by
  rw [← firstFile_eq_none_iff]
  constructor
  · intro h
    obtain ⟨found, hfound, h⟩ := Dialogue.endsIn_bind.mp h
    cases found with
    | some p => cases Dialogue.endsIn_done.mp h
    | none => exact ⟨hfound, Except.error.inj (Dialogue.endsIn_done.mp h)⟩
  · rintro ⟨hnone, rfl⟩
    exact Dialogue.endsIn_bind.mpr ⟨none, hnone, .done _⟩

section

variable {answer : (q : Question) → q.Answer}

theorem result_firstFile (ps : List Path) :
    (firstFile ps).result answer = ps.find? (fun p => answer (.isFile p)) := by
  induction ps with
  | nil => rfl
  | cons p ps ih =>
    show (if answer (.isFile p) then .done (some p) else firstFile ps : Dialogue _).result answer = _
    rw [List.find?_cons]
    cases answer (.isFile p) with
    | true => rfl
    | false => exact ih

theorem resolve_eq_ok_iff {p : Path} :
    (resolve extensions base specifier importer).result answer = .ok p ↔
      (candidates extensions base specifier).find? (fun p => answer (.isFile p)) = some p := by
  show ((firstFile _).bind _).result answer = _ ↔ _
  rw [Dialogue.result_bind, result_firstFile]
  cases List.find? _ (candidates extensions base specifier) with
  | none => exact iff_of_false (fun h => by cases h) (fun h => by cases h)
  | some q =>
    show Except.ok q = Except.ok p ↔ _
    rw [Except.ok.injEq, Option.some.injEq]

end

end Bindle
