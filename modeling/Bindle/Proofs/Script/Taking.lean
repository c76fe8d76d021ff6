import Bindle.Script.Program

/-!
# Taking a token

Reports change nothing but the faults of a state, and taking a token never stops: what was noticed
about the token is noted, and the next one is read.

* `State.noting`     a state with further faults;
* `State.following`  the state with the next token;
* `exists_advance`   taking a token leads there;
* `runProgram_eq`    a program is read after the remarks on its first token.
-/

namespace Bindle.Script

/-- the state with further faults -/
def State.noting (s : State) (faults moduleFaults : List Fault) : State :=
  { s with faults := faults ++ s.faults, moduleFaults := moduleFaults ++ s.moduleFaults }

theorem State.noting_noting (s : State) (fs ms fs' ms' : List Fault) :
    (s.noting fs ms).noting fs' ms' = s.noting (fs' ++ fs) (ms' ++ ms) := by
  unfold noting
  dsimp only
  rw [List.append_assoc, List.append_assoc]

/-- the reading of the token behind the current one -/
def State.next (s : State) : Reading := Token.read s.scope.toReserving false s.cursor

/-- the state with the next token as the current one -/
def State.following (s : State) : State :=
  { s with lastStart := s.token.start, lastStop := s.token.stop, token := s.next.token,
           cursor := s.next.after }

namespace Parse

variable {α β : Type}

/-- a step that gives a value goes on with the next one -/
theorem bind_of_ok {p : Parse α} {q : α → Parse β} {s t : State} {a : α} (h : p s = .ok a t) :
    (p >>= q) s = q a t := by
  show EStateM.bind p q s = q a t
  rw [EStateM.bind, h]

/-- a step that stops has no next one -/
theorem bind_of_error {p : Parse α} {q : α → Parse β} {s t : State} {fault : Fault}
    (h : p s = .error fault t) : (p >>= q) s = .error fault t := by
  show EStateM.bind p q s = .error fault t
  rw [EStateM.bind, h]

theorem exists_reportModule (c : Complaint) (offset : Nat) (s : State) :
    ∃ fs ms, reportModule c offset s = .ok () (s.noting fs ms) := by
  unfold reportModule
  split
  · exact ⟨[⟨c, offset⟩], [], rfl⟩
  · exact ⟨[], [⟨c, offset⟩], rfl⟩

theorem exists_reportStrict (c : Complaint) (offset : Nat) (s : State) :
    ∃ fs ms, reportStrict c offset s = .ok () (s.noting fs ms) := by
  have hreport : reportStrict c offset s =
      (if s.scope.strict then report c offset else reportModule c offset) s := rfl
  rw [hreport]
  split
  · exact ⟨[⟨c, offset⟩], [], rfl⟩
  · exact exists_reportModule c offset s

theorem exists_reportStrictAll (faults : List Fault) (s : State) :
    ∃ fs ms, reportStrictAll faults s = .ok () (s.noting fs ms) := by
  induction faults generalizing s with
  | nil => exact ⟨[], [], rfl⟩
  | cons f faults ih =>
    obtain ⟨fs, ms, hfirst⟩ := exists_reportStrict f.complaint f.offset s
    obtain ⟨fs', ms', hothers⟩ := ih (s.noting fs ms)
    refine ⟨fs' ++ fs, ms' ++ ms, ?_⟩
    rw [reportStrictAll, bind_of_ok hfirst, hothers, State.noting_noting]

/-- a remark that always counts leaves a fault -/
theorem exists_reportAll (remarks : List Remark) (s : State) :
    ∃ fs ms, reportAll remarks s = .ok () (s.noting fs ms) ∧
      (fs = [] → ∀ r ∈ remarks, r.condition ≠ .always) := by
  induction remarks generalizing s with
  | nil => exact ⟨[], [], rfl, fun _ r hr => absurd hr List.not_mem_nil⟩
  | cons r remarks ih =>
    have later : ∀ (p : Parse Unit) fs ms, p s = .ok () (s.noting fs ms) →
        (fs = [] → r.condition ≠ .always) →
        ∃ fs ms, (p >>= fun _ => reportAll remarks) s = .ok () (s.noting fs ms) ∧
          (fs = [] → ∀ r' ∈ r :: remarks, r'.condition ≠ .always) := by
      intro p fs ms hp hr
      obtain ⟨fs', ms', hothers, hrs⟩ := ih (s.noting fs ms)
      refine ⟨fs' ++ fs, ms' ++ ms, ?_, fun h r' hr' => ?_⟩
      · rw [bind_of_ok hp, hothers, State.noting_noting]
      · obtain ⟨hfs', hfs⟩ := List.append_eq_nil_iff.mp h
        rcases List.mem_cons.mp hr' with rfl | hr'
        · exact hr hfs
        · exact hrs hfs' r' hr'
    unfold reportAll
    cases hc : r.condition with
    | always => exact later _ [r.fault] [] rfl fun h => absurd h (List.cons_ne_nil _ _)
    | strict =>
      obtain ⟨fs, ms, h⟩ := exists_reportStrict r.fault.complaint r.fault.offset s
      exact later _ fs ms h fun _ => by rw [hc]; exact nofun
    | inModule =>
      obtain ⟨fs, ms, h⟩ := exists_reportModule r.fault.complaint r.fault.offset s
      exact later _ fs ms h fun _ => by rw [hc]; exact nofun

/-- **Taking a token leads to the next one**, with some faults noted. -/
theorem exists_advance (s : State) :
    ∃ fs ms, advance s = .ok s.token (s.following.noting fs ms) := by
  obtain ⟨fs, ms, hstrict⟩ := exists_reportStrictAll s.token.strictRemarks s
  obtain ⟨fs', ms', hremarks, -⟩ := exists_reportAll s.next.remarks (s.following.noting fs ms)
  refine ⟨fs' ++ fs, ms' ++ ms, ?_⟩
  show EStateM.bind (reportStrictAll s.token.strictRemarks) _ s = _
  rw [EStateM.bind, hstrict]
  show EStateM.bind (reportAll s.next.remarks) _ (s.following.noting fs ms) = _
  rw [EStateM.bind, hremarks, State.noting_noting]
  rfl

end Parse

/-- the state in which the first token of a program was taken -/
def State.beginning (first : Reading) : State := { cursor := first.after, token := first.token }

theorem runProgram_eq {source : List Char} {s : State}
    (h : Parse.reportAll (Token.read {} true (firstCursor source)).remarks
      (State.beginning (Token.read {} true (firstCursor source))) = .ok () s) :
    runProgram source = Grammar.program (Grammar.ofDepth (depthOf source)) s := by
  show EStateM.bind (Parse.reportAll _) _ (State.beginning _) = _
  rw [EStateM.bind, h]

end Bindle.Script
