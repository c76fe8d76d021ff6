import Bindle.Proofs.Script.Grammar.Statement
import Bindle.Script.Program

/-!
# Modules and whole scripts keep the account

* `reads_deeper`    one more level of nesting keeps the account;
* `reads_ofDepth`   so does the grammar of any depth;
* `reads_program`   and the rule for a whole script.
-/

namespace Bindle.Script.Grammar

open Parse Probe

variable {v : Probe} {g : Grammar} (hg : g.Reads v)

/-- a name of an import or export may be a string -/
theorem reads_exportName : v.Reads 0 exportName fun r => v.weigh r.1 := by
  refine ⟨fun s => .token ?_⟩
  split
  · rename_i raw hraw
    have hstring := (readsAt_string (v := v) hraw).bind
      (q := fun n => pure (n, true)) (f := fun r => v.weigh r.1) fun n => .pure (by grind)
    rwa [bind_assoc] at hstring
  · exact (Reads.andThen fun _ => .nodeThen rfl fun n hn => .pure (by grind)).readsAt s
  · exact Reads.unexpected.readsAt s

theorem reads_importedBinding : v.Reads 0 importedBinding v.weigh :=
  reads_bindingIdentifier.within

theorem reads_importSpecifier : v.Reads 0 importSpecifier v.weigh := by
  refine reads_exportName.bind fun r => ?_
  obtain ⟨name, isString⟩ := r
  refine .andThen fun _ => .ite (reads_importedBinding.mono (by grind)) ?_
  split
  · exact .fail
  · repeat' first
      | exact .pure (by grind)
      | refine .ite ?_ ?_
      | refine .andThen fun _ => ?_
  · exact .pure (by grind)

theorem reads_specifiers {item : Parse Node} (hitem : v.Reads 0 item v.weigh) :
    v.Reads 0 (specifiers item) v.weighAll := by
  refine .bind (g := v.weighAll) (.iterate (by grind) fun acc => ?_) fun _ => .andThen fun _ =>
    .pure (by grind)
  refine .andThen fun _ => .ite (.pure (by grind))
    (hitem.bind fun n => .andThen fun _ => .ite ?_ (.pure (by grind)))
  exact .andThen fun _ => .pure (by grind)

theorem reads_exportSpecifier : v.Reads 0 exportSpecifier v.weigh := by
  refine reads_exportName.bind fun r => ?_
  obtain ⟨name, isString⟩ := r
  refine .andThen fun _ => .ite (reads_exportName.bind fun r' => ?_) (.pure (by grind))
  obtain ⟨other, isString'⟩ := r'
  exact .node (by grind) rfl

theorem reads_defaultImport : v.Reads 0 defaultImport fun r => v.weighAll r.1 := by
  refine reads_importedBinding.bind fun name => .andThen fun _ => .ite (.pure (by grind)) ?_
  refine .andThen fun _ => .andThen fun _ => .andThen fun _ => .andThen fun _ => ?_
  extract_lets rest
  have hrest : ∀ name, v.Reads (v.weigh name) (rest name) fun r => v.weighAll r.1 :=
    fun name => .andThen fun _ => .ite (.pure (by grind)) (.andThen fun _ => .pure (by grind))
  refine .ite (reads_importedBinding.bind fun name => (hrest name).mono (by grind)) ?_
  refine .ite ?_ (.pureThen ((hrest name).mono (by grind)))
  exact reads_importedBinding.bind fun name => (hrest name).mono (by grind)

include hg

theorem reads_attributesAndEnd : v.Reads 0 (attributesAndEnd g) v.weighAll := by
  refine .andThen fun _ => .andThen fun _ => .andThen fun _ => ?_
  extract_lets rest
  have hrest : ∀ attributes, v.Reads (v.weighAll attributes) (rest attributes) v.weighAll :=
    fun _ => .andThen fun _ => .pure (by grind)
  refine .ite (.andThen fun _ => ?_) (.pureThen ((hrest []).mono (by grind)))
  exact (reads_objectLiteral hg).bind fun n => .pureThen ((hrest [n]).mono (by grind))

theorem reads_fromClause : v.Reads 0 (fromClause g) v.weighAll :=
  .andThen fun _ => .andThen fun _ => .andThen fun _ =>
    .ite (.andThen fun _ => reads_attributesAndEnd hg) .unexpected

theorem reads_importDeclaration {start : Nat} :
    v.Reads 0 (importDeclaration g start) v.weigh := by
  refine .andThen fun _ => .andThen fun _ => .andThen fun _ => .ite (.andThen fun _ => ?_) ?_
  · exact (reads_attributesAndEnd hg).bind fun attributes => .node (by grind) rfl
  refine .andThen fun _ => ?_
  extract_lets rest
  have hrest : ∀ r, v.Reads (v.weighAll r.1) (rest r) v.weigh := by
    intro r
    obtain ⟨first, more⟩ := r
    unfold rest
    dsimp -zeta -zetaHave only
    extract_lets clause
    have hclause : ∀ others, v.Reads (v.weighAll first + v.weighAll others) (clause others) v.weigh :=
      fun others => (reads_fromClause hg).bind fun attributes => .node (by grind) rfl
    refine .ite (.pureThen ((hclause []).mono (by grind)))
      (.andThen fun _ => .ite (.andThen fun _ => ?_) (.andThen fun _ => .ite ?_ ?_))
    · exact reads_importedBinding.bind fun name => .pureThen ((hclause [name]).mono (by grind))
    · exact (reads_specifiers reads_importSpecifier).bind fun others =>
        (hclause others).mono (by grind)
    · exact .pureThen ((hclause []).mono (by grind))
  exact .ite (reads_defaultImport.bind fun r => (hrest r).mono (by grind))
    (.pureThen (hrest ([], true)))

theorem reads_exportDefault {start : Nat} : v.Reads 0 (exportDefault g start) v.weigh := by
  refine .andThen fun t => .andThen fun _ => .ite ?_ (.andThen fun _ => .andThen fun _ => .ite ?_ ?_)
  · exact (reads_classFrom hg).bind fun c => .node (by grind) rfl
  · exact (reads_functionDeclaration hg).bind fun f => .node (by grind) rfl
  · exact hg.assignment.includingIn.bind fun e => .andThen fun _ => .node (by grind) rfl

theorem reads_exportList {start : Nat} : v.Reads 0 (exportList g start) v.weigh := by
  refine .andThen fun _ => (reads_specifiers reads_exportSpecifier).bind fun names => ?_
  refine .andThen fun _ => ?_
  extract_lets rest
  have hrest : ∀ attributes, v.Reads (v.weighAll names + v.weighAll attributes) (rest attributes)
      v.weigh := fun _ => .node (by grind) rfl
  refine .ite ((reads_fromClause hg).bind fun attributes => (hrest attributes).mono (by grind)) ?_
  refine .forInThen (fun _ _ => inferInstance) fun _ => .andThen fun _ => ?_
  exact .pureThen ((hrest []).mono (by grind))

theorem reads_exportDeclaration {start : Nat} :
    v.Reads 0 (exportDeclaration g start) v.weigh := by
  refine .andThen fun _ => .andThen fun _ => .andThen fun _ => .andThen fun t => ?_
  extract_lets named listed other
  have hnamed : ∀ u, v.Reads 0 (named u) v.weigh :=
    fun u => (reads_fromClause hg).bind fun attributes => .node (by grind) rfl
  have hlisted : ∀ letFollows, v.Reads 0 (listed letFollows) v.weigh := by
    intro letFollows
    refine .andThen fun _ => .andThen fun _ => .ite ?_ (reads_exportList hg)
    exact (reads_variableList hg).bind fun declaration => .node (by grind) rfl
  have hother : ∀ u, v.Reads 0 (other u) v.weigh := by
    intro u
    refine .andThen fun _ => .ite (.andThen fun _ => .ite ?_ (hnamed ())) ?_
    · exact reads_exportName.bind fun _ => (hnamed ()).mono (by grind)
    refine .andThen fun _ => .ite (reads_exportDefault hg) (.andThen fun _ => .ite ?_ ?_)
    · exact (reads_classFrom hg).bind fun c => .node (by grind) rfl
    refine .andThen fun _ => .andThen fun _ => .ite ?_ (.andThen fun _ => .ite ?_ ?_)
    · exact (reads_functionDeclaration hg).bind fun f => .node (by grind) rfl
    · exact .andThen fun next => .pureThen (hlisted _)
    · exact .pureThen (hlisted false)
  exact .ite (.andThen fun u => hother u) (hother ())

theorem reads_moduleItem : v.Reads 0 (moduleItem g) v.weigh := by
  refine .andThen fun t => ?_
  split
  · refine .andThen fun next => .ite ?_ (reads_importDeclaration hg)
    exact (reads_expression hg).includingIn.bind fun e => .andThen fun _ => .node (by grind) rfl
  · exact reads_exportDeclaration hg
  · exact .andThen fun _ => reads_plainStatement hg
  · exact reads_plainStatement hg

/-! ## the whole grammar -/

omit hg in
theorem reads_stuck : stuck.Reads v where
  assignment := .failHere
  unary := .failHere
  member := .failHere
  leftHand := .failHere
  binary _ _ := .failHere
  binding _ := .failHere
  statement _ := .failHere

theorem reads_deeper : (deeper g).Reads v where
  assignment := reads_assignmentExpression hg
  unary := reads_unaryExpression hg
  member := reads_memberOrNew hg
  leftHand := reads_leftHandSide hg
  binary _ _ := reads_binaryFrom hg
  binding _ := reads_bindingPattern hg
  statement _ := reads_nestedStatement hg

omit hg in
theorem reads_ofDepth (n : Nat) : (ofDepth n).Reads v := by
  induction n with
  | zero => exact reads_stuck
  | succ n ih => exact reads_deeper ih

theorem reads_program : v.Reads 0 (program g) v.weigh := by
  refine (reads_blockBody (reads_moduleItem hg)).bind fun items => .andThen fun s => ?_
  exact .ite (.andThen fun _ => .node (by grind) rfl) (.node (by grind) rfl)

end Bindle.Script.Grammar
