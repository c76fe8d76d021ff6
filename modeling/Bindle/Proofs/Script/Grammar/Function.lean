import Bindle.Proofs.Script.Grammar.Pattern

/-!
# Functions, objects and classes keep the account

A repetition is followed with the weight of what it has collected; parts that come before their
place in the tree, such as a key before the method that it names, are used up by the rule that
builds the node.
-/

namespace Bindle.Script.Grammar

open Parse Probe

variable {v : Probe} {g : Grammar} (hg : g.Reads v)

/-! ## blocks -/

theorem reads_blockBody {item : Parse Node} {closing : Option Symbol} {directives : Bool}
    (hitem : v.Reads 0 item v.weigh) :
    v.Reads 0 (blockBody item closing directives) v.weighAll := by
  refine .within (.bind (g := v.weighAll) (.iterate (by grind) fun acc => .andThen fun t => ?_)
    fun _ => .pure (by grind))
  extract_lets next
  have hnext : ∀ u, v.Reads (v.weighAll acc) (next u) fun r => v.weighAll (r.getD acc) := by
    intro u
    exact hitem.bind fun n => .ite (.andThen fun _ => .pure (by grind)) (.pure (by grind))
  split
  · exact .ite (.pure (by grind)) (.ite (.andThen fun _ => .pure (by grind)) (hnext ()))
  · exact .ite (.pure (by grind)) (hnext ())

include hg

theorem reads_block {directives : Bool} : v.Reads 0 (block g directives) v.weigh := by
  refine .andThen fun _ => .andThen fun _ => ?_
  exact (reads_blockBody (hg.statement true)).bind fun items => .andThen fun _ =>
    .node (by grind) rfl

/-! ## functions -/

theorem reads_parameter : v.Reads 0 (parameter g) v.weigh := by
  refine .andThen fun _ => .andThen fun _ => .ite ?_ (reads_bindingElement hg)
  refine (hg.binding false).bind fun inner => .andThen fun _ => .ite ?_ (.node (by grind) rfl)
  exact hg.assignment.bind fun _ => .andThen fun _ => .node (by grind) rfl

theorem reads_parameters : v.Reads 0 (parameters g) v.weighAll := by
  refine .bind (g := fun acc : Elements => v.weighAll acc.1) (.iterate (by grind) fun acc => ?_)
    fun _ => .pure (by grind)
  refine .andThen fun _ => .ite (.pure (by grind)) ?_
  extract_lets next
  have hnext : ∀ u, v.Reads (v.weighAll acc.1) (next u) fun r => v.weighAll (r.getD acc).1 := by
    intro u
    refine (reads_parameter hg).bind fun p => .andThen fun _ => ?_
    refine .ite (.andThen fun _ => .andThen fun _ => .ite ?_ (.pure (by grind))) (.pure (by grind))
    exact .andThen fun _ => .andThen fun _ => .pure (by grind)
  split
  · exact .andThen fun u => hnext u
  · exact hnext ()

omit hg in
instance (params : List Node) (body : Node) : v.Quiet (checkDirective params body) := by
  refine ⟨.ite ?_ (.pure (by grind))⟩
  split
  · exact Quiet.reads
  · exact .pure (by grind)

theorem reads_functionBody {isAsync isGenerator : Bool} {params : List Node} :
    v.Reads 0 (functionBody g isAsync isGenerator params) v.weigh := by
  exact .apart (.within ((reads_block hg).bind fun body => .andThen fun _ => .pure (by grind)))

theorem reads_functionRest {isAsync isGenerator : Bool} {check : List Node → Parse Unit}
    [∀ params, v.Quiet (check params)] :
    v.Reads 0 (functionRest g isAsync isGenerator check) v.weighAll := by
  refine .within (.andThen fun _ => ?_)
  refine .bind (g := v.weighAll) (.within ?_) fun params => .andThen fun _ => ?_
  · exact (reads_parameters hg).bind fun ps => .andThen fun _ => .pure (by grind)
  · exact (reads_functionBody hg).bind fun body => .pure (by grind)

theorem reads_functionFrom {start : Nat} {isAsync isExpression nameNeeded : Bool} :
    v.Reads 0 (functionFrom g start isAsync isExpression nameNeeded) v.weigh := by
  refine .andThen fun _ => .andThen fun isGenerator => ?_
  extract_lets naming rest
  have hnaming : v.Reads 0 naming v.weighAll :=
    .andThen fun _ => .ite (reads_bindingIdentifier.bind fun id => .pure (by grind))
      (.pure (by grind))
  have hrest : ∀ name, v.Reads (v.weighAll name) (rest name) v.weigh := by
    intro name
    refine .bind (.within (reads_functionRest hg)) fun body => .node (by grind) rfl
  exact .ite (hnaming.within.bind fun name => (hrest name).mono (by grind))
    (hnaming.bind fun name => (hrest name).mono (by grind))

theorem reads_arrowBody {isAsync : Bool} {params : List Node} :
    v.Reads 0 (arrowBody g isAsync params) v.weigh := by
  refine .apart (.within (.andThen fun _ => .ite ?_ hg.assignment))
  exact (reads_block hg).bind fun body => .andThen fun _ => .pure (by grind)

/-! ## members -/

omit hg

instance (key : Nat) (params : List Node) : v.Quiet (checkGetter key params) := by
  unfold checkGetter
  infer_instance

instance (key : Nat) (params : List Node) : v.Quiet (checkSetter key params) := by
  unfold checkSetter
  cases params.head? <;> infer_instance

include hg

theorem reads_methodRest {start : Nat} {key : Node} {isAsync isGenerator : Bool}
    {check : List Node → Parse Unit} [∀ params, v.Quiet (check params)] :
    v.Reads (v.weigh key) (methodRest g start key isAsync isGenerator check) v.weigh :=
  .bind (.within (reads_functionRest hg)) fun rest => .node (by grind) rfl

theorem reads_accessorRest {start : Nat} {word : String} :
    v.Reads 0 (accessorRest g start word) v.weigh := by
  unfold accessorRest
  extract_lets rest
  have hrest : ∀ isGenerator, v.Reads 0 (rest isGenerator) v.weigh := by
    intro isGenerator
    refine (reads_propertyName hg).bind fun key => ?_
    split
    all_goals exact (reads_methodRest hg).mono (by grind)
  exact .ite (.andThen fun isGenerator => hrest isGenerator) (.pureThen (hrest false))

theorem reads_objectMember : v.Reads 0 (objectMember g) v.weigh := by
  refine .andThen fun _ => .andThen fun _ => .ite ?_ (.andThen fun _ => .ite ?_ ?_)
  · exact hg.assignment.includingIn.bind fun inner => .node (by grind) rfl
  · exact (reads_propertyName hg).bind fun key => (reads_methodRest hg).mono (by grind)
  refine (reads_propertyName hg).bind fun key => .andThen fun _ => ?_
  extract_lets rest
  have hrest : ∀ u, v.Reads (v.weigh key) (rest u) v.weigh := by
    intro u
    refine .andThen fun _ => .ite ?_ (.andThen fun _ => .ite (reads_methodRest hg) ?_)
    · exact hg.assignment.includingIn.bind fun value => .node (by grind) rfl
    split
    · refine .andThen fun _ => .andThen fun _ => .andThen fun _ => .ite (.andThen fun c => ?_) ?_
      · extract_lets value
        have hvalue : ∀ u, v.Reads (v.weigh key) (value u) v.weigh := by
          intro u
          refine .andThen fun _ => .ite ?_ (.node (by grind) rfl)
          exact hg.assignment.includingIn.bind fun value => .node (by grind) rfl
        exact .ite (.andThen fun u => hvalue u) (hvalue ())
      · exact .ite ((reads_accessorRest hg).mono (by grind)) .unexpected
    · exact .unexpected
  exact .ite (.andThen fun _ => .andThen fun u => (hrest u).mono (by grind))
    ((hrest ()).mono (by grind))

theorem reads_objectLiteral : v.Reads 0 (objectLiteral g) v.weigh := by
  refine .andThen fun _ => (reads_braced (reads_objectMember hg)).bind fun r => ?_
  obtain ⟨members, _ | offset⟩ := r
  · exact .node (by grind) rfl
  · exact .modifyThen (fun _ => ⟨rfl, rfl, rfl, id⟩) fun _ => .node (by grind) rfl

/-! ## classes -/

theorem reads_classKey : v.Reads 0 (classKey g) v.weigh := by
  refine .andThen fun _ => .ite (reads_privateName.bind fun name => ?_) (reads_propertyName hg)
  split
  · exact .andThen fun _ => .pure (by grind)
  · exact .pure (by grind)

omit hg in
instance (loosely : Bool) : v.Quiet (atFieldEnd loosely) := by unfold atFieldEnd; infer_instance

theorem reads_fieldRest {start : Nat} {key : Node} {isStatic : Bool} :
    v.Reads (v.weigh key) (fieldRest g start key isStatic) v.weigh := by
  refine .ite (.andThen fun _ => ?_) ?_
  all_goals
    refine .within (.andThen fun _ => ?_)
    extract_lets rest
    have hrest : ∀ value, v.Reads (v.weigh key + v.weighAll value) (rest value) v.weigh := by
      intro value
      exact .andThen fun _ => .ite (.andThen fun _ => .andThen fun _ => .node (by grind) rfl)
        (.node (by grind) rfl)
    exact .ite (hg.assignment.bind fun n => .pureThen ((hrest [n]).mono (by grind)))
      (.pureThen ((hrest []).mono (by grind)))

theorem reads_constructorRest {start : Nat} {key : Node} :
    v.Reads (v.weigh key) (constructorRest g start key) v.weigh :=
  .bind (.within (reads_functionRest hg)) fun rest => .node (by grind) rfl

theorem reads_classMemberFrom {start : Nat} {isStatic : Bool} :
    v.Reads 0 (classMemberFrom g start isStatic) v.weigh := by
  refine .andThen fun _ => .ite ?_ (.andThen fun _ => .ite ?_ ?_)
  · exact (reads_block hg).within.apart.bind fun body => .node (by grind) rfl
  · refine (reads_classKey hg).bind fun key => ?_
    exact .ite (.andThen fun _ => (reads_methodRest hg).mono (by grind))
      ((reads_methodRest hg).mono (by grind))
  refine (reads_classKey hg).bind fun key => .andThen fun _ => .ite ?_ ?_
  · exact .ite ((reads_constructorRest hg).mono (by grind)) ((reads_methodRest hg).mono (by grind))
  refine .andThen fun _ => .andThen fun _ => .andThen fun _ => .andThen fun _ => .ite ?_ ?_
  · exact (reads_fieldRest hg).mono (by grind)
  refine .andThen fun _ => .ite (.andThen fun _ => ?_) (.ite ?_ .unexpected)
  · refine (reads_classKey hg).bind fun name => ?_
    exact .ite (.andThen fun _ => (reads_methodRest hg).mono (by grind))
      ((reads_methodRest hg).mono (by grind))
  · refine (reads_classKey hg).bind fun name => .ite (.andThen fun _ => ?_) ?_
    all_goals
      exact .ite ((reads_methodRest hg).mono (by grind)) ((reads_methodRest hg).mono (by grind))

theorem reads_classMember : v.Reads 0 (classMember g) v.weigh := by
  refine .andThen fun t => .andThen fun _ => .ite (.andThen fun stop => ?_)
    (reads_classMemberFrom hg)
  have hkey : v.weigh (.mk (.key "static") t.start stop []) = 0 := weigh_mk rfl ..
  refine .andThen fun _ => .ite ((reads_methodRest hg).mono (by grind)) ?_
  exact .andThen fun _ => .ite ((reads_fieldRest hg).mono (by grind)) (reads_classMemberFrom hg)

theorem reads_classBody : v.Reads 0 (classBody g) v.weighAll := by
  refine .bind (g := v.weighAll) (.iterate (by grind) fun acc => ?_) fun _ => .pure (by grind)
  refine .andThen fun _ => .ite (.pure (by grind)) (.andThen fun _ => .ite (.pure (by grind)) ?_)
  refine (reads_classMember hg).within.bind fun m => .ite ?_ (.pure (by grind))
  exact .andThen fun _ => .pure (by grind)

theorem reads_classFrom {start : Nat} {nameNeeded : Bool} :
    v.Reads 0 (classFrom g start nameNeeded) v.weigh := by
  refine .within (.andThen fun _ => .andThen fun _ => ?_)
  extract_lets rest
  have hrest : ∀ name, v.Reads (v.weighAll name) (rest name) v.weigh := by
    intro name
    refine .andThen fun _ => ?_
    extract_lets members
    have hmembers : ∀ superclass, v.Reads (v.weighAll name + v.weighAll superclass)
        (members superclass) v.weigh := by
      intro superclass
      refine .andThen fun _ => .ite (.andThen fun _ => .andThen fun _ => ?_) (.andThen fun _ => ?_)
      · refine hg.leftHand.bind fun _ => .andThen fun _ => ?_
        exact (reads_classBody hg).bind fun members => .andThen fun _ => .node (by grind) rfl
      · exact (reads_classBody hg).bind fun members => .andThen fun _ => .node (by grind) rfl
    exact .ite (hg.leftHand.bind fun n => .pureThen ((hmembers [n]).mono (by grind)))
      (.pureThen ((hmembers []).mono (by grind)))
  exact .ite (reads_bindingIdentifier.bind fun id => .pureThen ((hrest [id]).mono (by grind)))
    (.pureThen ((hrest []).mono (by grind)))

end Bindle.Script.Grammar
