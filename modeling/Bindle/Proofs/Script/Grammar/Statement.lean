import Bindle.Proofs.Script.Grammar.Expression
import Bindle.Script.Grammar.Statement

/-!
# Statements keep the account

What a rule reads and throws away, such as an expression behind a missing semicolon, is used up by
nothing and does no harm: the account may hold less than was read.
-/

namespace Bindle.Script.Grammar

open Parse Probe

variable {v : Probe} {g : Grammar} (hg : g.Reads v)

instance (n : Node) : v.Quiet (checkExpression n) := by unfold checkExpression; infer_instance

include hg

theorem reads_condition : v.Reads 0 (condition g) v.weigh := by
  refine .andThen fun _ => (reads_expression hg).includingIn.bind fun e => ?_
  exact .andThen fun _ => .pure (by grind)

/-! ## declarations -/

theorem reads_declarator {forHead : Bool} {word : String} :
    v.Reads 0 (declarator g forHead word) v.weigh := by
  refine .andThen fun _ => (hg.binding _).bind fun name => .andThen fun _ => .andThen fun _ => ?_
  refine .ite (.node (by grind) rfl) (.andThen fun _ => .ite ?_
    (.ite (.andThen fun _ => .node (by grind) rfl) ?_))
  · exact hg.assignment.bind fun value => .andThen fun _ => .node (by grind) rfl
  · exact .ite (.andThen fun _ => .node (by grind) rfl) (.node (by grind) rfl)

omit hg in
theorem quiet_skipToEndStep : v.Quiet (do
    if ← eatEnd then return none
    let _ ← advance
    match (← token).kind with
    | .invalid _ => return none
    | _ => return some () : Parse (Option Unit)) := by
  refine ⟨.andThen fun _ => .ite (.pure (by grind)) (.andThen fun _ => .andThen fun t => ?_)⟩
  split <;> exact .pure (by grind)

omit hg in
instance : v.Quiet skipToEnd := by
  refine ⟨.andThen fun n => ?_⟩
  exact .bind (g := fun _ => 0) (.iterateN fun _ => quiet_skipToEndStep.reads) fun _ =>
    .pure (by grind)

theorem reads_variableList {forHead : Bool} : v.Reads 0 (variableList g forHead) v.weigh := by
  refine .andThen fun t => .andThen fun word => ?_
  extract_lets widen
  refine .bind (g := fun acc : List Node × Bool => v.weighAll acc.1)
    (.iterate (by grind) fun acc => ?_)
    fun found => ?_
  · refine .ite (.pure (by grind)) (.andThen fun _ => .ite
      (.andThen fun _ => .andThen fun _ => .pure (by grind)) ?_)
    exact (reads_declarator hg).within.bind fun d => .andThen fun _ => .pure (by grind)
  · refine .ite (.andThen fun _ => .ite (.andThen fun _ => .andThen fun _ => ?_)
      (.node (by grind) rfl)) (.node (by grind) rfl)
    exact (reads_expression hg).attempt.bind fun _ => .andThen fun _ => .node (by grind) rfl

theorem reads_usingDeclaration {start : Nat} : v.Reads 0 (usingDeclaration g start) v.weigh := by
  refine .andThen fun _ => .bind (g := fun acc : List Node × Bool => v.weighAll acc.1)
    (.iterate (by grind) fun acc => .ite (.pure (by grind)) ?_) fun _ => .andThen fun _ =>
      .node (by grind) rfl
  exact (reads_declarator hg).bind fun d => .andThen fun _ => .pure (by grind)

/-! ## single statements -/

omit hg in
theorem reads_jump {start : Nat} {isBreak : Bool} : v.Reads 0 (jump start isBreak) v.weigh := by
  refine .andThen fun _ => .andThen fun _ => ?_
  extract_lets done rest
  have hrest : ∀ label, v.Reads 0 (rest label) v.weigh := by
    intro label
    refine .andThen fun s => ?_
    repeat' first | exact .node (by grind) rfl | refine .ite ?_ ?_ | refine .andThen fun _ => ?_
  refine .ite (.pureThen (hrest none)) (reads_reference.bind fun id => .andThen fun _ => ?_)
  exact .pureThen ((hrest (some id)).mono (by grind))

theorem reads_returnStatement {start : Nat} : v.Reads 0 (returnStatement g start) v.weigh := by
  refine .andThen fun _ => .andThen fun _ => ?_
  extract_lets rest
  have hrest : ∀ value, v.Reads (v.weighAll value) (rest value) v.weigh :=
    fun value => .andThen fun _ => .andThen fun c => .ite (.andThen fun _ => .node (by grind) rfl)
      (.node (by grind) rfl)
  refine .ite (.pureThen ((hrest []).mono (by grind))) ?_
  exact (reads_expression hg).includingIn.bind fun n => .pureThen ((hrest [n]).mono (by grind))

theorem reads_throwStatement {start : Nat} : v.Reads 0 (throwStatement g start) v.weigh := by
  have hvalue : v.Reads 0 (do
      let value ← Parse.includingIn true (expression g)
      expectEnd
      node .jump start [value]) v.weigh :=
    (reads_expression hg).includingIn.bind fun value => .andThen fun _ => .node (by grind) rfl
  exact .andThen fun _ => .andThen fun _ => .ite (.andThen fun _ => hvalue) hvalue

theorem reads_ifStatement {start : Nat} : v.Reads 0 (ifStatement g start) v.weigh := by
  refine .andThen fun _ => (reads_condition hg).bind fun test => ?_
  refine (hg.statement false).bind fun yes => .andThen fun _ => .ite ?_
    (.pureThen (.node (by grind) rfl))
  exact (hg.statement false).bind fun no => .pureThen (.node (by grind) rfl)

theorem reads_doStatement {start : Nat} : v.Reads 0 (doStatement g start) v.weigh := by
  refine .andThen fun _ => (hg.statement false).within.bind fun body => .andThen fun _ => ?_
  exact (reads_condition hg).bind fun test => .andThen fun _ => .node (by grind) rfl

theorem reads_whileStatement {start : Nat} : v.Reads 0 (whileStatement g start) v.weigh := by
  refine .andThen fun _ => (reads_condition hg).bind fun test => ?_
  exact (hg.statement false).within.bind fun body => .node (by grind) rfl

theorem reads_withStatement {start : Nat} : v.Reads 0 (withStatement g start) v.weigh := by
  refine .andThen fun _ => .andThen fun _ => (reads_condition hg).bind fun object => ?_
  exact (hg.statement false).within.bind fun body => .node (by grind) rfl

theorem reads_switchStatement {start : Nat} : v.Reads 0 (switchStatement g start) v.weigh := by
  refine .andThen fun _ => (reads_condition hg).bind fun value => .andThen fun _ => ?_
  refine .bind (g := fun acc : List Node × Bool => v.weighAll acc.1)
    (.within (.iterate (by grind) fun acc => ?_)) fun cases => .andThen fun _ =>
      .node (by grind) rfl
  refine .andThen fun t => .ite (.pure (by grind)) (.andThen fun _ => ?_)
  extract_lets rest
  have hrest : ∀ test, v.Reads (v.weighAll acc.1 + v.weighAll test) (rest test)
      fun r => v.weighAll (r.getD acc).1 := by
    intro test
    refine .andThen fun _ => .bind (g := v.weighAll) (.iterate (by grind) fun items => ?_)
      fun items => ?_
    · refine .andThen fun _ => .andThen fun _ => .andThen fun _ => .ite (.pure (by grind)) ?_
      exact (hg.statement true).bind fun n => .pure (by grind)
    · exact .nodeThen rfl fun n hn => .pure (by grind)
  refine .ite ((reads_expression hg).includingIn.bind fun n => .pureThen
    ((hrest [n]).mono (by grind))) ?_
  exact .ite (.andThen fun _ => .pureThen ((hrest []).mono (by grind)))
    (.pureThen ((hrest []).mono (by grind)))

theorem reads_catchClause : v.Reads 0 (catchClause g) v.weighAll := by
  refine .andThen fun t => .andThen fun _ => .ite (.andThen fun _ => ?_) (.pure (by grind))
  extract_lets rest
  have hrest : ∀ param, v.Reads (v.weighAll param) (rest param) v.weighAll := by
    intro param
    exact (reads_block hg).bind fun body => .nodeThen rfl fun n hn => .pure (by grind)
  refine .ite ?_ (.pureThen ((hrest []).mono (by grind)))
  exact (hg.binding false).bind fun p => .andThen fun _ => .pureThen ((hrest [p]).mono (by grind))

theorem reads_finallyBlock : v.Reads 0 (finallyBlock g) v.weighAll :=
  .andThen fun _ => .ite ((reads_block hg).bind fun n => .pure (by grind)) (.pure (by grind))

theorem reads_tryStatement {start : Nat} : v.Reads 0 (tryStatement g start) v.weigh := by
  refine .andThen fun _ => (reads_block hg).bind fun body => .andThen fun t => ?_
  refine (reads_catchClause hg).bind fun handler => (reads_finallyBlock hg).bind fun finalizer => ?_
  exact .ite (.andThen fun _ => .node (by grind) rfl) (.node (by grind) rfl)

theorem reads_strayHandler {start : Nat} : v.Reads 0 (strayHandler g start) v.weigh := by
  refine .andThen fun _ => (reads_catchClause hg).attempt.bind fun _ => ?_
  exact (reads_finallyBlock hg).attempt.bind fun _ => .node (by grind) rfl

/-! ## `for` -/

noncomputable def weighHead (v : Probe) : ForHead → Nat
  | .plain parts => v.weighAll parts
  | .each _ left right => v.weigh left + v.weigh right

theorem reads_eachHead {left : Node} :
    v.Reads (v.weigh left) (eachHead g left) (weighHead v) := by
  refine .andThen fun word => .ite (hg.assignment.includingIn.bind fun right => ?_) ?_
  · exact .pure (Nat.le_refl _)
  · exact (reads_expression hg).includingIn.bind fun right => .pure (Nat.le_refl _)

theorem reads_plainHead {init : List Node} :
    v.Reads (v.weighAll init) (plainHead g init) (weighHead v) := by
  refine .andThen fun _ => ?_
  extract_lets rest
  have hrest : ∀ test, v.Reads (v.weighAll init + v.weighAll test) (rest test) (weighHead v) := by
    intro test
    refine .andThen fun _ => .ite (.pureThen (.pure ?_)) ?_
    · simp [weighHead]
    · refine (reads_expression hg).includingIn.bind fun e => .pureThen (.pure ?_)
      simp [weighHead]
      omega
  refine .ite (.pureThen ((hrest []).mono (by grind))) ?_
  exact (reads_expression hg).includingIn.bind fun e => .andThen fun _ => .pureThen
    ((hrest [e]).mono (by grind))

omit hg in
instance : v.Quiet atEach := by unfold atEach; infer_instance

omit hg in
instance (declaration : Node) : v.Quiet (checkEach declaration) := by
  unfold checkEach
  split
  · split
    · infer_instance
    · infer_instance
  · infer_instance

theorem reads_forHead {isAwait : Bool} : v.Reads 0 (forHead g isAwait) (weighHead v) := by
  refine .andThen fun _ => ?_
  extract_lets rest
  have hrest : ∀ letFollows, v.Reads 0 (rest letFollows) (weighHead v) := by
    intro letFollows
    refine .andThen fun _ => .andThen fun _ => .ite ?_ (.andThen fun _ => .ite ?_ ?_)
    · refine (reads_variableList hg).bind fun declaration => .andThen fun _ => .ite ?_ ?_
      · exact .andThen fun _ => (reads_eachHead hg).mono (by grind)
      · exact .andThen fun _ => (reads_plainHead hg).mono (by grind)
    · exact (reads_plainHead hg).mono (by grind)
    · refine (reads_expression hg).within.bind fun init => .andThen fun _ => .ite ?_ ?_
      · exact .bindOn (reads_asPattern .assignment init) 0 (by grind)
          fun left => (reads_eachHead hg).mono (by grind)
      · exact .andThen fun _ => .andThen fun _ => (reads_plainHead hg).mono (by grind)
  exact .ite (.andThen fun next => .pureThen (hrest _)) (.pureThen (hrest false))

theorem reads_forStatement {start : Nat} : v.Reads 0 (forStatement g start) v.weigh := by
  refine .andThen fun _ => .andThen fun t => .andThen fun _ => .andThen fun _ => ?_
  refine (reads_forHead hg).bind fun head => .andThen fun _ => ?_
  refine (hg.statement false).within.bind fun body => ?_
  cases head with
  | plain parts =>
    have hloop : v.Reads (v.weighAll parts + v.weigh body) (node .loop start (parts ++ [body]))
      v.weigh := .node (by grind) rfl
    exact .ite (.andThen fun _ => hloop.mono (by simp [weighHead])) (hloop.mono (by simp [weighHead]))
  | each isOf left right =>
    have hloop : v.Reads (v.weigh left + v.weigh right + v.weigh body)
      (node .loop start [left, right, body]) v.weigh := .node (by grind) rfl
    exact .ite (.andThen fun _ => hloop.mono (by simp [weighHead])) (hloop.mono (by simp [weighHead]))

/-! ## statements that begin with an expression -/

theorem reads_labelled {name : String} {start : Nat} :
    v.Reads 0 (labelled g name start) v.weigh := by
  refine .within (.andThen fun s => .modifyThen (fun _ => ⟨rfl, rfl, rfl, id⟩) fun _ => ?_)
  refine .andThen fun t => .andThen fun _ => ?_
  extract_lets rest
  have hrest : ∀ body, v.Reads (v.weigh body) (rest body) v.weigh := by
    intro body
    refine .forInThen (fun _ _ => inferInstance) fun _ => ?_
    exact .modifyThen (fun _ => ⟨rfl, rfl, rfl, id⟩) fun _ => .node (by grind) rfl
  refine .ite ((reads_functionFrom hg).bind fun f => .andThen fun c => ?_) ?_
  · repeat' first
      | exact .pureThen ((hrest f).mono (by grind))
      | refine .ite ?_ ?_
      | refine .andThen fun _ => ?_
  · exact (hg.statement false).bind fun body => (hrest body).mono (by grind)

theorem reads_expressionStatement {start : Nat} :
    v.Reads 0 (expressionStatement g start) v.weigh := by
  refine (reads_expression hg).includingIn.bind fun e => ?_
  extract_lets rest
  have hrest : ∀ u, v.Reads (v.weigh e) (rest u) v.weigh := by
    intro u
    refine .andThen fun _ => .ite (.node (by grind) rfl) (.andThen fun _ => .ite ?_ .failHere)
    refine .andThen fun t => .andThen fun _ => .bindOn (hg.binary e 0) 0 (by grind) fun e => ?_
    exact .node (by grind) rfl
  split
  · refine .andThen fun _ => .ite ?_ ((hrest ()).mono (by grind))
    exact (reads_labelled hg).mono (by grind)
  · exact .andThen fun u => (hrest u).mono (by grind)

omit hg in
instance : v.Quiet nameFollows := by
  refine ⟨.andThen fun next => ?_⟩
  split
  · exact .andThen fun c => .pure (by grind)
  · exact .pure (by grind)

omit hg in
instance : v.Quiet atAsyncFunction := by unfold atAsyncFunction; infer_instance

theorem reads_functionDeclaration {start : Nat} {nameNeeded : Bool} :
    v.Reads 0 (functionDeclaration g start nameNeeded) v.weigh :=
  .andThen fun _ => reads_functionFrom hg

theorem reads_plainStatement {declarations : Bool} :
    v.Reads 0 (plainStatement g declarations) v.weigh := by
  refine .andThen fun _ => .andThen fun t => ?_
  extract_lets start general
  have hgeneral : v.Reads 0 general v.weigh :=
    .andThen fun _ => .ite (reads_functionDeclaration hg) (reads_expressionStatement hg)
  split
  · exact reads_block hg
  · exact .andThen fun _ => .node (by grind) rfl
  · split
    · exact reads_jump
    · exact reads_jump
    · exact .andThen fun _ => .andThen fun _ => .node (by grind) rfl
    · exact reads_doStatement hg
    · exact reads_forStatement hg
    · exact .ite (.andThen fun _ => reads_functionFrom hg) (reads_functionFrom hg)
    · exact .ite (.andThen fun _ => reads_classFrom hg) (reads_classFrom hg)
    · exact reads_ifStatement hg
    · exact reads_returnStatement hg
    · exact reads_switchStatement hg
    · exact reads_throwStatement hg
    · exact reads_strayHandler hg
    · exact reads_strayHandler hg
    · exact reads_tryStatement hg
    · exact reads_withStatement hg
    · exact reads_whileStatement hg
    · exact reads_variableList hg
    · exact .ite (reads_variableList hg) hgeneral
    · exact .andThen fun next => .ite (reads_variableList hg) hgeneral
    · exact .andThen fun _ => .ite (reads_usingDeclaration hg) hgeneral
    · exact hgeneral
  · exact hgeneral

theorem reads_nestedStatement {declarations : Bool} :
    v.Reads 0 (nestedStatement g declarations) v.weigh := by
  refine .andThen fun t => .andThen fun _ => .ite (.andThen fun next => .ite ?_ .failHere) ?_
  · exact (reads_expression hg).includingIn.bind fun e => .andThen fun _ => .node (by grind) rfl
  · exact .andThen fun _ => .ite .failHere (reads_plainStatement hg)

end Bindle.Script.Grammar
