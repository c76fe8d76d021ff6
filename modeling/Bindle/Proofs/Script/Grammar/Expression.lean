import Bindle.Proofs.Script.Grammar.Function

/-!
# Expressions keep the account

Two rules read a token again that was taken for a punctuator: a regular expression, and a template
behind a substitution.  Both know the token that they find, so they are followed from one state.
-/

namespace Bindle.Script.Grammar

open Parse Probe

variable {v : Probe} {g : Grammar} (hg : g.Reads v)

include hg

theorem reads_expression : v.Reads 0 (expression g) v.weigh := by
  refine hg.assignment.bind fun first => .andThen fun _ => .ite ?_ (.pure (by grind))
  refine .bindOn (m := v.weigh first) (.iterate (f := v.weighAll) (by grind) fun acc => ?_)
    0 (by grind) fun all => .node (by grind) rfl
  exact .andThen fun _ => .ite (hg.assignment.bind fun n => .pure (by grind)) (.pure (by grind))

theorem reads_spreadOrExpression : v.Reads 0 (spreadOrExpression g) v.weigh := by
  refine .andThen fun _ => .andThen fun _ => .ite ?_ hg.assignment
  exact hg.assignment.includingIn.bind fun inner => .node (by grind) rfl

theorem reads_arguments : v.Reads 0 (arguments g) v.weighAll := by
  refine .andThen fun _ => .bind (g := v.weighAll) (.iterate (by grind) fun acc => ?_)
    fun _ => .andThen fun _ => .pure (by grind)
  have hnext : v.Reads (v.weighAll acc) (do
      return some ((← Parse.includingIn true (spreadOrExpression g)) :: acc))
      fun r => v.weighAll (r.getD acc) :=
    (reads_spreadOrExpression hg).includingIn.bind fun n => .pure (by grind)
  refine .andThen fun _ => .ite (.pure (by grind)) (.ite ?_ hnext)
  exact .andThen fun _ => .andThen fun _ => .ite (.pure (by grind)) hnext

/-! ## primaries -/

omit hg

instance (flags : List Char) (start : Nat) : v.Quiet (checkFlags flags start) := by
  unfold checkFlags
  cases flags.find? (fun f => flags.count f > 1) <;> infer_instance

/-- the current token is the slash that begins the expression -/
theorem readsAt_regularExpression {s : State} {opening : Symbol}
    (hkind : s.token.kind = .symbol opening) (hopening : opening = .slash ∨ opening = .slashAssign) :
    v.ReadsAt s 0 (regularExpression opening) v.weigh := by
  refine .bind (readsAt_rescan hkind ?_ fun c more hrest => ⟨Token.Kind.isOther_of_isLiteral (isLiteral_readRegex c), ?_⟩) fun _ => ?_
  · rcases hopening with rfl | rfl <;> rfl
  · rcases hopening with rfl | rfl <;> exact reaches_readRegex hrest
  · refine .andThen fun _ => .andThen fun t => ?_
    split
    · exact .andThen fun _ => .node (by grind) rfl
    · exact .node (by grind) rfl

/-- the current token is the brace that ends a substitution -/
theorem readsAt_templateRest {s : State} (hkind : s.token.kind = .symbol .rbrace) :
    v.ReadsAt s 0 (rescan "\x7d" (readTemplate · false)) (fun _ => 0) :=
  readsAt_rescan (x := .rbrace) hkind rfl fun c _ _ =>
    ⟨Token.Kind.isOther_of_isLiteral (isLiteral_readTemplateFrom ..), .inl (reaches_readTemplate c false)⟩

include hg

theorem reads_templateParts {tagged : Bool} : v.Reads 0 (templateParts g tagged) v.weighAll := by
  unfold templateParts
  extract_lets check step
  have hcheck : ∀ bad, v.Quiet (check bad) := by
    intro bad
    cases bad with
    | none => exact inferInstanceAs (v.Quiet (pure ()))
    | some fault => exact inferInstanceAs (v.Quiet (if tagged then pure () else throw fault))
  have hstep : ∀ acc, v.Reads (v.weighAll acc.1) (step acc) fun r => v.weighAll (r.getD acc).1 := by
    intro acc
    refine .ite (.pure (by grind)) (.andThen fun _ => .andThen fun t => ?_)
    split
    · refine .andThen fun _ => .andThen fun _ => .ite (.pure (by grind)) ?_
      refine (reads_expression hg).includingIn.bind fun e => ⟨fun s => .atSymbol (fun hkind => ?_) ?_⟩
      · exact ((readsAt_templateRest hkind).mono (Nat.le_refl _) fun _ => Nat.le_refl _).bind
          fun _ => .pure (by grind)
      · exact Reads.unexpectedThen.readsAt s
    · exact .unexpected
  exact .bind (g := fun acc : List Node × Bool => v.weighAll acc.1) (.iterate (by grind) hstep)
    fun found => .pure (by grind)

theorem reads_template {start : Nat} : v.Reads 0 (template g start) v.weigh :=
  (reads_templateParts hg).bind fun parts => .node (by grind) rfl

theorem reads_arrayLiteral : v.Reads 0 (arrayLiteral g) v.weigh := by
  refine .andThen fun _ => .andThen fun _ => .bind (g := v.weighAll)
    (.iterate (by grind) fun acc => ?_)
    fun _ => .andThen fun _ => .node (by grind) rfl
  refine .andThen fun _ => .ite (.pure (by grind))
    (.andThen fun _ => .ite (.andThen fun _ => .pure (by grind)) ?_)
  refine (reads_spreadOrExpression hg).includingIn.bind fun e => .andThen fun _ => ?_
  refine .ite (.andThen fun _ => .andThen fun _ => .ite (.andThen fun comma => ?_)
    (.pure (by grind))) (.pure (by grind))
  exact .modifyThen (fun _ => ⟨rfl, rfl, rfl, id⟩) fun _ => .pure (by grind)

theorem reads_parenthesized : v.Reads 0 (parenthesized g) fun r => v.weighAll r.1 := by
  refine .andThen fun _ => .bind (g := fun acc : List Node × Option Nat => v.weighAll acc.1)
    (.iterate (by grind) fun acc => ?_) fun _ => .andThen fun _ => .pure (by grind)
  refine .andThen fun _ => .ite (.pure (by grind)) ?_
  refine (reads_spreadOrExpression hg).includingIn.bind fun e => .andThen fun _ => .ite
    (.pure (by grind)) ?_
  exact .andThen fun _ => .andThen fun _ => .ite (.andThen fun _ => .pure (by grind))
    (.pure (by grind))

omit hg in
/-- the items of a list weigh what the parameters weigh that they become -/
theorem reads_asParameters {comma : Option Nat} (ns : List Node) :
    v.Reads (v.weighAll ns) (asParameters comma ns) v.weighAll := by
  induction ns with
  | nil => exact .pure (by grind)
  | cons n ns ih =>
    unfold asParameters
    split
    · exact .andThen fun _ => ih.mono (by grind)
    · rename_i inner hkind hparts _
      have hn : v.weigh n = v.weigh inner := by
        obtain ⟨kind, start, stop, parts⟩ := n
        obtain rfl : kind = .spread := hkind
        obtain rfl : parts = [inner] := hparts
        grind
      repeat' first
        | exact .bindOn (reads_asPattern .binding inner) 0 (by grind) fun p => .pure (by grind)
        | split
        | refine .andThen fun _ => ?_
    · refine .bindOn (reads_asPattern .binding n) (v.weighAll ns) (by grind) fun p => ?_
      exact .bindOn ih (v.weigh p) (by grind) fun ps => .pure (by grind)

omit hg in
instance (ns : List Node) : v.Quiet (checkInitializers ns) := by
  induction ns with
  | nil => exact inferInstanceAs (v.Quiet (pure ()))
  | cons n ns ih =>
    refine ⟨.ite (.forInThen (fun p _ => ?_) fun _ => ih.reads) ih.reads⟩
    split <;> infer_instance

omit hg in
instance : v.Quiet atBinarySymbol := by
  refine ⟨.andThen fun t => ?_⟩
  split <;> exact .pure (by grind)

theorem reads_arrowFrom {start : Nat} {isAsync : Bool} {params : List Node} :
    v.Reads (v.weighAll params) (arrowFrom g start isAsync params) v.weigh :=
  (reads_arrowBody hg).bind fun body => .node (by grind) rfl

theorem reads_parenthesizedArrow {canBeArrow isAsync : Bool} {start : Nat} {items : List Node}
    {comma : Option Nat} : v.Reads (v.weighAll items)
      (parenthesizedArrow g canBeArrow start isAsync items comma) v.weigh := by
  refine .andThen fun _ => ?_
  extract_lets arrow allowed
  have harrow : ∀ u, v.Reads (v.weighAll items) (arrow u) v.weigh := by
    intro u
    refine .andThen fun _ => .bindOn (reads_asParameters items) 0 (by grind) fun params => ?_
    refine .andThen fun c => ?_
    extract_lets body
    have hbody : ∀ u, v.Reads (v.weighAll params) (body u) v.weigh := by
      intro u
      refine .bindOn (reads_arrowFrom hg) 0 (by grind) fun arrow => .andThen fun _ => .ite ?_
        (.pure (by grind))
      refine .andThen fun _ => .andThen fun _ => .bindOn (hg.binary arrow 0) 0 (by grind)
        fun e => ?_
      exact .andThen fun _ => .ite (.andThen fun _ => .andThen fun _ => .pure (by grind))
        (.pure (by grind))
    exact .ite (.andThen fun u => (hbody u).mono (by grind)) ((hbody ()).mono (by grind))
  have hallowed : ∀ u, v.Reads (v.weighAll items) (allowed u) v.weigh :=
    fun u => .ite (.andThen fun u => harrow u) (harrow ())
  exact .ite (.andThen fun u => hallowed u) (hallowed ())

omit hg in
theorem reads_grouping {start : Nat} {items : List Node} {comma : Option Nat} :
    v.Reads (v.weighAll items) (grouping start items comma) v.weigh := by
  unfold grouping
  split
  · exact .fail
  · split
    · exact .fail
    · split
      · exact .andThen fun _ => .node (by grind) rfl
      · exact .node (by grind) rfl
  · split
    · exact .fail
    · split
      · exact .andThen fun _ => .node (by grind) rfl
      · exact .node (by grind) rfl

theorem reads_parenthesesOrArrow {canBeArrow : Bool} {asyncStart : Option Nat} :
    v.Reads 0 (parenthesesOrArrow g canBeArrow asyncStart) v.weigh := by
  refine .andThen fun t => (reads_parenthesized hg).bind fun r => ?_
  obtain ⟨items, comma⟩ := r
  refine Reads.mono (m := v.weighAll items) (.andThen fun _ => ?_) (by grind)
  exact .ite (reads_parenthesizedArrow hg)
    (.andThen fun _ => .ite (.node (by grind) rfl) reads_grouping)

theorem reads_nameOrArrow {canBeArrow : Bool} : v.Reads 0 (nameOrArrow g canBeArrow) v.weigh := by
  refine reads_reference.bind fun id => .andThen fun _ => .andThen fun _ => .ite ?_ ?_
  · refine .andThen fun c => .andThen fun _ => .andThen fun _ => .ite ?_ ?_
    · exact .ite (.andThen fun _ => .andThen fun _ => .pure (by grind)) (.pure (by grind))
    · refine reads_bindingIdentifier.bind fun param => .andThen fun _ => ?_
      exact (reads_arrowFrom hg).mono (by grind)
  · refine .andThen fun _ => .andThen fun _ => .ite ?_ (.pure (by grind))
    refine .andThen fun _ => .andThen fun c => ?_
    exact .ite (.andThen fun _ => (reads_arrowFrom hg).mono (by grind))
      ((reads_arrowFrom hg).mono (by grind))

theorem reads_primary : v.Reads 0 (primary g) v.weigh := by
  refine ⟨fun s => .refuseInvalid (.token (.get ?_))⟩
  extract_lets canBeArrow
  split
  · rename_i raw hraw
    exact readsAt_string hraw
  · exact (Reads.andThen fun _ => .node (by grind) rfl).readsAt s
  · exact (Reads.andThen fun _ => .node (by grind) rfl).readsAt s
  · exact (reads_template hg).readsAt s
  · exact (reads_arrayLiteral hg).readsAt s
  · exact (reads_objectLiteral hg).readsAt s
  · exact (reads_parenthesesOrArrow hg).readsAt s
  · rename_i hslash
    exact readsAt_regularExpression hslash (.inl rfl)
  · rename_i hslash
    exact readsAt_regularExpression hslash (.inr rfl)
  · exact reads_privateName.readsAt s
  · exact (Reads.andThen fun _ => .node (by grind) rfl).readsAt s
  · exact (Reads.andThen fun _ => .node (by grind) rfl).readsAt s
  · exact (Reads.andThen fun _ => .node (by grind) rfl).readsAt s
  · exact (Reads.andThen fun _ => .node (by grind) rfl).readsAt s
  · exact (reads_functionFrom hg).readsAt s
  · exact (reads_classFrom hg).readsAt s
  · refine Reads.readsAt ?_ s
    extract_lets rest
    have hrest : ∀ next, v.Reads 0 (rest next) v.weigh := by
      intro next
      refine .ite (.andThen fun _ => reads_functionFrom hg) (.ite ?_ (.andThen fun c => ?_))
      · exact .andThen fun _ => reads_parenthesesOrArrow hg
      · exact .ite (reads_nameOrArrow hg) .failHere
    exact .ite (.andThen fun next => hrest next) (.pureThen (hrest none))
  · exact Reads.failHere.readsAt s

/-! ## calls and members -/

omit hg

theorem reads_memberOf {object prop : Node} {dotted noCall : Bool} :
    v.Reads (v.weigh object + v.weigh prop) (memberOf object prop dotted noCall) v.weigh := by
  refine .ite (.andThen fun c => .ite .fail (.ite .fail ?_)) (.ite ?_ (.node (by grind) rfl))
  · split
    · exact .failHere
    · exact .node (by grind) rfl
  · exact .nodeThen rfl fun inner hinner => .node (by grind) rfl

include hg

theorem reads_subscript {noCall : Bool} {object : Node} :
    v.Reads (v.weigh object) (subscript g noCall object) fun r => v.weigh (r.getD object) := by
  refine .andThen fun dotted => .andThen fun _ => .ite ?_ (.andThen fun _ => .ite ?_ ?_)
  · refine .andThen fun start => (reads_expression hg).includingIn.bind fun inner => ?_
    refine .andThen fun _ => .nodeThen rfl fun prop hprop => ?_
    exact .bindOn reads_memberOf 0 (by grind) fun n => .pure (by grind)
  · refine (reads_arguments hg).bind fun args => .ite (.ite (.andThen fun _ => ?_) ?_) ?_
    all_goals exact .nodeThen rfl fun n hn => .pure (by grind)
  · extract_lets rest
    have hrest : ∀ named, v.Reads (v.weigh object) (rest named) fun r => v.weigh (r.getD object) := by
      intro named
      refine .ite (reads_memberName.bind fun prop => ?_) (.ite .failHere (.ite .failHere ?_))
      · exact .bindOn reads_memberOf 0 (by grind) fun n => .pure (by grind)
      · refine .andThen fun t => ?_
        split
        · refine (reads_templateParts hg).bind fun parts => .ite (.andThen fun _ => ?_) ?_
          all_goals exact .nodeThen rfl fun n hn => .pure (by grind)
        · exact .pure (by grind)
    exact .ite (.pureThen (hrest true)) (.andThen fun named => hrest named)

theorem reads_subscripts {noCall : Bool} {object : Node} :
    v.Reads (v.weigh object) (subscripts g noCall object) v.weigh :=
  .iterate (by grind) fun _ => reads_subscript hg

theorem reads_importExpression {start : Nat} {noCall : Bool} :
    v.Reads 0 (importExpression g start noCall) v.weigh := by
  refine .andThen fun _ => .ite (.andThen fun _ => .andThen fun name => .ite ?_ (.ite ?_ ?_)) ?_
  · exact .nodeThen rfl fun n hn => (reads_subscripts hg).mono (by grind)
  · exact .nodeThen rfl fun n hn => (reads_subscripts hg).mono (by grind)
  · exact .unexpected
  · exact .nodeThen rfl fun n hn => (reads_subscripts hg).mono (by grind)

theorem reads_newExpression {start : Nat} : v.Reads 0 (newExpression g start) v.weigh := by
  refine .andThen fun _ => .ite (.andThen fun _ => .ite (.andThen fun c => ?_) .unexpected) ?_
  · refine .ite (.andThen fun _ => ?_) ?_
    all_goals exact .nodeThen rfl fun n hn => (reads_subscripts hg).mono (by grind)
  · refine hg.member.bind fun callee => .ite (.pure (by grind)) ?_
    extract_lets rest first
    have hrest : ∀ u, v.Reads (v.weigh callee) (rest u) v.weigh := by
      intro u
      refine .andThen fun _ => .ite ((reads_arguments hg).bind fun args => ?_)
        (.node (by grind) rfl)
      exact .nodeThen rfl fun n hn => (reads_subscripts hg).mono (by grind)
    have hfirst : ∀ u, v.Reads (v.weigh callee) (first u) v.weigh :=
      fun u => .ite (.andThen fun u => hrest u) (hrest ())
    exact .ite (.andThen fun u => (hfirst u).mono (by grind)) ((hfirst ()).mono (by grind))

theorem reads_memberOrNew : v.Reads 0 (memberOrNew g) v.weigh := by
  refine .andThen fun t => .andThen fun _ => .ite (reads_newExpression hg) ?_
  refine .andThen fun _ => .ite (.nodeThen rfl fun n hn => (reads_subscripts hg).mono (by grind)) ?_
  refine .andThen fun _ => .ite (reads_importExpression hg) ?_
  exact (reads_primary hg).bind fun object => .ite (.pure (by grind))
    ((reads_subscripts hg).mono (by grind))

theorem reads_leftHandSide : v.Reads 0 (leftHandSide g) v.weigh := by
  refine .andThen fun t => .andThen fun _ => .ite ?_ ?_
  · exact .nodeThen rfl fun n hn => (reads_subscripts hg).mono (by grind)
  refine .andThen fun _ => .ite (reads_importExpression hg) ?_
  refine (reads_memberOrNew hg).bind fun callee => .ite (.pure (by grind))
    (.andThen fun _ => .ite ?_ (.pure (by grind)))
  refine (reads_arguments hg).bind fun args => ?_
  refine .nodeThen ?_ fun n hn => (reads_subscripts hg).mono (by grind)
  split <;> rfl

/-! ## operators -/

theorem reads_awaitFrom {start : Nat} : v.Reads 0 (awaitFrom g start) v.weigh := by
  have hoperand : v.Reads 0 (do node .await start [← g.unary]) v.weigh :=
    hg.unary.bind fun inner => .node (by grind) rfl
  repeat' first
    | exact .node (by grind) rfl
    | exact hoperand
    | refine .ite ?_ ?_
    | refine .andThen fun _ => ?_

theorem reads_operandOrInvalid {start : Nat} : v.Reads 0 (operandOrInvalid g start) v.weigh := by
  refine hg.unary.attempt.bind fun r => ?_
  cases r with
  | ok n => exact .pure (by grind)
  | error fault => exact .andThen fun _ => .pure (by grind)

theorem reads_unaryExpression : v.Reads 0 (unaryExpression g) v.weigh := by
  refine .andThen fun t => .ite (.andThen fun _ => ?_) ?_
  · exact hg.unary.bind fun operand => .andThen fun _ => .node (by grind) rfl
  split
  · refine .andThen fun _ => .andThen fun _ => (reads_operandOrInvalid hg).bind fun operand => ?_
    exact .ite (.andThen fun _ => .node (by grind) rfl) (.node (by grind) rfl)
  · refine .andThen fun _ => .ite (reads_awaitFrom hg) ?_
    refine (reads_leftHandSide hg).bind fun e => .andThen fun _ => .ite (.pure (by grind)) ?_
    refine .andThen fun _ => .andThen fun _ => .ite (.andThen fun _ => ?_) (.pure (by grind))
    exact .andThen fun _ => .node (by grind) rfl

omit hg in
instance : v.Quiet operator? := by
  refine ⟨.andThen fun t => ?_⟩
  split
  · exact .pure (by grind)
  · exact .pure (by grind)
  · exact .andThen fun c => .ite (.pure (by grind)) (.pure (by grind))
  · exact .pure (by grind)

omit hg in
instance (op : Option Symbol) (left right : Node) : v.Quiet (checkNullish op left right) := by
  unfold checkNullish
  infer_instance

theorem reads_binaryStep {least : Nat} {left : Node} :
    v.Reads (v.weigh left) (binaryStep g least left) fun r => v.weigh (r.getD left) := by
  refine .andThen fun r => ?_
  split
  · exact .pure (by grind)
  · rename_i op precedence
    refine .ite (.pure (by grind)) (.andThen fun _ => ?_)
    extract_lets isUnary right
    have hright : ∀ u, v.Reads (v.weigh left) (right u) fun r => v.weigh (r.getD left) := by
      intro u
      refine hg.unary.bind fun operand => ?_
      refine .bindOn (hg.binary operand _) (v.weigh left) (by grind) fun n => ?_
      exact .andThen fun _ => .pure (by grind)
    exact .ite (.andThen fun u => hright u) (hright ())

theorem reads_binaryFrom {left : Node} {least : Nat} :
    v.Reads (v.weigh left) (binaryFrom g left least) v.weigh :=
  .iterate (by grind) fun _ => reads_binaryStep hg

theorem reads_binaryExpression : v.Reads 0 (binaryExpression g) v.weigh := by
  refine hg.unary.attempt.bind fun r => ?_
  extract_lets rest
  have hrest : ∀ left, v.Reads (v.weigh left) (rest left) v.weigh :=
    fun left => .ite (.pure (by grind)) (hg.binary left 0)
  cases r with
  | ok n => exact .pureThen ((hrest n).mono (by grind))
  | error fault =>
    refine .andThen fun op => .ite (.andThen fun t => .andThen fun _ => ?_) ?_
    · exact .pureThen ((hrest _).mono (by grind))
    · exact .bind (g := v.weigh) .throw fun n => (hrest n).mono (by grind)

theorem reads_conditional : v.Reads 0 (conditional g) v.weigh := by
  refine (reads_binaryExpression hg).bind fun test => .ite (.pure (by grind))
    (.andThen fun _ => .ite ?_ (.pure (by grind)))
  refine hg.assignment.includingIn.bind fun yes => .andThen fun _ => ?_
  exact hg.assignment.bind fun no => .node (by grind) rfl

theorem reads_yieldExpression : v.Reads 0 (yieldExpression g) v.weigh := by
  refine .andThen fun t => .andThen fun _ => .andThen fun c => ?_
  extract_lets rest
  have hrest : ∀ u, v.Reads 0 (rest u) v.weigh := by
    intro u
    refine .andThen fun _ => .andThen fun _ => .ite (.node (by grind) rfl) (.andThen fun _ => ?_)
    exact hg.assignment.bind fun inner => .node (by grind) rfl
  exact .ite (.andThen fun u => hrest u) (hrest ())

omit hg in
theorem reads_assignmentTarget {left : Node} {plain : Bool} :
    v.Reads (v.weigh left) (assignmentTarget left plain) v.weigh := by
  unfold assignmentTarget
  extract_lets rest keep check
  have hrest : ∀ target, v.Reads (v.weigh target) (rest target) v.weigh :=
    fun target => .ite (.andThen fun _ => .pure (by grind)) (.pure (by grind))
  refine .ite (.bindOn (reads_asPattern .assignment left) 0 (by grind) fun p =>
    (hrest p).mono (by grind)) ?_
  have hcheck : ∀ u, v.Reads (v.weigh left) (check u) v.weigh := by
    intro u
    have hkeep : v.Reads (v.weigh left) (keep ()) v.weigh := .pureThen (hrest left)
    unfold check
    split
    · exact .ite (.andThen fun _ => hkeep) hkeep
    · exact hkeep
  exact .andThen fun c => .ite (.andThen fun u => hcheck u) (hcheck ())

theorem reads_assignmentExpression : v.Reads 0 (assignmentExpression g) v.weigh := by
  refine .andThen fun _ => .andThen fun t => .andThen fun c => .ite (reads_yieldExpression hg) ?_
  refine .modifyThen (fun _ => ⟨rfl, rfl, rfl, id⟩) fun _ => ?_
  refine (reads_conditional hg).bind fun left => .ite (.pure (by grind)) (.andThen fun t => ?_)
  split
  · refine .ite ?_ (.pure (by grind))
    refine .bindOn reads_assignmentTarget 0 (by grind) fun target => .andThen fun _ => ?_
    exact hg.assignment.bind fun right => .node (by grind) rfl
  · exact .pure (by grind)

end Bindle.Script.Grammar
