import Bindle.Proofs.Script.Framed.Primary

/-!
# Calls, members and operators have twins

What stands behind an operand, a member, a call or an operator with its right side, makes a tree
that begins where the operand does.  Where an operand is missing, a stand-in is read on from on the
side of the source, and the script is refused at its end.
-/

namespace Bindle.Script.Grammar

open Parse Script.Frame

variable {w : Frame} {g g' : Grammar} {lo l from_ mid : Nat}

/-! ## calls and members -/

@[simp]
theorem isArrow_node (n : Node) : isArrow (w.node n) = isArrow n := by
  rw [isArrow, isArrow, kind_node]

@[simp]
theorem isSuperOrImport_node (n : Node) : isSuperOrImport (w.node n) = isSuperOrImport n := by
  rw [isSuperOrImport, isSuperOrImport, kind_node]

theorem twin_memberOf {object prop : Node} {dotted noCall : Bool}
    (hobject : object.Sits w.Mark from_ mid) (hprop : prop.Lies w.Mark mid l) :
    w.Sim lo l (w.Heads from_) (memberOf object prop dotted noCall)
      (memberOf (w.node object) (w.node prop) dotted noCall) := by
  have hparts : Node.LieIn w.Mark object.start l [object, prop] :=
    .cons hobject.lies hprop.lieIn
  have hnode : ∀ {kind : Kind} {k place}, kind.isPlain = true → place ≤ object.start →
      w.Sim k l (w.Heads place) (Parse.node kind object.start [object, prop])
        (Parse.node kind (object.start + w.before) [w.node object, w.node prop]) :=
    fun hkind hplace => .head hkind hplace hobject.marked hparts
  unfold memberOf
  rw [kind_node, kind_node, start_node]
  refine .ite (.andThen fun c => .ite (.of_stops .fail) (.ite (.of_stops .fail) ?_)) (.ite ?_ ?_)
  · split
    · exact .of_stops .failHere
    · exact hnode rfl hobject.le_start
  · refine (hnode rfl (Nat.le_refl _)).thenHead fun h inner _ hinner => ?_
    exact .head rfl hobject.le_start hobject.marked hinner.toLies.lieIn
  · exact hnode rfl hobject.le_start

/-- a call with its callee before the arguments -/
theorem twin_callOf {callee : Node} {args : List Node} (hl : 0 < l)
    (hcallee : callee.Sits w.Mark from_ mid) (hargs : Node.LieIn w.Mark mid l args) :
    w.Sim lo l (w.Heads from_) (Parse.node .call callee.start (callee :: args))
      (Parse.node .call (callee.start + w.before) (w.node callee :: args.map w.node)) :=
  .call hl hcallee.le_start hcallee.marked (.cons hcallee.lies hargs)

/-- another node that begins with an operand -/
theorem twin_behind {kind : Kind} {operand : Node} {parts : List Node} (hkind : kind.isPlain = true)
    (hoperand : operand.Sits w.Mark from_ mid) (hparts : Node.LieIn w.Mark mid l parts) :
    w.Sim lo l (w.Heads from_) (Parse.node kind operand.start (operand :: parts))
      (Parse.node kind (operand.start + w.before) (w.node operand :: parts.map w.node)) :=
  .head hkind hoperand.le_start hoperand.marked (.cons hoperand.lies hparts)

/-- one more step behind an operand -/
theorem twin_some {p p' : Parse Node} (hp : w.Sim lo l (w.Heads from_) p p') :
    w.Sim lo l (fun hi => Option.Rel (w.Heads from_ hi)) (p >>= fun n => pure (some n))
      (p' >>= fun n => pure (some n)) :=
  hp.thenHead fun _ _ _ hn => .pure fun _ hhi => .some ⟨rfl, hn.mono (Nat.le_refl _) hhi⟩

section

variable (hg : g.Twins w g')

include hg

theorem twin_subscript {noCall : Bool} {object : Node} (hobject : object.Sits w.Mark from_ l) :
    w.Sim l l (fun hi => Option.Rel (w.Heads from_ hi)) (subscript g noCall object)
      (subscript g' noCall (w.node object)) := by
  refine .andThen fun dotted => .ifEat (fun h _ hh hpos => .lastStart hpos fun start => ?_)
    (.andThen fun _ => ?_)
  · refine (twin_expression hg).includingIn.thenNode fun h' inner hh' hinner => .andThen fun _ => ?_
    have hprop : w.Sim h' h' (w.Reads l) (Parse.node .computed start [inner])
        (Parse.node .computed (start + w.before) [w.node inner]) :=
      .node rfl (hinner.mono hh (Nat.le_refl _)).lieIn
    exact hprop.thenNode fun h'' prop _ hprop => twin_some (twin_memberOf hobject hprop)
  · rw [kind_node, isSuperOrImport_node, start_node]
    refine .ite ((twin_arguments hg).bind ?_) ?_
    · rintro h args _ _ ⟨hpos, rfl, hargs⟩
      refine .ite ?_ (twin_some (twin_callOf hpos hobject hargs))
      refine .ite (.of_stops (.bind .failHere)) (twin_some (twin_behind rfl hobject hargs))
    · extract_lets rest rest'
      have hrest : ∀ named, w.Sim l l (fun hi => Option.Rel (w.Heads from_ hi)) (rest named)
          (rest' named) := by
        intro named
        refine .ite (twin_memberName.thenNode fun h prop _ hprop => ?_) ?_
        · exact twin_some (twin_memberOf hobject hprop)
        refine .ite (.of_stops .failHere) (.ite (.of_stops .failHere) ?_)
        refine .token fun t stop remarks hlo _ _ => ?_
        rw [kind_token]
        cases t.kind with
        | template part bad =>
          refine (twin_templateParts hg).thenNodes fun h parts _ hparts => ?_
          have hparts := hparts.mono hlo (Nat.le_refl _)
          refine .ite (.andThen fun _ => ?_) ?_
          all_goals exact twin_some (twin_behind rfl hobject hparts)
        | _ => exact .pure fun _ _ => .none
      exact .ite (.pureThen (hrest true)) (.andThen fun named => hrest named)

theorem twin_subscripts {noCall : Bool} {object : Node} (hobject : object.Sits w.Mark from_ l) :
    w.Sim lo l (w.Heads from_) (subscripts g noCall object)
      (subscripts g' noCall (w.node object)) := by
  refine .iterate (fun _ _ _ _ hle h => ⟨h.1, h.2.mono (Nat.le_refl _) hle⟩) ⟨rfl, hobject⟩ ?_
  rintro h n _ _ ⟨rfl, hn⟩
  exact twin_subscript hg hn

/-- an operand of one word, with what stands behind it -/
theorem twin_wordSubscripts {kind : Kind} {start : Nat} {noCall : Bool}
    (hkind : kind.isPlain = true) (hfrom : from_ ≤ start) (hmark : w.Mark start) (hstart : start ≤ l) :
    w.Sim lo l (w.Heads from_) (Parse.node kind start [] >>= fun n => subscripts g noCall n)
      (Parse.node kind (start + w.before) [] >>= fun n => subscripts g' noCall n) := by
  have hnode : w.Sim lo l (w.Heads from_) (Parse.node kind start [])
      (Parse.node kind (start + w.before) []) :=
    .head hkind hfrom hmark (.nil hstart)
  exact hnode.thenHead fun h n _ hn => twin_subscripts hg hn

theorem twin_importExpression {start : Nat} {noCall : Bool} (hfrom : from_ ≤ start)
    (hmark : w.Mark start) (hstart : start ≤ l) :
    w.Sim lo l (w.Heads from_) (importExpression g start noCall)
      (importExpression g' (start + w.before) noCall) := by
  have hword : ∀ {kind}, kind.isPlain = true → w.Sim lo l (w.Heads from_)
      (Parse.node kind start [] >>= fun n => subscripts g noCall n)
      (Parse.node kind (start + w.before) [] >>= fun n => subscripts g' noCall n) :=
    fun hkind => twin_wordSubscripts hg hkind hfrom hmark hstart
  refine .andThen fun _ => .ite (.andThen fun _ => .andThen fun name => ?_) (hword rfl)
  exact .ite (hword rfl) (.ite (hword rfl) (.of_stops .unexpected))

theorem twin_newExpression {start : Nat} (hfrom : from_ ≤ start) (hmark : w.Mark start)
    (hstart : start ≤ l) :
    w.Sim lo l (w.Heads from_) (newExpression g start) (newExpression g' (start + w.before)) := by
  refine .andThen fun _ => .ite (.andThen fun _ => .ite (.andThen fun c => ?_) ?_) ?_
  · have htarget : w.Sim lo l (w.Heads from_)
        (Parse.node .metaProperty start [] >>= fun n => subscripts g true n)
        (Parse.node .metaProperty (start + w.before) [] >>= fun n => subscripts g' true n) :=
      twin_wordSubscripts hg rfl hfrom hmark hstart
    exact .ite (.andThen fun _ => htarget) htarget
  · exact .of_stops .unexpected
  refine hg.member.thenHead fun h callee hh hcallee => ?_
  have hbehind : callee.Lies w.Mark start h := hcallee.toLies.mono hstart (Nat.le_refl _)
  rw [kind_node, start_node, parts_node, List.head?_map]
  refine .ite (.pure fun hi hhi => ⟨rfl, hcallee.mono (Nat.le_trans hfrom hstart) hhi⟩) ?_
  extract_lets rest checked rest' checked'
  have hrest : ∀ u, w.Sim h h (w.Heads from_) (rest u) (rest' u) := by
    intro u
    refine .andThen fun _ => .ite ((twin_arguments hg).bind ?_) ?_
    · rintro h' args _ hh' ⟨-, rfl, hargs⟩
      have hnode : w.Sim h' h' (w.Heads from_) (Parse.node (.new true) start (callee :: args))
          (Parse.node (.new true) (start + w.before) (w.node callee :: args.map w.node)) :=
        .head rfl hfrom hmark (.cons hbehind hargs)
      exact hnode.thenHead fun h'' n _ hn => twin_subscripts hg hn
    · exact .head rfl hfrom hmark hbehind.lieIn
  have hchecked : ∀ u, w.Sim h h (w.Heads from_) (checked u) (checked' u) :=
    fun u => .iteOf (by simp [Option.any_map]) (.of_stops (.bind .fail)) (hrest ())
  exact .ite (.of_stops (.bind .fail)) (hchecked ())

theorem twin_memberOrNew : w.Sim lo l (w.Heads lo) (memberOrNew g) (memberOrNew g') := by
  refine .token fun t stop remarks hlo _ hmark => .ifEatWord (fun h hstart _ _ => ?_) (.ifEatWord
    (fun h hstart _ _ => ?_) (.ifEatWord (fun h hstart _ _ => ?_) ?_))
  · exact twin_newExpression hg hlo hmark hstart
  · exact twin_wordSubscripts hg rfl hlo hmark hstart
  · exact twin_importExpression hg hlo hmark hstart
  · refine (twin_primary hg).thenHead fun h object _ hobject => ?_
    have hobject := hobject.mono hlo (Nat.le_refl h)
    refine .iteOf (by simp) ?_ (twin_subscripts hg hobject)
    exact .pure fun hi hhi => ⟨rfl, hobject.mono (Nat.le_refl _) hhi⟩

theorem twin_leftHandSide : w.Sim lo l (w.Heads lo) (leftHandSide g) (leftHandSide g') := by
  refine .token fun t stop remarks hlo _ hmark => .ifEatWord (fun h hstart _ _ => ?_) (.ifEatWord
    (fun h hstart _ _ => ?_) ?_)
  · exact twin_wordSubscripts hg rfl hlo hmark hstart
  · exact twin_importExpression hg hlo hmark hstart
  refine (twin_memberOrNew hg).thenHead fun h callee _ hcallee => ?_
  have hreturn : ∀ {k}, w.Sim k h (w.Heads lo) (pure callee) (pure (w.node callee)) :=
    .pure fun hi hhi => ⟨rfl, hcallee.mono hlo hhi⟩
  rw [kind_node]
  refine .iteOf (by simp) hreturn (.andThen fun _ =>
    .iteOf (by simp) ((twin_arguments hg).bind ?_) hreturn)
  rintro h' args _ _ ⟨hpos, rfl, hargs⟩
  extract_lets kind
  have hparts : Node.LieIn w.Mark t.start h' (callee :: args) := .cons hcallee.toLies hargs
  have hnode : w.Sim h' h' (w.Heads lo) (Parse.node kind t.start (callee :: args))
      (Parse.node kind (t.start + w.before) (w.node callee :: args.map w.node)) := by
    unfold kind
    split
    · exact .head rfl hlo hmark hparts
    · exact .call hpos hlo hmark hparts
  exact hnode.thenHead fun h'' n _ hn => twin_subscripts hg hn

/-! ## operators -/

theorem twin_awaitFrom {start : Nat} (hfrom : from_ ≤ start) (hmark : w.Mark start)
    (hstart : start ≤ l) :
    w.Sim lo l (w.Heads from_) (awaitFrom g start) (awaitFrom g' (start + w.before)) := by
  have hname : ∀ {k}, w.Sim k l (w.Heads from_) (Parse.node (.identifier "await") start [])
      (Parse.node (.identifier "await") (start + w.before) []) :=
    .head rfl hfrom hmark (.nil hstart)
  have hoperand : ∀ {k}, w.Sim k l (w.Heads from_) (do Parse.node .await start [← g.unary])
      (do Parse.node .await (start + w.before) [← g'.unary]) :=
    hg.unary.thenNode fun h inner _ hinner =>
      .head rfl hfrom hmark (hinner.mono hstart (Nat.le_refl _)).lieIn
  repeat' first
    | exact hname
    | exact hoperand
    | exact .of_stops (.bind .failHere)
    | refine .ite ?_ ?_
    | refine .andThen fun _ => ?_

/-- where the operand is missing, the script is refused in the end -/
theorem twin_operandOrInvalid {start start' : Nat} :
    w.Sim lo l (w.Reads l) (operandOrInvalid g start) (operandOrInvalid g' start') := by
  refine .attempt (R := w.Reads l) hg.unary ?_ fun h fault hh => ?_
  · rintro h n _ _ ⟨rfl, hn⟩
    exact .pure fun hi hhi => ⟨rfl, hn.mono (Nat.le_refl _) hhi⟩
  · have hstandIn : w.Sim h h (w.Reads l) (pure (.mk .invalid start start []))
        (pure (w.node (.mk .invalid start start []))) :=
      .pure fun hi hhi => ⟨rfl, (Node.lies_mk rfl ..).mpr (.nil (Nat.le_trans hh hhi))⟩
    exact .report (.of_sim hstandIn)

omit hg in
theorem unaryOperator?_kind (k : Token.Kind) : unaryOperator? (w.kind k) = unaryOperator? k := by
  cases k <;> rfl

omit hg in
theorem isProper_of_unaryOperator {k : Token.Kind} {isDelete : Bool}
    (h : unaryOperator? k = some isDelete) : k.isProper := by
  cases k with
  | word name => rfl
  | symbol x => rfl
  | _ => cases h

omit hg in
instance (n : Node) : w.Steps (checkTarget n) (checkTarget (w.node n)) :=
  .of_notes (notes_checkTarget n)

theorem twin_unaryExpression : w.Sim lo l (w.Reads l) (unaryExpression g) (unaryExpression g') := by
  refine ⟨fun s s' hs => .token hs fun stop remarks => ?_⟩
  rw [kind_token, start_token, unaryOperator?_kind]
  refine .iteOf (by simp) (fun hupdate => ?_) fun _ => ?_
  · have hproper : s.token.kind.isProper := by
      rcases Bool.or_eq_true_iff.mp hupdate with h | h
      all_goals rw [eq_of_beq h]; rfl
    refine .advanceThen hs hproper fun h _ hl _ => hg.unary.thenNode fun h' operand _ hoperand => ?_
    exact .andThen fun _ => .node rfl (hoperand.mono hl (Nat.le_refl _)).lieIn
  cases hoperator : unaryOperator? s.token.kind with
  | some isDelete =>
    refine .advanceThen hs (isProper_of_unaryOperator hoperator) fun h _ hl _ => ?_
    refine .token fun t stop' remarks' _ _ _ => ?_
    refine (twin_operandOrInvalid hg).thenNode fun h' operand _ hoperand => ?_
    have hnode : ∀ {k}, w.Sim k h' (w.Reads l)
        (Parse.node (.unary isDelete) s.token.start [operand])
        (Parse.node (.unary isDelete) (s.token.start + w.before) [w.node operand]) :=
      .node rfl (hoperand.mono hl (Nat.le_refl _)).lieIn
    exact .iteOf (by simp) (.andThen fun _ => hnode) hnode
  | none =>
    refine .eatWord hs (fun h hstart _ _ => ?_) ?_
    · exact (twin_awaitFrom hg hs.l_le_start hs.fine.start hstart).reads
    refine Sim.simAt ((twin_leftHandSide hg).heads.thenHead fun h e hl he => ?_) s s' hs
    have hreturn : w.Sim h h (w.Reads l) (pure e) (pure (w.node e)) :=
      .pure fun hi hhi => ⟨rfl, he.toLies.mono (Nat.le_refl _) hhi⟩
    rw [start_node]
    refine .andThen fun newline => .iteOf (by simp) hreturn ⟨fun s s' hs => ?_⟩
    have hupdate : s.token.kind.isProper → w.SimAt (w.Reads l) s s'
        (checkTarget e >>= fun _ => advance >>= fun _ => Parse.node .update e.start [e])
        (checkTarget (w.node e) >>= fun _ => advance >>= fun _ =>
          Parse.node .update (e.start + w.before) [w.node e]) := by
      intro hproper
      refine .notesThen hs (notes_checkTarget e) fun _ _ fs ms t' _ ht => ?_
      refine .advanceThen ht hproper fun h' _ hh' _ => ?_
      exact .node rfl (he.toLies.mono (Nat.le_refl _) hh').lieIn
    refine .atSymbol hs (fun hincrement => ?_) (.atSymbol hs (fun hdecrement => ?_) ?_)
    · have hproper : s.token.kind.isProper := by rw [hincrement]; rfl
      exact .atSymbol hs (fun _ => hupdate hproper) (hupdate hproper)
    · exact hupdate (by rw [hdecrement]; rfl)
    · exact hreturn.simAt s s' hs

omit hg

@[simp]
theorem isLogical_node (n : Node) : isLogical (w.node n) = isLogical n := by
  rw [isLogical, isLogical, kind_node]

/-- an operator stands at a token that can be taken -/
theorem simAt_operator {β β' : Type} {S : Nat → β → β' → Prop}
    {q : Option (Option Symbol × Nat) → Parse β} {q' : Option (Option Symbol × Nat) → Parse β'}
    {s s' : State} (hs : w.Meets lo l s s')
    (hsome : ∀ r, s.token.kind.isProper → w.SimAt S s s' (q (some r)) (q' (some r)))
    (hnone : w.SimAt S s s' (q none) (q' none)) :
    w.SimAt S s s' (operator? >>= q) (operator? >>= q') := by
  rw [operator?, bind_assoc, bind_assoc]
  refine .token hs fun stop remarks => ?_
  rw [kind_token]
  rcases kind_cases (w := w) s.token.kind with hsame | ⟨part, bad, htemplate⟩ | ⟨fault, hfault⟩
  · rw [hsame]
    split
    · rename_i x hx
      rw [pure_bind, pure_bind]
      cases x.precedence? with
      | none => exact hnone
      | some p => exact hsome _ (by rw [hx]; rfl)
    · rename_i hword
      exact hsome _ (by rw [hword]; rfl)
    · rename_i hword
      rw [bind_assoc, bind_assoc]
      refine .scope hs.twin ?_
      split
      · exact hsome _ (by rw [hword]; rfl)
      · exact hnone
    · exact hnone
  · rw [htemplate]
    exact hnone
  · rw [hfault]
    exact hnone

instance : w.Steps operator? operator? := by
  refine ⟨fun lo l => ⟨fun s s' hs => ?_⟩⟩
  rw [← bind_pure operator?]
  exact simAt_operator hs (fun r _ => .pure hs rfl) (.pure hs rfl)

instance (op : Option Symbol) (left right : Node) :
    w.Steps (checkNullish op left right) (checkNullish op (w.node left) (w.node right)) := by
  unfold checkNullish
  rw [isLogical_node, isLogical_node, kind_node]
  infer_instance

include hg

/-- an operator and its right side make a tree that begins where the left side does -/
theorem twin_binaryStep {least : Nat} {left : Node} (hleft : left.Lies w.Mark from_ l) :
    w.Sim l l (fun hi => Option.Rel fun n n' => w.Reads from_ hi n n' ∧ n.start = left.start)
      (binaryStep g least left) (binaryStep g' least (w.node left)) := by
  refine ⟨fun s s' hs => simAt_operator hs (fun r hproper => ?_) (.pure hs .none)⟩
  obtain ⟨op, precedence⟩ := r
  refine .ite (fun _ => .pure hs .none) fun _ => .advanceThen hs hproper fun h _ hl _ => ?_
  rw [kind_node]
  extract_lets isUnary right right'
  have hright : ∀ u, w.Sim h h (fun hi => Option.Rel fun n n' =>
      w.Reads from_ hi n n' ∧ n.start = left.start) (right u) (right' u) := by
    intro u
    refine hg.unary.thenNode fun h' operand _ hoperand => (hg.binary hoperand).bind ?_
    rintro h'' n _ _ ⟨⟨rfl, hn⟩, -⟩
    refine .andThen fun _ => .pure fun hi hhi => .some ⟨⟨by simp [node_mk], ?_⟩, rfl⟩
    have hparts : Node.LieIn w.Mark from_ hi [left, n] :=
      .cons hleft (hn.mono hl hhi).lieIn
    exact (Node.lies_mk rfl ..).mpr hparts
  exact .ite (.of_stops (.bind .failHere)) (hright ())

theorem twin_binaryFrom {left : Node} {least : Nat} (hleft : left.Lies w.Mark from_ l) :
    w.Sim lo l (fun hi n n' => w.Reads from_ hi n n' ∧ n.start = left.start)
      (binaryFrom g left least) (binaryFrom g' (w.node left) least) := by
  refine .iterate (fun _ _ _ _ hle h => ⟨⟨h.1.1, h.1.2.mono (Nat.le_refl _) hle⟩, h.2⟩)
    ⟨⟨rfl, hleft⟩, rfl⟩ ?_
  rintro h n _ _ ⟨⟨rfl, hn⟩, hstart⟩
  rw [← hstart]
  exact twin_binaryStep hg hn

theorem twin_binaryExpression :
    w.Sim lo l (w.Reads l) (binaryExpression g) (binaryExpression g') := by
  have hrest : ∀ {k h} (n : Node), n.Lies w.Mark l h → w.Sim k h (w.Reads l)
      (if isArrow n then pure n else g.binary n 0)
      (if isArrow (w.node n) then pure (w.node n) else g'.binary (w.node n) 0) := by
    intro k h n hn
    refine .iteOf (by simp) (.pure fun hi hhi => ⟨rfl, hn.mono (Nat.le_refl _) hhi⟩) ?_
    exact (hg.binary hn).mono fun _ _ _ _ h => h.1
  refine .attempt (R := w.Reads l) hg.unary ?_ fun h fault hh => ?_
  · rintro h n _ _ ⟨rfl, hn⟩
    exact .pureThen (hrest n hn)
  · refine .andThen fun op h' hh' => .ite ?_ ?_
    · have hstandIn : (Node.mk .invalid fault.offset fault.offset []).Lies w.Mark l h' :=
        (Node.lies_mk rfl ..).mpr (.nil (Nat.le_trans hh hh'))
      exact .token fun t => .report (.of_sim (.pureThen (hrest _ hstandIn)))
    · exact .of_stops (.bind .throw)

theorem twin_conditional : w.Sim lo l (w.Reads l) (conditional g) (conditional g') := by
  refine (twin_binaryExpression hg).thenNode fun h test _ htest => ?_
  have hreturn : ∀ {k}, w.Sim k h (w.Reads l) (pure test) (pure (w.node test)) :=
    .pure fun hi hhi => ⟨rfl, htest.mono (Nat.le_refl _) hhi⟩
  rw [isArrow_node, start_node]
  refine .ite hreturn (.ifEat (fun h' _ hh' _ => ?_) hreturn)
  refine hg.assignment.includingIn.thenNode fun h'' yes _ hyes => .andThen fun _ => ?_
  refine hg.assignment.thenNode fun h₃ no _ hno => .node rfl ?_
  exact .cons htest (.cons (hyes.mono hh' (Nat.le_refl _)) hno.lieIn)

omit hg in
theorem beginsOperand_kind (k : Token.Kind) : beginsOperand (w.kind k) = beginsOperand k := by
  cases k <;> rfl

/-- the current token is the word -/
theorem twinAt_yieldExpression {s s' : State} (hs : w.Meets lo l s s')
    (hword : s.token.kind = .word "yield") :
    w.SimAt (w.Reads l) s s' (yieldExpression g) (yieldExpression g') := by
  refine .token hs fun stop remarks => .advanceThen hs (by rw [hword]; rfl) fun h _ hl _ => ?_
  refine .andThen fun c => .ite (.of_stops (.bind .fail)) ?_
  refine .andThen fun _ => .token fun t stop' remarks' _ _ _ => ?_
  rw [kind_token, beginsOperand_kind]
  refine .ite (.node rfl (.nil hl)) (.andThen fun _ => ?_)
  exact hg.assignment.thenNode fun h' inner _ hinner =>
    .node rfl (hinner.mono hl (Nat.le_refl _)).lieIn

omit hg in
theorem notes_assignmentTarget (left : Node) (plain : Bool) :
    w.Notes (Becomes w left) (assignmentTarget left plain)
      (assignmentTarget (w.node left) plain) := by
  unfold assignmentTarget
  extract_lets rest keep check keep' check'
  have hrest : ∀ target target', Becomes w left target target' →
      w.Notes (Becomes w left) (rest target) (rest target') := by
    rintro target _ ⟨rfl, hbounds⟩
    refine .iteOf (by simp) (.of_stops (.bind .fail)) (.pure ⟨rfl, hbounds⟩)
  refine .ite ((notes_asPattern .assignment left).bind hrest) ?_
  have hcheck : ∀ u, w.Notes (Becomes w left) (check u) (check' u) := by
    intro u
    have hkeep : w.Notes (Becomes w left) (keep ()) (keep' ()) :=
      hrest left (w.node left) (.refl left)
    unfold check check'
    rw [kind_node]
    split
    · exact .ite ((Notes.reportStrict ..).andThen fun _ => hkeep) hkeep
    · exact hkeep
  exact Notes.scope.andThen fun c =>
    .iteOf (by simp) ((Notes.report ..).andThen fun u => hcheck u) (hcheck ())

omit hg in
@[simp]
theorem isOperatorExpression_node (n : Node) :
    isOperatorExpression (w.node n) = isOperatorExpression n := by
  rw [isOperatorExpression, isOperatorExpression, kind_node]

theorem twin_assignmentExpression :
    w.Sim lo l (w.Reads l) (assignmentExpression g) (assignmentExpression g') := by
  refine ⟨fun s s' hs => .refuseInvalid hs fun hvalid => .token hs fun stop remarks =>
    .scope hs.twin ?_⟩
  refine .iteOf (by simp) (fun hyield => ?_) (fun _ => ?_)
  · have hword := eq_of_beq (Bool.and_eq_true_iff.mp hyield).2
    exact twinAt_yieldExpression hg hs hword
  extract_lets mayBeArrow mayBeArrow'
  have hmay : mayBeArrow' = mayBeArrow := by
    unfold mayBeArrow mayBeArrow'
    rw [kind_token]
    cases s.token.kind <;> rfl
  rw [hmay, start_token]
  refine Sim.simAt ?_ s s' hs
  refine .modifyThen (fun _ => ⟨rfl, rfl, rfl, rfl⟩)
    (fun t t' ht => { ht with arrowStart := ?_ }) ?_
  · show (if mayBeArrow = true then some (s.token.start + w.before) else none) =
      (if mayBeArrow = true then some s.token.start else none).map (· + w.before)
    cases mayBeArrow <;> rfl
  refine (twin_conditional hg).thenNode fun h left _ hleft => ?_
  have hreturn : ∀ {k}, w.Sim k h (w.Reads l) (pure left) (pure (w.node left)) :=
    .pure fun hi hhi => ⟨rfl, hleft.mono (Nat.le_refl _) hhi⟩
  refine .iteOf (by simp) hreturn ⟨fun t t' ht => .token ht fun stop remarks => ?_⟩
  rw [kind_token, start_node]
  cases hkind : t.token.kind with
  | symbol x =>
    refine .ite (fun _ => ?_) fun _ => hreturn.simAt t t' ht
    refine .notesThen ht (notes_assignmentTarget left (x == .assign)) ?_
    rintro target _ fs ms t' ⟨rfl, hbounds⟩ ht
    have hproper : t.token.kind.isProper := by rw [hkind]; rfl
    refine .advanceThen ht hproper fun h' _ hh' _ =>
      hg.assignment.thenNode fun h'' right _ hright => ?_
    exact .node rfl (.cons (hbounds _ _ hleft) (hright.mono hh' (Nat.le_refl _)).lieIn)
  | _ => exact hreturn.simAt t t' ht

end

end Bindle.Script.Grammar
