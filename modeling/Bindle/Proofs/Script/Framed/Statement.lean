import Bindle.Proofs.Script.Framed.Expression

/-!
# Statements have twins

Where a rule goes on behind a fault, such as a missing semicolon, the script is refused in the end,
and only the side of the source is followed.
-/

namespace Bindle.Script.Grammar

open Parse Script.Frame

variable {w : Frame} {g g' : Grammar} {lo l from_ : Nat}

instance (n : Node) : w.Steps (checkExpression n) (checkExpression (w.node n)) := by
  refine .of_notes ?_
  unfold checkExpression
  rw [strayInitializers_node]
  refine (Notes.forEach n.strayInitializers (fun offset u => ?_) ⟨⟩).andThen fun _ => .pure rfl
  exact (Notes.report ..).andThen fun _ => .pure rfl

section

variable (hg : g.Twins w g')

include hg

theorem twin_condition : w.Sim lo l (w.Reads l) (condition g) (condition g') := by
  refine .expect fun h _ hl _ => (twin_expression hg).includingIn.thenNode fun h' e _ he => ?_
  exact .andThen fun _ => .pure fun hi hhi => ⟨rfl, he.mono hl hhi⟩

/-! ## declarations -/

theorem twin_declarator {forHead : Bool} {word : String} :
    w.Sim lo l (w.Reads l) (declarator g forHead word) (declarator g' forHead word) := by
  refine .token fun t stop remarks _ _ _ => hg.binding.thenNode fun h name _ hname => ?_
  have hnode : ∀ {k}, w.Sim k h (w.Reads l) (Parse.node .declarator t.start [name])
      (Parse.node .declarator (t.start + w.before) [w.node name]) :=
    .node rfl hname.lieIn
  rw [isIdentifier_node]
  refine .andThen fun _ => .andThen fun _ => .ite hnode (.andThen fun _ => .ite ?_
    (.ite (.andThen fun _ => hnode) (.ite (.andThen fun _ => hnode) hnode)))
  refine hg.assignment.thenNode fun h' value _ hvalue => .andThen fun _ => ?_
  exact .node rfl (.cons hname hvalue.lieIn)

omit hg in
theorem falls_skipToEndStep : w.Falls lo l Falls.Blindly (do
    if ← eatEnd then return none
    let _ ← advance
    match (← token).kind with
    | .invalid _ => return none
    | _ => return some () : Parse (Option Unit)) := by
  refine .andThen fun yes => ?_
  cases yes with
  | true => exact .blindly none
  | false =>
    refine .bind .advance fun h _ _ _ _ => .token fun t => ?_
    split
    · exact .blindly none
    · exact .blindly (some ())

omit hg in
theorem falls_skipToEnd : w.Falls lo l Falls.Blindly skipToEnd :=
  .remaining fun n => (Falls.iterateN (fun _ => falls_skipToEndStep) n ()).bind
    fun _ _ _ _ _ => .blindly ()

theorem twin_variableList {forHead : Bool} :
    w.Sim lo l (w.Reads l) (variableList g forHead) (variableList g' forHead) := by
  refine .token fun t stop remarks _ _ _ => .andThen fun word => ?_
  extract_lets widen
  refine .bind (.iterateTreesWith (T := Eq) (Nat.le_refl l) rfl ?_) ?_
  · rintro h acc last _ _ hacc rfl
    refine .ite (.pure fun _ _ => .none) (.andThen fun _ => .ite ?_ ?_)
    · exact .lastStartAny fun _ _ => .andThen fun _ => .pure fun _ _ => .none
    refine (twin_declarator hg).within.thenNode fun h' d _ hd => .andThen fun _ => ?_
    exact .pure fun hi hhi => .some ⟨(Stacks.push ⟨rfl, hacc⟩ hd).mono hhi, rfl⟩
  rintro h ⟨found, last⟩ ⟨_, _⟩ hl ⟨⟨rfl, hfound⟩, -⟩
  have hnode : ∀ {k h'}, h ≤ h' → w.Sim k h' (w.Reads l)
      (Parse.node .variableList t.start found.reverse)
      (Parse.node .variableList (t.start + w.before) (found.map w.node).reverse) := by
    intro k h' hh
    rw [← List.map_reverse]
    exact .node rfl (hfound.mono (Nat.le_refl _) hh)
  refine .ite (.andThen fun _ => .ite (.token fun t stop remarks _ _ _ => .doom ?_) ?_) ?_
  · refine .attemptThen (.of_sim (twin_expression hg)) fun h' _ hh' => ?_
    exact falls_skipToEnd.bind fun h'' _ _ hh'' _ => .of_sim (hnode (Nat.le_trans hh' hh''))
  · exact hnode (Nat.le_refl h)
  · exact hnode (Nat.le_refl h)

/-! ## single statements -/

section

variable {s s' : State} (hs : w.Meets lo l s s') (hproper : s.token.kind.isProper)

include hs hproper

theorem twinAt_usingDeclaration {start : Nat} :
    w.SimAt (w.Reads l) s s' (usingDeclaration g start)
      (usingDeclaration g' (start + w.before)) := by
  refine .advanceThen hs hproper fun h _ hl _ => ?_
  refine .bind (.iterateTreesWith (T := Eq) hl rfl ?_) ?_
  · rintro h' acc last _ _ hacc rfl
    refine .ite (.pure fun _ _ => .none) ?_
    refine (twin_declarator hg).thenNode fun h'' d _ hd => .andThen fun _ => ?_
    exact .pure fun hi hhi => .some ⟨(Stacks.push ⟨rfl, hacc⟩ hd).mono hhi, rfl⟩
  rintro h' ⟨found, last⟩ ⟨_, _⟩ _ ⟨⟨rfl, hfound⟩, -⟩
  refine .andThen fun _ => ?_
  rw [← List.map_reverse]
  exact .node rfl hfound

omit hg in
theorem twinAt_jump {start : Nat} {isBreak : Bool} :
    w.SimAt (w.Reads l) s s' (jump start isBreak) (jump (start + w.before) isBreak) := by
  refine .advanceThen hs hproper fun h _ hl _ => .andThen fun _ => ?_
  extract_lets done rest done' rest'
  have hnode : ∀ {k h}, l ≤ h → w.Sim k h (w.Reads l) (Parse.node .jump start [])
      (Parse.node .jump (start + w.before) []) := fun hl => .node rfl (.nil hl)
  have hrest : ∀ {k h} label, l ≤ h → w.Sim k h (w.Reads l) (rest label)
      (rest' (label.map w.node)) := by
    intro k h label hl
    refine ⟨fun t t' ht => .get ?_⟩
    have hkind : (label.map w.node).map Node.kind = label.map Node.kind := by
      rw [Option.map_map]
      exact congrArg (label.map ·) (funext kind_node)
    rw [hkind, ht.twin.labels, ht.twin.scope]
    extract_lets known
    refine Sim.simAt ?_ t t' ht
    repeat' first | exact hnode hl | refine .ite ?_ ?_ | refine .andThen fun _ => ?_
  refine .ite (.pureThen (hrest none hl)) (twin_reference.thenHead fun h' id hh' _ => ?_)
  exact .andThen fun _ => .pureThen (hrest (some id) (Nat.le_trans hl hh'))

theorem twinAt_returnStatement {start : Nat} :
    w.SimAt (w.Reads l) s s' (returnStatement g start) (returnStatement g' (start + w.before)) := by
  refine .advanceThen hs hproper fun h _ hl _ => .andThen fun _ => ?_
  extract_lets rest rest'
  have hrest : ∀ {k h} value, Node.LieIn w.Mark l h value → w.Sim k h (w.Reads l) (rest value)
      (rest' (value.map w.node)) := by
    intro k h value hvalue
    have hnode : ∀ {k}, w.Sim k h (w.Reads l) (Parse.node .jump start value)
        (Parse.node .jump (start + w.before) (value.map w.node)) := .node rfl hvalue
    exact .andThen fun _ => .andThen fun c => .ite (.andThen fun _ => hnode) hnode
  refine .ite (.pureThen (hrest [] (.nil hl))) ?_
  refine (twin_expression hg).includingIn.thenNode fun h' n _ hn => .pureThen ?_
  exact hrest [n] (hn.mono hl (Nat.le_refl _)).lieIn

theorem twinAt_throwStatement {start : Nat} :
    w.SimAt (w.Reads l) s s' (throwStatement g start) (throwStatement g' (start + w.before)) := by
  refine .advanceThen hs hproper fun h _ hl _ => .andThen fun _ =>
    .ite (.of_stops (.bind .failHere)) ?_
  refine (twin_expression hg).includingIn.thenNode fun h' value _ hvalue => .andThen fun _ => ?_
  exact .node rfl (hvalue.mono hl (Nat.le_refl _)).lieIn

theorem twinAt_ifStatement {start : Nat} :
    w.SimAt (w.Reads l) s s' (ifStatement g start) (ifStatement g' (start + w.before)) := by
  refine .advanceThen hs hproper fun h _ hl _ =>
    (twin_condition hg).thenNode fun h₁ test _ htest => ?_
  have htest := htest.mono hl (Nat.le_refl _)
  refine hg.statement.thenNode fun h₂ yes _ hyes => .andThen fun _ => .ite ?_ ?_
  · exact hg.statement.thenNode fun h₃ no _ hno =>
      .pureThen (.node rfl (.cons htest (.cons hyes hno.lieIn)))
  · exact .pureThen (.node rfl (.cons htest hyes.lieIn))

/-- the test stands behind the body, and comes before it in the tree -/
theorem twinAt_doStatement {start : Nat} :
    w.SimAt (w.Reads l) s s' (doStatement g start) (doStatement g' (start + w.before)) := by
  refine .advanceThen hs hproper fun h _ hl _ => ?_
  refine hg.statement.within.thenNode fun h₁ body hh₁ hbody => .andThen fun _ => ?_
  refine (twin_condition hg).thenNode fun h₂ test hh₂ htest => .andThen fun _ => ?_
  have htests := (htest.mono (Nat.le_trans hl hh₁) (Nat.le_refl _)).lieIn
  exact .loop (htests.turn (hbody.mono hl hh₂))

theorem twinAt_whileStatement {start : Nat} :
    w.SimAt (w.Reads l) s s' (whileStatement g start) (whileStatement g' (start + w.before)) := by
  refine .advanceThen hs hproper fun h _ hl _ =>
    (twin_condition hg).thenNode fun h₁ test _ htest => ?_
  refine hg.statement.within.thenNode fun h₂ body _ hbody => ?_
  have hparts : Node.LieIn w.Mark l h₂ [test, body] :=
    .cons (htest.mono hl (Nat.le_refl _)) hbody.lieIn
  exact .loop hparts.lieTurned

theorem twinAt_withStatement {start : Nat} :
    w.SimAt (w.Reads l) s s' (withStatement g start) (withStatement g' (start + w.before)) := by
  refine .notesThen hs (Notes.reportStrict ..) fun _ _ fs ms t' _ ht => ?_
  refine .advanceThen ht hproper fun h _ hl _ =>
    (twin_condition hg).thenNode fun h₁ object _ hobject => ?_
  refine hg.statement.within.thenNode fun h₂ body _ hbody => .node rfl ?_
  exact .cons (hobject.mono hl (Nat.le_refl _)) hbody.lieIn

end

theorem twin_catchClause : w.Sim lo l (w.ReadsAll l) (catchClause g) (catchClause g') := by
  refine .token fun t stop remarks _ _ _ => .ifEatWord (fun h _ hl _ => .andThen fun _ => ?_)
    (.pure fun hi hhi => ⟨rfl, .nil hhi⟩)
  extract_lets rest rest'
  have hrest : ∀ {k h} param, Node.LieIn w.Mark l h param → w.Sim k h (w.ReadsAll l) (rest param)
      (rest' (param.map w.node)) := by
    intro k h param hparam
    refine (twin_block hg).thenNode fun h' body _ hbody => ?_
    have hnode : w.Sim h' h' (w.Reads l) (Parse.node .catchClause t.start (param ++ [body]))
        (Parse.node .catchClause (t.start + w.before) (param.map w.node ++ [w.node body])) := by
      rw [← map_node_concat]
      exact .node rfl (hparam.append hbody.lieIn)
    exact hnode.thenNode fun h'' n _ hn => .pure fun hi hhi =>
      ⟨rfl, (hn.mono (Nat.le_refl _) hhi).lieIn⟩
  refine .ite ?_ (.pureThen (hrest [] (.nil hl)))
  refine hg.binding.thenNode fun h' p _ hp => .andThen fun _ => .pureThen ?_
  exact hrest [p] (hp.mono hl (Nat.le_refl _)).lieIn

theorem twin_finallyBlock : w.Sim lo l (w.ReadsAll l) (finallyBlock g) (finallyBlock g') := by
  refine .andThen fun _ => .ite ?_ (.pure fun hi hhi => ⟨rfl, .nil hhi⟩)
  exact (twin_block hg).thenNode fun h n _ hn => .pure fun hi hhi =>
    ⟨rfl, (hn.mono (Nat.le_refl _) hhi).lieIn⟩

/-- a handler without a `try` is read only where the script is refused already -/
theorem twin_strayHandler {start : Nat} :
    w.Sim lo l (w.Reads l) (strayHandler g start) (strayHandler g' (start + w.before)) := by
  have hnode : ∀ {k h}, l ≤ h → w.Sim k h (w.Reads l) (Parse.node .empty start [])
      (Parse.node .empty (start + w.before) []) := fun hl => .node rfl (.nil hl)
  refine .doom (.attemptThen (.of_sim (twin_catchClause hg)) fun h _ hh => ?_)
  exact .attemptThen (.of_sim (twin_finallyBlock hg)) fun h' _ hh' =>
    .of_sim (hnode (Nat.le_trans hh hh'))

/-- the items of a case, up to the next one -/
theorem twin_caseItems : w.Sim lo l (w.Stacks l)
    (iterate (fun (items : List Node) => do
      if (← atWord "case") || (← atWord "default") || (← atSymbol .rbrace) then return none
      return some ((← g.statement true) :: items)) [])
    (iterate (fun (items : List Node) => do
      if (← atWord "case") || (← atWord "default") || (← atSymbol .rbrace) then return none
      return some ((← g'.statement true) :: items)) []) := by
  refine .iterateTrees (.nil (Nat.le_refl l)) fun h items _ hitems => ?_
  refine .andThen fun _ => .andThen fun _ => .andThen fun _ => .ite (.pure fun _ _ => .none) ?_
  exact hg.statement.thenNode fun h' n _ hn => .pure fun hi hhi =>
    .some ((Stacks.push ⟨rfl, hitems⟩ hn).mono hhi)

theorem twinAt_switchStatement {s s' : State} {start : Nat} (hs : w.Meets lo l s s')
    (hproper : s.token.kind.isProper) :
    w.SimAt (w.Reads l) s s' (switchStatement g start) (switchStatement g' (start + w.before)) := by
  refine .advanceThen hs hproper fun h _ hl _ =>
    (twin_condition hg).thenNode fun h₁ value _ hvalue => ?_
  have hvalue := hvalue.mono hl (Nat.le_refl _)
  refine .andThen fun _ => .bind (.within (.iterateTreesWith (T := Eq) (Nat.le_refl h₁) rfl ?_)) ?_
  · rintro h₂ acc seen _ hh₂ hacc rfl
    refine ⟨fun s s' hs => .token hs fun stop remarks => ?_⟩
    rw [kind_token, kind_beq_word, kind_bne_word]
    extract_lets isCase rest noTest rest' noTest'
    refine .ite (fun _ => .pure hs .none) fun hcase => ?_
    have hproper : s.token.kind.isProper := by
      cases hkind : s.token.kind with
      | word name => rfl
      | _ => exact absurd (by simp [isCase, hkind]) hcase
    refine .advanceThen hs hproper fun h₃ _ hh₃ _ => ?_
    have hrest : ∀ {k h} test, Node.LieIn w.Mark h₂ h test →
        w.Sim k h (fun hi => Option.Rel (w.StacksWith Eq h₁ hi)) (rest test)
          (rest' (test.map w.node)) := by
      intro k h test htest
      refine .andThen fun _ => (twin_caseItems hg).bind ?_
      rintro h' items _ _ ⟨rfl, hitems⟩
      have hnode : w.Sim h' h' (w.Reads h₂) (Parse.node .case s.token.start (test ++ items.reverse))
          (Parse.node .case (s.token.start + w.before)
            (test.map w.node ++ (items.map w.node).reverse)) := by
        rw [← List.map_reverse, ← List.map_append]
        exact .node rfl (htest.append hitems)
      exact hnode.thenNode fun h'' n _ hn => .pure fun hi hhi =>
        .some ⟨(Stacks.push ⟨rfl, hacc⟩ hn).mono hhi, rfl⟩
    refine .ite ?_ (.ite (.of_stops (.bind .failHere)) (.pureThen (hrest [] (.nil hh₃))))
    refine (twin_expression hg).includingIn.thenNode fun h₄ n _ hn => .pureThen ?_
    exact hrest [n] (hn.mono hh₃ (Nat.le_refl _)).lieIn
  · rintro h₂ ⟨found, seen⟩ ⟨_, _⟩ _ ⟨⟨rfl, hfound⟩, -⟩
    refine .andThen fun _ => ?_
    rw [← List.map_reverse]
    exact .node rfl (.cons hvalue hfound)

theorem twinAt_tryStatement {s s' : State} {start : Nat} (hs : w.Meets lo l s s')
    (hproper : s.token.kind.isProper) :
    w.SimAt (w.Reads l) s s' (tryStatement g start) (tryStatement g' (start + w.before)) := by
  refine .advanceThen hs hproper fun h _ hl _ => (twin_block hg).thenNode fun h₁ body _ hbody => ?_
  refine .token fun t stop remarks _ _ _ =>
    (twin_catchClause hg).thenNodes fun h₂ handler _ hhandler => ?_
  refine (twin_finallyBlock hg).thenNodes fun h₃ finalizer _ hfinalizer => ?_
  have hnode : ∀ {k}, w.Sim k h₃ (w.Reads l)
      (Parse.node .tryStatement start (body :: handler ++ finalizer))
      (Parse.node .tryStatement (start + w.before)
        (w.node body :: handler.map w.node ++ finalizer.map w.node)) := by
    rw [← List.map_cons, ← List.map_append]
    exact .node rfl (.append (.cons (hbody.mono hl (Nat.le_refl _)) hhandler) hfinalizer)
  exact .iteOf (by simp) (.andThen fun _ => hnode) hnode

/-! ## `for` -/

/-- the head of a loop with its parts in order -/
def ReadsHead (w : Frame) (lo hi : Nat) : ForHead → ForHead → Prop
  | .plain parts, head' => head' = .plain (parts.map w.node) ∧ Node.LieIn w.Mark lo hi parts
  | .each isOf left right, head' =>
    head' = .each isOf (w.node left) (w.node right) ∧ Node.LieIn w.Mark lo hi [left, right]

theorem twin_eachHead {left : Node} (hleft : left.Lies w.Mark from_ l) :
    w.Sim lo l (ReadsHead w from_) (eachHead g left) (eachHead g' (w.node left)) := by
  refine .andThen fun word => .ite ?_ ?_
  · exact hg.assignment.includingIn.thenNode fun h right _ hright => .pure fun hi hhi =>
      ⟨rfl, (Node.LieIn.cons hleft hright.lieIn).mono (Nat.le_refl _) hhi⟩
  · exact (twin_expression hg).includingIn.thenNode fun h right _ hright => .pure fun hi hhi =>
      ⟨rfl, (Node.LieIn.cons hleft hright.lieIn).mono (Nat.le_refl _) hhi⟩

theorem twin_plainHead {init : List Node} (hinit : Node.LieIn w.Mark from_ l init) :
    w.Sim lo l (ReadsHead w from_) (plainHead g init) (plainHead g' (init.map w.node)) := by
  refine .andThen fun _ => ?_
  extract_lets rest rest'
  have hrest : ∀ {k h} test, l ≤ h → Node.LieIn w.Mark l h test →
      w.Sim k h (ReadsHead w from_) (rest test) (rest' (test.map w.node)) := by
    intro k h test hl htest
    have hreturn : ∀ {k h'} update, Node.LieIn w.Mark h h' update → w.Sim k h' (ReadsHead w from_)
        (pure (.plain (init ++ test ++ update)))
        (pure (.plain (init.map w.node ++ test.map w.node ++ update.map w.node))) := by
      intro k h' update hupdate
      refine .pure fun hi hhi => ⟨by rw [List.map_append, List.map_append], ?_⟩
      exact ((hinit.append htest).append hupdate).mono (Nat.le_refl _) hhi
    refine .andThen fun _ => .ite (.pureThen (hreturn [] (.nil (Nat.le_refl h)))) ?_
    refine (twin_expression hg).includingIn.thenNode fun h' e _ he => .pureThen ?_
    exact hreturn [e] he.lieIn
  refine .ite (.pureThen (hrest [] (Nat.le_refl l) (.nil (Nat.le_refl l)))) ?_
  refine (twin_expression hg).includingIn.thenNode fun h e hl he => .andThen fun _ => .pureThen ?_
  exact hrest [e] hl he.lieIn

omit hg in
instance : w.Steps atEach atEach := by unfold atEach; infer_instance

omit hg in
theorem followsLet_kind (k : Token.Kind) : followsLet (w.kind k) = followsLet k := by
  cases k <;> rfl

omit hg in
theorem twin_letFollows {α α' : Type} {R : Nat → α → α' → Prop} {q : Bool → Parse α}
    {q' : Bool → Parse α'} (hq : ∀ follows, w.Sim lo l R (q follows) (q' follows)) :
    w.Sim lo l R
      (atWord "let" >>= fun yes => if yes then peek >>= fun t => pure (followsLet t.kind) >>= q
        else pure false >>= q)
      (atWord "let" >>= fun yes => if yes then peek >>= fun t => pure (followsLet t.kind) >>= q'
        else pure false >>= q') := by
  refine ⟨fun s s' hs => .atWord hs (fun hkind => ?_) ((hq false).simAt s s' hs)⟩
  refine .peek hs fun t t' hpeek => ?_
  obtain ⟨stop, remarks, rfl⟩ := hpeek _ hkind
  rw [kind_token, followsLet_kind]
  exact (hq _).simAt s s' hs

omit hg in
instance (declaration : Node) :
    w.Steps (checkEach declaration) (checkEach (w.node declaration)) := by
  have hreport : ∀ name : Node, w.Steps
      (do if (← scope).strict || (← atWord "of") then report .valueInForHead name.start)
      (do if (← scope).strict || (← atWord "of") then report .valueInForHead (w.node name).start) :=
    fun _ => inferInstance
  have hreports : ∀ parts : List Node, w.Steps
      (do for d in parts do
            report .severalInForHead ((d.parts.head?.map Node.start).getD d.start))
      (do for d in parts.map w.node do
            report .severalInForHead ((d.parts.head?.map Node.start).getD d.start)) := by
    intro parts
    refine .of_notes ((Notes.forEach parts (fun d u => ?_) ⟨⟩).andThen fun _ => .pure rfl)
    exact (Notes.report ..).andThen fun _ => .pure rfl
  have hnothing : w.Steps (pure () : Parse Unit) (pure ()) := inferInstance
  unfold checkEach
  rw [parts_node]
  cases declaration.parts with
  | nil => exact hreports []
  | cons only others =>
    cases others with
    | cons second others => exact hreports (second :: others)
    | nil =>
      rw [List.map_cons, List.map_nil]
      dsimp only
      rw [parts_node]
      cases only.parts with
      | nil => exact hnothing
      | cons name values =>
        cases values with
        | nil => exact hnothing
        | cons value values => exact hreport name

theorem twin_forHead {isAwait : Bool} :
    w.Sim lo l (ReadsHead w l) (forHead g isAwait) (forHead g' isAwait) := by
  refine twin_letFollows fun letFollows => ?_
  refine .andThen fun _ => .andThen fun _ => .ite ?_ (.ifEat (fun h _ hl _ => ?_) ?_)
  · refine (twin_variableList hg).thenNode fun h declaration hl hdeclaration => .andThen fun _ => ?_
    refine .ite (.andThen fun _ => twin_eachHead hg hdeclaration) (.andThen fun _ => ?_)
    exact twin_plainHead hg hdeclaration.lieIn
  · exact twin_plainHead hg (.nil hl)
  · refine (twin_expression hg).within.thenNode fun h init hl hinit => .andThen fun _ => ?_
    refine .ite (.bind (.of_notes (notes_asPattern .assignment init)) ?_) ?_
    · rintro h' left _ hh' ⟨rfl, hbounds⟩
      exact twin_eachHead hg (hbounds _ _ (hinit.mono (Nat.le_refl _) hh'))
    · exact .andThen fun _ => .andThen fun _ => twin_plainHead hg hinit.lieIn

theorem twinAt_forStatement {s s' : State} {start : Nat} (hs : w.Meets lo l s s')
    (hproper : s.token.kind.isProper) :
    w.SimAt (w.Reads l) s s' (forStatement g start) (forStatement g' (start + w.before)) := by
  refine .advanceThen hs hproper fun h _ hl _ => .token fun t stop remarks _ _ _ => ?_
  refine .andThen fun isAwait => .andThen fun _ => (twin_forHead hg).bind ?_
  intro h₁ head head' _ hhead
  refine .andThen fun _ => hg.statement.within.thenNode fun h₂ body _ hbody => ?_
  have hloop : ∀ {k parts}, Node.LieIn w.Mark h h₁ parts → w.Sim k h₂ (w.Reads l)
      (Parse.node .loop start (parts ++ [body]))
      (Parse.node .loop (start + w.before) (parts.map w.node ++ [w.node body])) := by
    intro k parts hparts
    have hall := (hparts.append hbody.lieIn).mono hl (Nat.le_refl _)
    rw [← map_node_concat]
    exact .loop hall.lieTurned
  cases head with
  | plain parts =>
    obtain ⟨rfl, hparts⟩ := hhead
    exact .ite (.of_stops (.bind .fail)) (hloop hparts)
  | each isOf left right =>
    obtain ⟨rfl, hparts⟩ := hhead
    exact .ite (.of_stops (.bind .fail)) (hloop hparts)

/-! ## statements that begin with an expression -/

theorem twin_labelled {name : String} {start : Nat} :
    w.Sim lo l (w.Reads l) (labelled g name start) (labelled g' name (start + w.before)) := by
  refine .within ⟨fun s s' hs => .get ?_⟩
  rw [hs.twin.labels]
  extract_lets duplicates rest rest'
  refine Sim.simAt ?_ s s' hs
  refine .modifyThen (fun _ => ⟨rfl, rfl, rfl, rfl⟩) (fun t t' ht =>
    { ht with labels := congrArg (List.cons name) ht.labels }) ?_
  refine .token fun t stop remarks _ hl hmark => .andThen fun _ => ?_
  have hrest : ∀ {k h} (body : Node), body.Lies w.Mark l h → w.Sim k h (w.Reads l) (rest body)
      (rest' (w.node body)) := by
    intro k h body hbody
    refine .andThen fun _ => .modifyThen (fun _ => ⟨rfl, rfl, rfl, rfl⟩) (fun t t' ht =>
      { ht with labels := congrArg (dropFirst name) ht.labels }) (.node rfl hbody.lieIn)
  refine .ite ?_ (hg.statement.thenNode fun h body _ hbody => hrest body hbody)
  refine (twin_functionFrom hg hl hmark (Nat.le_refl _)).thenHead fun h f _ hf =>
    .andThen fun c => ?_
  rw [kind_node]
  repeat' first
    | exact .pureThen (hrest f hf.toLies)
    | refine .ite ?_ ?_
    | refine .andThen fun _ => ?_

theorem twin_expressionStatement {start : Nat} :
    w.Sim lo l (w.Reads l) (expressionStatement g start)
      (expressionStatement g' (start + w.before)) := by
  refine (twin_expression hg).includingIn.thenNode fun h e _ he => ?_
  extract_lets rest rest'
  have hrest : ∀ u, w.Sim h h (w.Reads l) (rest u) (rest' u) := by
    intro u
    refine .andThen fun _ => .ite (.node rfl he.lieIn) (.andThen fun _ => .ite ?_ ?_)
    · have hbinary : ∀ {k}, w.Sim k h (w.Reads l)
          (g.binary e 0 >>= fun e => Parse.node .expression start [e])
          (g'.binary (w.node e) 0 >>= fun e => Parse.node .expression (start + w.before) [e]) := by
        refine (hg.binary he).bind ?_
        rintro h' n _ _ ⟨⟨rfl, hn⟩, -⟩
        exact .node rfl hn.lieIn
      exact .token fun t stop remarks _ _ _ => .doom (.of_sim hbinary)
    · exact .of_stops .failHere
  rw [kind_node]
  split
  · refine .ifEat (fun h' _ hh _ => ?_) (hrest ())
    exact (twin_labelled hg).readsFrom (Nat.le_trans he.le hh)
  · exact .andThen fun u => hrest u

/-! ## any statement -/

omit hg in
instance : w.Steps atAsyncFunction atAsyncFunction := by
  refine ⟨fun lo l => ⟨fun s s' hs => .atWord hs (fun hkind => ?_) (.pure hs rfl)⟩⟩
  refine .peek hs fun t t' hpeek => .pure hs ?_
  obtain ⟨stop, remarks, rfl⟩ := hpeek _ hkind
  rw [kind_token, kind_beq_word]
  rfl

theorem twin_functionDeclaration {start : Nat} {nameNeeded : Bool} (hfrom : from_ ≤ start)
    (hmark : w.Mark start) (hstart : start ≤ lo) :
    w.Sim lo l (w.Heads from_) (functionDeclaration g start nameNeeded)
      (functionDeclaration g' (start + w.before) nameNeeded) :=
  .andThen fun _ => twin_functionFrom hg hfrom hmark hstart

omit hg in
/-- the token behind a word is asked about, and the state stays -/
theorem twinAt_nameFollows {α α' : Type} {R : Nat → α → α' → Prop} {s s' : State} {name : String}
    {q : Bool → Parse α} {q' : Bool → Parse α'} (hs : w.Meets lo l s s')
    (hkind : s.token.kind = .word name)
    (hq : ∀ follows, w.SimAt R s s' (q follows) (q' follows)) :
    w.SimAt R s s' (nameFollows >>= q) (nameFollows >>= q') := by
  unfold nameFollows
  rw [bind_assoc, bind_assoc]
  refine .peek hs fun t t' hpeek => ?_
  obtain ⟨stop, remarks, rfl⟩ := hpeek _ hkind
  rw [kind_token]
  cases t.kind with
  | word follower =>
    show w.SimAt R s s' ((scope >>= fun c => pure _) >>= q) ((scope >>= fun c => pure _) >>= q')
    rw [bind_assoc, bind_assoc]
    exact .scope hs.twin (hq _)
  | _ => exact hq false

theorem twin_plainStatement {declarations : Bool} :
    w.Sim lo l (w.Reads l) (plainStatement g declarations) (plainStatement g' declarations) := by
  refine ⟨fun s s' hs => .refuseInvalid hs fun hvalid => .token hs fun stop remarks => ?_⟩
  extract_lets start general function class_ start' general' function' class'
  have hgeneral : w.SimAt (w.Reads l) s s' general general' := by
    refine Sim.simAt ?_ s s' hs.start
    refine .andThen fun _ => .ite ?_ (twin_expressionStatement hg)
    exact (twin_functionDeclaration hg hs.l_le_start hs.fine.start (Nat.le_refl _)).reads
  have hfunction : ∀ u, w.Sim start l (w.Reads l) (function u) (function' u) :=
    fun _ => (twin_functionFrom hg hs.l_le_start hs.fine.start (Nat.le_refl _)).reads
  have hclass : ∀ u, w.Sim start l (w.Reads l) (class_ u) (class' u) :=
    fun _ => (twin_classFrom hg hs.l_le_start hs.fine.start (Nat.le_refl _)).reads
  rw [kind_token]
  rcases kind_cases (w := w) s.token.kind with hsame | ⟨part, bad, htemplate⟩ | ⟨fault, hfault⟩
  · rw [hsame]
    split
    · exact (twin_block hg).simAt s s' hs
    · rename_i hkind
      exact .advanceThen hs (by rw [hkind]; rfl) fun h _ hl _ => .node rfl (.nil hl)
    · rename_i word hkind
      have hproper : s.token.kind.isProper := by rw [hkind]; rfl
      split
      · exact twinAt_jump hs hproper
      · exact twinAt_jump hs hproper
      · exact .advanceThen hs hproper fun h _ hl _ => .andThen fun _ => .node rfl (.nil hl)
      · exact twinAt_doStatement hg hs hproper
      · exact twinAt_forStatement hg hs hproper
      · exact (Sim.ite (.andThen fun u => hfunction u) (hfunction ())).simAt s s' hs.start
      · exact (Sim.ite (.andThen fun u => hclass u) (hclass ())).simAt s s' hs.start
      · exact twinAt_ifStatement hg hs hproper
      · exact twinAt_returnStatement hg hs hproper
      · exact twinAt_switchStatement hg hs hproper
      · exact twinAt_throwStatement hg hs hproper
      · exact (twin_strayHandler hg).simAt s s' hs
      · exact (twin_strayHandler hg).simAt s s' hs
      · exact twinAt_tryStatement hg hs hproper
      · exact twinAt_withStatement hg hs hproper
      · exact twinAt_whileStatement hg hs hproper
      · exact (twin_variableList hg).simAt s s' hs
      · exact .ite (fun _ => (twin_variableList hg).simAt s s' hs) fun _ => hgeneral
      · refine .peek hs fun t t' hpeek => ?_
        obtain ⟨stop, remarks, rfl⟩ := hpeek _ hkind
        rw [kind_token, followsLet_kind]
        exact .ite (fun _ => (twin_variableList hg).simAt s s' hs) fun _ => hgeneral
      · refine twinAt_nameFollows hs hkind fun follows => .ite (fun _ => ?_) fun _ => hgeneral
        exact twinAt_usingDeclaration hg hs hproper
      · exact hgeneral
    · exact hgeneral
  · rw [htemplate]
    exact hgeneral
  · exact absurd hfault (hvalid fault)

/-- behind `import` an expression goes on, or the script is refused -/
theorem twinAt_importing {s s' : State} {start : Nat} {q q' : Parse Node} (hs : w.Meets lo l s s')
    (hkind : s.token.kind = .word "import") (hq : w.SimAt (w.Reads l) s s' q q') :
    w.SimAt (w.Reads l) s s'
      (do
        let next := (← peek).kind
        if next == .symbol .lparen || next == .symbol .dot then
          let e ← includingIn true (expression g)
          let _ ← eatEnd
          Parse.node .expression start [e]
        else q)
      (do
        let next := (← peek).kind
        if next == .symbol .lparen || next == .symbol .dot then
          let e ← includingIn true (expression g')
          let _ ← eatEnd
          Parse.node .expression (start + w.before) [e]
        else q') := by
  refine .peek hs fun t t' hpeek => ?_
  obtain ⟨stop, remarks, rfl⟩ := hpeek _ hkind
  refine .iteOf (by simp) (fun _ => Sim.simAt ?_ s s' hs) fun _ => hq
  refine (twin_expression hg).includingIn.thenNode fun h e _ he => .andThen fun _ => ?_
  exact .node rfl he.lieIn

theorem twin_nestedStatement {declarations : Bool} :
    w.Sim lo l (w.Reads l) (nestedStatement g declarations) (nestedStatement g' declarations) := by
  refine ⟨fun s s' hs => .token hs fun stop remarks => .atWord hs (fun hkind => ?_) ?_⟩
  · exact twinAt_importing hg hs hkind (.of_stops hs .failHere)
  · refine Sim.simAt ?_ s s' hs
    exact .andThen fun _ => .ite (.of_stops .failHere) (twin_plainStatement hg)

end

end Bindle.Script.Grammar
