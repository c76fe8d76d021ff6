import Bindle.Proofs.Script.Framed.Statement

/-!
# Modules have twins

* `twin_moduleItem`   an import, an export or a statement at the outermost level.
-/

namespace Bindle.Script.Grammar

open Parse Script.Frame

variable {w : Frame} {g g' : Grammar} {lo l from_ : Nat}

/-! ## names -/

/-- a name of an import or export, and whether it is a string -/
def ReadsExportName (w : Frame) (lo hi : Nat) (r r' : Node × Bool) : Prop :=
  w.Reads lo hi r.1 r'.1 ∧ r.2 = r'.2

theorem twin_exportName : w.Sim lo l (ReadsExportName w l) exportName exportName := by
  refine ⟨fun s s' hs => .token hs fun stop remarks => ?_⟩
  rw [kind_token]
  have hname : ∀ {kind : Kind} {h : Nat} {isString : Bool}, kind.isPlain = true → l ≤ h →
      w.Sim h h (ReadsExportName w l)
        (Parse.node kind s.token.start [] >>= fun n => pure (n, isString))
        (Parse.node kind (s.token.start + w.before) [] >>= fun n => pure (n, isString)) := by
    intro kind h isString hkind hl
    have hnode : w.Sim h h (w.Reads l) (Parse.node kind s.token.start [])
        (Parse.node kind (s.token.start + w.before) []) := .node hkind (.nil hl)
    refine hnode.thenNode fun h' n _ hn => ?_
    exact .pure fun hi hhi => ⟨⟨rfl, hn.mono (Nat.le_refl _) hhi⟩, rfl⟩
  cases hkind : s.token.kind with
  | string raw => exact .advanceThen hs (by rw [hkind]; rfl) fun h _ hl _ => hname rfl hl
  | word name => exact .advanceThen hs (by rw [hkind]; rfl) fun h _ hl _ => hname rfl hl
  | _ => exact .of_stops hs .unexpected

/-- what comes after a name -/
theorem twin_thenName {α α' : Type} {R : Nat → α → α' → Prop} {q : Node × Bool → Parse α}
    {q' : Node × Bool → Parse α'}
    (hq : ∀ h n isString, l ≤ h → n.Lies w.Mark l h →
      w.Sim h h R (q (n, isString)) (q' (w.node n, isString))) :
    w.Sim lo l R (exportName >>= q) (exportName >>= q') := by
  refine twin_exportName.bind ?_
  rintro h ⟨n, isString⟩ ⟨_, _⟩ hl ⟨⟨rfl, hn⟩, rfl⟩
  exact hq h n isString hl hn

theorem twin_importedBinding : w.Sim lo l (w.Reads l) importedBinding importedBinding :=
  twin_bindingIdentifier.within

theorem twin_importSpecifier : w.Sim lo l (w.Reads l) importSpecifier importSpecifier := by
  refine twin_thenName fun h name isString _ hname => .ifEatWord (fun h' _ hh _ => ?_) ?_
  · exact twin_importedBinding.readsFrom (Nat.le_trans hname.le hh)
  have hreturn : ∀ {k}, w.Sim k h (w.Reads l) (pure name) (pure (w.node name)) :=
    .pure fun hi hhi => ⟨rfl, hname.mono (Nat.le_refl _) hhi⟩
  rw [kind_node]
  split
  · exact .of_stops .fail
  · refine .andThen fun c => .ite (.of_stops (.bind .fail)) ?_
    exact .ite (.andThen fun _ => hreturn) hreturn
  · exact hreturn

theorem twin_specifiers {item item' : Parse Node}
    (hitem : ∀ {lo l}, w.Sim lo l (w.Reads l) item item') :
    w.Sim lo l (w.ReadsAll l) (specifiers item) (specifiers item') := by
  refine .bind (.iterateTrees (.nil (Nat.le_refl l)) fun h acc _ hacc => ?_)
    fun h acc acc' _ hacc => .andThen fun _ => .pure fun hi hhi => (hacc.mono hhi).reverse
  refine .andThen fun _ => .ite (.pure fun _ _ => .none) (hitem.thenNode fun h' n _ hn => ?_)
  have hpush : w.Sim h' h' (fun hi => Option.Rel (w.Stacks l hi)) (pure (some (n :: acc)))
      (pure (some (w.node n :: acc.map w.node))) :=
    .pure fun hi hhi => .some ((Stacks.push ⟨rfl, hacc⟩ hn).mono hhi)
  exact .andThen fun _ => .ite (.andThen fun _ => hpush) hpush

theorem twin_exportSpecifier : w.Sim lo l (w.Reads l) exportSpecifier exportSpecifier := by
  refine twin_thenName fun h name isString _ hname => .andThen fun _ => .ite ?_ ?_
  · refine twin_thenName fun h' other isString' _ hother => ?_
    rw [start_node]
    exact .node rfl (.cons hname hother.lieIn)
  · exact .pure fun hi hhi => ⟨rfl, hname.mono (Nat.le_refl _) hhi⟩

/-- the names of an import, and whether more may follow -/
def ReadsImport (w : Frame) (lo hi : Nat) (r r' : List Node × Bool) : Prop :=
  w.ReadsAll lo hi r.1 r'.1 ∧ r.2 = r'.2

theorem twin_defaultImport : w.Sim lo l (ReadsImport w l) defaultImport defaultImport := by
  refine twin_importedBinding.thenNode fun h name hl hname => ?_
  rw [kind_node]
  refine .andThen fun _ => .ite (.pure fun hi hhi => ⟨⟨rfl, .nil (Nat.le_trans hl hhi)⟩, rfl⟩) ?_
  refine .atWordPeek fun yes t t' hpeek => .andThen fun _ => .andThen fun _ => ?_
  extract_lets rest
  have hrest : ∀ {k h} name, name.Lies w.Mark l h →
      w.Sim k h (ReadsImport w l) (rest name) (rest (w.node name)) := by
    intro k h name hname
    have hreturn : ∀ {k more}, w.Sim k h (ReadsImport w l) (pure ([name], more))
        (pure ([w.node name], more)) :=
      .pure fun hi hhi => ⟨⟨rfl, (hname.mono (Nat.le_refl _) hhi).lieIn⟩, rfl⟩
    exact .andThen fun _ => .ite hreturn (.andThen fun _ => hreturn)
  have hother : w.Sim h h (ReadsImport w l) (importedBinding >>= rest) (importedBinding >>= rest) :=
    twin_importedBinding.thenNode fun h' other _ hother =>
      hrest other (hother.mono hl (Nat.le_refl _))
  refine .iteOf ?_ hother (.ite hother (.pureThen (hrest name hname)))
  cases yes with
  | false => simp
  | true =>
    obtain ⟨stop, remarks, rfl⟩ := hpeek rfl
    simp

section

variable (hg : g.Twins w g')

include hg

theorem twin_attributesAndEnd :
    w.Sim lo l (w.ReadsAll l) (attributesAndEnd g) (attributesAndEnd g') := by
  let rest : List Node → Parse (List Node) := fun attributes => expectEnd >>= fun _ =>
    pure attributes
  have hrest : ∀ {k h} attributes, Node.LieIn w.Mark l h attributes →
      w.Sim k h (w.ReadsAll l) (pure attributes >>= rest)
        (pure (attributes.map w.node) >>= rest) :=
    fun _ hattributes => .pureThen (.andThen fun _ => .pure fun hi hhi =>
      ⟨rfl, hattributes.mono (Nat.le_refl _) hhi⟩)
  refine ⟨fun s s' hs => .afterNewline hs fun newline => ?_⟩
  have hnone : w.SimAt (w.ReadsAll l) s s' (pure [] >>= rest) (pure [] >>= rest) :=
    (hrest [] (.nil (Nat.le_refl l))).simAt s s' hs
  have hsome : s.token.kind.isProper → w.SimAt (w.ReadsAll l) s s'
      (advance >>= fun _ => objectLiteral g >>= fun n => pure [n] >>= rest)
      (advance >>= fun _ => objectLiteral g' >>= fun n => pure [n] >>= rest) :=
    fun hproper => .advanceThen hs hproper fun h _ hl _ =>
      (twin_objectLiteral hg).thenHead fun h' n _ hn =>
        hrest [n] (hn.toLies.mono hl (Nat.le_refl _)).lieIn
  refine .atWord hs (fun hkind => ?_) (.atWord hs (fun hkind => ?_) ?_)
  · have hproper : s.token.kind.isProper := by rw [hkind]; rfl
    refine .atWord hs (fun _ => ?_) ?_
    all_goals exact .ite (fun _ => hsome hproper) fun _ => hnone
  · exact .ite (fun _ => hsome (by rw [hkind]; rfl)) fun _ => hnone
  · exact .ite (fun h => absurd h (by simp)) fun _ => hnone

theorem twin_fromClause : w.Sim lo l (w.ReadsAll l) (fromClause g) (fromClause g') := by
  refine .expectWord fun h _ hl _ => .refuseInvalid ⟨fun s s' hs => .atString hs ?_ ?_⟩
  · refine fun raw hkind => .advanceThen hs (by rw [hkind]; rfl) fun h' _ hh _ => ?_
    refine (twin_attributesAndEnd hg).mono fun hi _ _ _ hn => ⟨hn.1, ?_⟩
    exact hn.2.mono (Nat.le_trans hl hh) (Nat.le_refl _)
  · exact .of_stops hs .unexpected

theorem twin_importDeclaration {start : Nat} :
    w.Sim lo l (w.Reads l) (importDeclaration g start)
      (importDeclaration g' (start + w.before)) := by
  refine .andThen fun _ => .expectWord fun h _ hl _ => ⟨fun s s' hs => .atString hs ?_ ?_⟩
  · refine fun raw hkind => .advanceThen hs (by rw [hkind]; rfl) fun h' _ hh _ => ?_
    refine (twin_attributesAndEnd hg).thenNodes fun h'' attributes _ hattributes => ?_
    exact .node rfl (hattributes.mono (Nat.le_trans hl hh) (Nat.le_refl _))
  refine Sim.simAt (.andThen fun _ => ?_) s s' hs
  extract_lets rest rest'
  have hrest : ∀ {k h'} r, Node.LieIn w.Mark l h' r.1 →
      w.Sim k h' (w.Reads l) (rest r) (rest' (r.1.map w.node, r.2)) := by
    rintro k h' ⟨first, more⟩ hfirst
    unfold rest rest'
    dsimp -zeta -zetaHave only
    extract_lets clause clause'
    have hclause : ∀ {k h''} others, Node.LieIn w.Mark h' h'' others →
        w.Sim k h'' (w.Reads l) (clause others) (clause' (others.map w.node)) := by
      intro k h'' others hothers
      refine (twin_fromClause hg).thenNodes fun h₃ attributes _ hattributes => ?_
      rw [← List.map_append, ← List.map_append]
      exact .node rfl ((hfirst.append hothers).append hattributes)
    have hnone : ∀ {k}, w.Sim k h' (w.Reads l) (pure [] >>= clause) (pure [] >>= clause') :=
      .pureThen (hclause [] (.nil (Nat.le_refl h')))
    refine .ite hnone (.andThen fun _ => .ite (.andThen fun _ => ?_)
      (.andThen fun _ => .ite ?_ hnone))
    · refine twin_importedBinding.thenNode fun h'' name _ hname => .pureThen ?_
      exact hclause [name] hname.lieIn
    · exact (twin_specifiers twin_importSpecifier).thenNodes fun h'' others _ hothers =>
        hclause others hothers
  refine .ite (twin_defaultImport.bind ?_) (.pureThen (hrest ([], true) (.nil hl)))
  rintro h' ⟨first, more⟩ ⟨_, _⟩ _ ⟨⟨rfl, hfirst⟩, rfl⟩
  exact hrest (first, more) (hfirst.mono hl (Nat.le_refl _))

/-! ## exports -/

omit hg in
theorem exportedStrings_node (n : Node) :
    exportedStrings (w.node n) = (exportedStrings n).map (· + w.before) := by
  obtain ⟨kind, start, stop, parts⟩ := n
  rw [node_mk]
  cases kind with
  | keyed =>
    cases parts with
    | nil => rfl
    | cons name others =>
      obtain ⟨kind, start, stop, parts⟩ := name
      cases kind <;> rfl
  | _ => rfl

omit hg in
theorem notes_exportedStrings (names : List Node) :
    w.Notes Eq (do for offset in names.flatMap exportedStrings do report .exportedString offset)
      (do for offset in (names.map w.node).flatMap exportedStrings do
            report .exportedString offset) := by
  have hplaces : (names.map w.node).flatMap exportedStrings =
      (names.flatMap exportedStrings).map (· + w.before) := by
    rw [List.flatMap_map, List.map_flatMap]
    exact congrArg (List.flatMap · names) (funext exportedStrings_node)
  rw [hplaces]
  refine (Notes.forEach _ (fun offset u => ?_) ⟨⟩).andThen fun _ => .pure rfl
  exact (Notes.report ..).andThen fun _ => .pure rfl

theorem twin_exportDefault {start : Nat} :
    w.Sim lo l (w.Reads l) (exportDefault g start) (exportDefault g' (start + w.before)) := by
  refine .token fun t stop remarks _ hl hmark => .andThen fun _ => .ite ?_ ?_
  · refine (twin_classFrom hg hl hmark (Nat.le_refl _)).thenHead fun h c _ hc => ?_
    exact .node rfl hc.toLies.lieIn
  refine .andThen fun _ => .andThen fun _ => .ite ?_ ?_
  · refine (twin_functionDeclaration hg hl hmark (Nat.le_refl _)).thenHead fun h f _ hf => ?_
    exact .node rfl hf.toLies.lieIn
  · refine hg.assignment.includingIn.thenNode fun h e _ he => .andThen fun _ => ?_
    exact .node rfl he.lieIn

theorem twin_exportList {start : Nat} :
    w.Sim lo l (w.Reads l) (exportList g start) (exportList g' (start + w.before)) := by
  refine .expect fun h _ hl _ => (twin_specifiers twin_exportSpecifier).thenNodes
    fun h' names _ hnames => .andThen fun _ => ?_
  extract_lets rest rest'
  have hrest : ∀ {k h''} attributes, Node.LieIn w.Mark h' h'' attributes →
      w.Sim k h'' (w.Reads l) (rest attributes) (rest' (attributes.map w.node)) := by
    intro k h'' attributes hattributes
    unfold rest rest'
    rw [← List.map_append]
    exact .node rfl ((hnames.mono hl (Nat.le_refl _)).append hattributes)
  refine .ite ((twin_fromClause hg).thenNodes fun h'' attributes _ hattributes =>
    hrest attributes hattributes) ?_
  have hreports := Steps.of_notes (notes_exportedStrings (w := w) names)
  have hnone : w.Sim h' h' (w.Reads l)
      ((do for offset in names.flatMap exportedStrings do
            report .exportedString offset) >>= fun _ => expectEnd >>= fun _ => pure [] >>= rest)
      ((do for offset in (names.map w.node).flatMap exportedStrings do
            report .exportedString offset) >>= fun _ => expectEnd >>= fun _ => pure [] >>= rest') :=
    .andThen fun _ => .andThen fun _ => .pureThen (hrest [] (.nil (Nat.le_refl h')))
  rwa [bind_assoc, bind_assoc] at hnone

theorem twin_exportDeclaration {start : Nat} :
    w.Sim lo l (w.Reads l) (exportDeclaration g start)
      (exportDeclaration g' (start + w.before)) := by
  refine .andThen fun _ => .expectWord fun h _ hl _ => .refuseInvalid ?_
  refine .token fun t stop remarks _ ht hmark => ?_
  extract_lets named listed other named' listed' other'
  have hnamed : ∀ {k h'} u, h ≤ h' → w.Sim k h' (w.Reads l) (named u) (named' u) := by
    intro k h' u hh
    refine (twin_fromClause hg).thenNodes fun h'' attributes _ hattributes => ?_
    exact .node rfl (hattributes.mono (Nat.le_trans hl hh) (Nat.le_refl _))
  have hlisted : ∀ letFollows, w.Sim t.start h (w.Reads l) (listed letFollows)
      (listed' letFollows) := by
    intro letFollows
    refine .andThen fun _ => .andThen fun _ => .ite ?_ ((twin_exportList hg).readsFrom hl)
    refine (twin_variableList hg).thenNode fun h' declaration _ hdeclaration => ?_
    exact .node rfl (hdeclaration.mono hl (Nat.le_refl _)).lieIn
  have hother : ∀ u, w.Sim t.start h (w.Reads l) (other u) (other' u) := by
    intro u
    refine .ifEat (fun h' _ hh _ => .andThen fun _ => .ite ?_ (hnamed () hh)) ?_
    · exact twin_thenName fun h'' _ _ hh' _ => hnamed () (Nat.le_trans hh hh')
    refine .ifEatWord (fun h' _ hh _ => (twin_exportDefault hg).readsFrom (Nat.le_trans hl hh)) ?_
    refine .andThen fun _ => .ite ?_ (.andThen fun _ => .andThen fun _ => .ite ?_ ?_)
    · refine (twin_classFrom hg ht hmark (Nat.le_refl _)).thenHead fun h' c _ hc => ?_
      exact .node rfl (hc.toLies.mono hl (Nat.le_refl _)).lieIn
    · refine (twin_functionDeclaration hg ht hmark (Nat.le_refl _)).thenHead fun h' f _ hf => ?_
      exact .node rfl (hf.toLies.mono hl (Nat.le_refl _)).lieIn
    · exact twin_letFollows hlisted
  exact .iteOf (by simp) (.of_stops (.bind .failHere)) (hother ())

/-- an import, an export or a statement -/
theorem twin_moduleItem : w.Sim lo l (w.Reads l) (moduleItem g) (moduleItem g') := by
  refine ⟨fun s s' hs => .token hs fun stop remarks => ?_⟩
  have hplain : w.SimAt (w.Reads l) s s' (plainStatement g true) (plainStatement g' true) :=
    (twin_plainStatement hg).simAt s s' hs
  rw [kind_token]
  rcases kind_cases (w := w) s.token.kind with hsame | ⟨part, bad, htemplate⟩ | ⟨fault, hfault⟩
  · rw [hsame]
    split
    · rename_i hkind
      exact twinAt_importing hg hs hkind ((twin_importDeclaration hg).simAt s s' hs)
    · exact (twin_exportDeclaration hg).simAt s s' hs
    · exact Sim.simAt (.andThen fun _ => twin_plainStatement hg) s s' hs
    · exact hplain
  · rw [htemplate]
    exact hplain
  · rw [hfault]
    exact hplain

end

/-! ## the whole grammar -/

/-- nothing is said of the other side of a grammar that stops at once -/
theorem twins_stuck : stuck.Twins w g' where
  assignment := .of_stops .failHere
  unary := .of_stops .failHere
  member := .of_stops .failHere
  leftHand := .of_stops .failHere
  binary _ := .of_stops .failHere
  binding := .of_stops .failHere
  statement := .of_stops .failHere

theorem twins_deeper (hg : g.Twins w g') : (deeper g).Twins w (deeper g') where
  assignment := twin_assignmentExpression hg
  unary := twin_unaryExpression hg
  member := (twin_memberOrNew hg).heads
  leftHand := (twin_leftHandSide hg).heads
  binary := twin_binaryFrom hg
  binding := twin_bindingPattern hg
  statement := twin_nestedStatement hg

/-- more levels of nesting do no harm -/
theorem twins_ofDepth {n n' : Nat} (h : n ≤ n') : (ofDepth n).Twins w (ofDepth n') := by
  induction n generalizing n' with
  | zero => exact twins_stuck
  | succ n ih =>
    obtain ⟨n', rfl⟩ :=
      Nat.exists_eq_succ_of_ne_zero (Nat.ne_of_gt (Nat.lt_of_lt_of_le n.succ_pos h))
    exact twins_deeper (ih (Nat.le_of_succ_le_succ h))

/-- the parts of a whole script; the node itself begins at zero on both sides -/
def ReadsProgram (w : Frame) (lo hi : Nat) (n n' : Node) : Prop :=
  (n.kind = .program ∧ n'.kind = .program) ∧ w.ReadsAll lo hi n.parts n'.parts

theorem twin_program (hg : g.Twins w g') :
    w.Sim lo l (ReadsProgram w l) (program g) (program g') := by
  refine (twin_blockBody (twin_moduleItem hg)).thenNodes fun h items _ hitems => ?_
  refine ⟨fun s s' hs => .get ?_⟩
  rw [hs.twin.isModule, List.any_map]
  simp only [Function.comp_def, kind_node]
  have hdone : w.Sim h h (ReadsProgram w l) (Parse.node .program 0 items)
      (Parse.node .program 0 (items.map w.node)) := by
    refine .lastStop fun stop hstop => .pure fun hi hhi => ⟨⟨rfl, rfl⟩, rfl, ?_⟩
    exact hitems.mono (Nat.le_refl _) (Nat.le_trans hstop hhi)
  exact (Sim.ite (.andThen fun _ => hdone) hdone).simAt s s' hs

end Bindle.Script.Grammar
