import Bindle.Proofs.Script.Framed.Function

/-!
# Expressions have twins

A tree that begins with another one, such as a call with its callee, begins where that one begins,
and nothing of it stands before: `Frame.Heads`.  The operands of an operator, the parts of a literal
and the arguments of a call follow one another.

Two rules read a token again that was taken for a punctuator, and one goes on behind an operand that
is missing; they are followed from the state in which they begin.
-/

namespace Bindle.Script.Grammar

open Bindle.Text Parse Script.Frame

variable {w : Frame} {g g' : Grammar} {lo l from_ : Nat}

section

variable (hg : g.Twins w g')

include hg

theorem twin_expression : w.Sim lo l (w.Reads l) (expression g) (expression g') := by
  refine hg.assignment.thenNode fun h first _ hfirst => .andThen fun _ => .ite ?_
    (.pure fun hi hhi => ⟨rfl, hfirst.mono (Nat.le_refl _) hhi⟩)
  refine .bind (.iterateTrees ⟨rfl, hfirst.lieIn⟩ fun h acc _ hacc => ?_)
    fun h acc acc' _ hacc => ?_
  · refine .andThen fun _ => .ite ?_ (.pure fun _ _ => .none)
    refine hg.assignment.thenNode fun h' n _ hn => .pure fun hi hhi => .some ?_
    exact (Stacks.push ⟨rfl, hacc⟩ hn).mono hhi
  · rw [hacc.1, start_node, ← List.map_reverse]
    exact .node rfl hacc.2

theorem twin_spreadOrExpression :
    w.Sim lo l (w.Reads l) (spreadOrExpression g) (spreadOrExpression g') := by
  refine .token fun t stop remarks _ _ _ => .ifEat (fun h _ hl _ => ?_) hg.assignment
  refine hg.assignment.includingIn.thenNode fun h' inner _ hinner => ?_
  exact .node rfl (hinner.mono hl (Nat.le_refl _)).lieIn

/-- arguments, behind a parenthesis -/
def ReadsArguments (w : Frame) (lo hi : Nat) (ns ns' : List Node) : Prop :=
  0 < hi ∧ w.ReadsAll lo hi ns ns'

theorem twin_arguments : w.Sim lo l (ReadsArguments w l) (arguments g) (arguments g') := by
  refine .expect fun h _ hl hpos => .bind (.iterateTrees (.nil hl) fun h acc _ hacc => ?_) ?_
  · have hnext : w.Sim h h (fun hi => Option.Rel (w.Stacks l hi))
        (Parse.includingIn true (spreadOrExpression g) >>= fun e => pure (some (e :: acc)))
        (Parse.includingIn true (spreadOrExpression g') >>= fun e =>
          pure (some (e :: acc.map w.node))) := by
      refine (twin_spreadOrExpression hg).includingIn.thenNode fun h' e _ he => ?_
      exact .pure fun hi hhi => .some ((Stacks.push ⟨rfl, hacc⟩ he).mono hhi)
    refine .andThen fun _ => .ite (.pure fun _ _ => .none) (.iteOf (by simp) ?_ hnext)
    exact .andThen fun _ => .andThen fun _ => .ite (.pure fun _ _ => .none) hnext
  · intro h' acc acc' hh hacc
    refine .andThen fun _ => .pure fun hi hhi => ⟨?_, (hacc.mono hhi).reverse⟩
    exact Nat.lt_of_lt_of_le hpos (Nat.le_trans hh hhi)

end

/-! ## primaries -/

instance (flags : List Char) (i i' : Nat) : w.Steps (checkFlags flags i) (checkFlags flags i') := by
  unfold checkFlags
  cases flags.find? (fun f => flags.count f > 1) <;> infer_instance

/-- the current token is the slash that begins the expression -/
theorem twinAt_regularExpression {s s' : State} {opening : Symbol} (hs : w.Meets lo l s s')
    (hkind : s.token.kind = .symbol opening)
    (hopening : opening = .slash ∨ opening = .slashAssign) :
    w.SimAt (w.Heads lo) s s' (regularExpression opening) (regularExpression opening) := by
  have hascii : opening.text.toList.length = byteLength opening.text.toList := by
    rcases hopening with rfl | rfl <;> rfl
  have hslash : ∃ more, opening.text.toList = '/' :: more := by
    rcases hopening with rfl | rfl
    · exact ⟨[], rfl⟩
    · exact ⟨['='], rfl⟩
  obtain ⟨rest, hslash⟩ := hslash
  refine (simAt_rescan hs hkind hascii ?_ ?_).bindOf fun _ _ t t' hrescan hfine htwin hlater _ => ?_
  · intro c more hc
    rw [hslash] at hc
    exact ⟨Token.Kind.isOther_of_isLiteral (isLiteral_readRegex c), reaches_readRegex hc⟩
  · intro c more hc
    rw [hslash] at hc
    exact ⟨readRegex_cursor (by rw [hc]; exact List.cons_ne_nil _ _), pos_readRegex⟩
  obtain ⟨c, hread, hstart⟩ := token_rescan hrescan
  have ht : w.Meets lo l t t' := by
    refine ⟨hfine, htwin, ?_, Nat.le_trans hs.l_le hlater.lastStop_le⟩
    rw [hstart]
    exact hs.lo_le
  refine .refuseInvalid ht fun hvalid => ?_
  have hproper : t.token.kind.isProper := by
    have hliteral := isLiteral_readRegex c
    rw [← hread] at hliteral
    cases htoken : t.token.kind with
    | eof => rw [htoken] at hliteral; exact absurd hliteral Bool.false_ne_true
    | invalid fault => exact absurd htoken (hvalid fault)
    | _ => rfl
  refine .advance ht hproper fun h _ hbehind _ _ _ _ => ?_
  have hhead : ∀ {k}, w.Sim k h (w.Heads lo) (Parse.node .regex t.token.start [])
      (Parse.node .regex (t.token.start + w.before) []) :=
    .head rfl ht.lo_le hfine.start (.nil hbehind)
  rw [htwin.start, htwin.kind]
  rcases kind_cases (w := w) t.token.kind with hsame | ⟨part, bad, htemplate⟩ | ⟨fault, hfault⟩
  · rw [hsame]
    split
    · exact .andThen fun _ => hhead
    · exact hhead
  · rw [htemplate]
    exact hhead
  · exact absurd hfault (hvalid fault)

section

variable (hg : g.Twins w g')

include hg

/-- the substitutions, behind the beginning of the template -/
theorem twin_templateParts {tagged : Bool} :
    w.Sim lo l (w.ReadsAll lo) (templateParts g tagged) (templateParts g' tagged) := by
  unfold templateParts
  extract_lets check step step'
  have hcheck : ∀ bad, w.Notes Eq (check bad) (check (bad.map w.fault)) := by
    intro bad
    cases bad with
    | none => exact .pure rfl
    | some fault =>
      refine Notes.ite (p := pure ()) (c := tagged = true) (.pure rfl) ?_
      exact .of_stops .throw
  -- nothing is known of the place where the first step begins but that of its token
  have hstep : ∀ {k h} acc, (∀ h', k ≤ h' → h ≤ h' → Node.LieIn w.Mark lo h' acc.reverse) →
      w.Sim k h (fun hi r r' => ∃ b b', r = some b ∧ r' = some b' ∧ w.StacksWith Eq lo hi b b')
        (step (acc, false)) (step' (acc.map w.node, false)) := by
    intro k h acc hacc
    refine ⟨fun s s' hs => .refuseInvalid hs fun _ => .token hs fun stop remarks => ?_⟩
    rw [kind_token]
    cases hkind : s.token.kind with
    | template part bad =>
      refine .notesThen hs (hcheck bad) fun _ _ fs ms t' _ ht => ?_
      refine .advanceThen ht (by rw [State.noting, hkind]; rfl) fun h' hstart hh _ => ?_
      have hacc := hacc h' (Nat.le_trans hs.lo_le hstart) hh
      refine .ite ?_ ?_
      · exact .pure fun hi hhi =>
          ⟨_, _, rfl, rfl, ⟨rfl, hacc.mono (Nat.le_refl _) hhi⟩, rfl⟩
      refine (twin_expression hg).includingIn.thenNode fun h'' e _ he => ⟨fun s s' hs => ?_⟩
      refine .atSymbol hs (fun hbrace => ?_) (.of_stops hs (.bind .unexpected))
      refine (simAt_rescan (x := .rbrace) hs hbrace rfl ?_ ?_).bind ?_
      · exact fun c _ _ => ⟨Token.Kind.isOther_of_isLiteral (isLiteral_readTemplateFrom ..),
          .inl (reaches_readTemplate c false)⟩
      · intro c more hc
        have hrest : c.rest ≠ [] := by rw [hc]; exact List.cons_ne_nil _ _
        exact ⟨readTemplate_cursor hrest false, fun _ => pos_readTemplate hrest false⟩
      · intro _ _ t t' hfine htwin hlater _
        have hpush : w.Stacks lo h'' (e :: acc) (w.node e :: acc.map w.node) :=
          .push ⟨rfl, hacc⟩ he
        refine .pure ⟨hfine, htwin, Nat.zero_le _, Nat.zero_le _⟩ ⟨_, _, rfl, rfl, ?_, rfl⟩
        exact hpush.mono (Nat.le_trans hs.l_le hlater.lastStop_le)
    | _ => exact .of_stops hs .unexpected
  refine .bind (.iterateSome (I := w.StacksWith Eq lo)
    (fun _ _ _ _ hle h => ⟨h.1.mono hle, h.2⟩) (hstep [] fun h' hlo _ => .nil hlo) ?_)
    fun h acc acc' _ hacc => .pure fun hi hhi => (hacc.1.mono hhi).reverse
  rintro h ⟨acc, isLast⟩ ⟨_, _⟩ _ ⟨⟨rfl, hacc⟩, rfl⟩
  cases isLast with
  | true => exact .pure fun _ _ => .none
  | false =>
    refine (hstep acc fun h' _ hh => hacc.mono (Nat.le_refl _) hh).mono ?_
    rintro hi _ _ _ ⟨b, b', rfl, rfl, hb⟩
    exact .some hb

theorem twin_template {start : Nat} (hfrom : from_ ≤ start) (hmark : w.Mark start)
    (hstart : start ≤ lo) :
    w.Sim lo l (w.Heads from_) (template g start) (template g' (start + w.before)) :=
  (twin_templateParts hg).thenNodes fun _ _ _ hparts =>
    .head rfl hfrom hmark (hparts.mono hstart (Nat.le_refl _))

theorem twin_arrayLiteral : w.Sim lo l (w.Heads lo) (arrayLiteral g) (arrayLiteral g') := by
  refine .token fun t stop remarks hl _ hmark => .expect fun h hlo _ hpos => ?_
  refine .bind (.iterateTrees (.nil hlo) fun h' acc hh hacc => ?_) fun h' acc acc' _ hacc => ?_
  · refine .andThen fun _ => .ite (.pure fun _ _ => .none) ⟨fun s s' hs => .atSymbol hs ?_ ?_⟩
    · intro hkind
      refine .advance hs (by rw [hkind]; rfl) fun h'' _ hbehind _ hl' _ _ => ?_
      have hstart : 0 < s.token.start :=
        Nat.lt_of_lt_of_le hpos (Nat.le_trans hh hs.l_le_start)
      have hhole : (Node.mk .hole s.token.start s.token.start []).Lies w.Mark h' h'' :=
        (Node.lies_mk rfl ..).mpr (.nil hl')
      have hnode : w.node (.mk .hole s.token.start s.token.start []) =
          .mk .hole s'.token.start s'.token.start [] := by
        rw [node_mk, stop_of_pos hstart, hs.twin.start]
        rfl
      refine .pure fun hi hhi => .some ?_
      rw [← hnode]
      exact (Stacks.push ⟨rfl, hacc⟩ hhole).mono hhi
    · refine Sim.simAt ?_ s s' hs
      refine (twin_spreadOrExpression hg).includingIn.thenNode fun h'' e _ he => ?_
      have hpush : w.Sim h'' h'' (fun hi => Option.Rel (w.Stacks t.start hi))
          (pure (some (e :: acc))) (pure (some (w.node e :: acc.map w.node))) :=
        .pure fun hi hhi => .some ((Stacks.push ⟨rfl, hacc⟩ he).mono hhi)
      refine .andThen fun _ => .ite (.andThen fun _ => .andThen fun _ => .ite ?_ hpush) hpush
      refine .lastStartAny fun i i' => .modifyThen (fun _ => ⟨rfl, rfl, rfl, rfl⟩) (fun s s' hs =>
        { hs with trailingCommas := ?_ }) hpush
      exact congrArg (List.cons _) hs.trailingCommas
  · refine .andThen fun _ => ?_
    rw [hacc.1, ← List.map_reverse]
    exact .head rfl hl hmark hacc.2

theorem twin_parenthesized :
    w.Sim lo l (ReadsMembers w lo) (parenthesized g) (parenthesized g') := by
  refine .expect fun h hlo _ _ => .bind (.iterateTreesWith (T := SamePlaces) hlo .none
    fun h acc c c' _ hacc hc => ?_) fun h acc acc' _ hacc => .andThen fun _ =>
      .pure fun hi hhi => ⟨(hacc.1.mono hhi).reverse, hacc.2⟩
  refine .andThen fun _ => .ite (.pure fun _ _ => .none) ?_
  refine (twin_spreadOrExpression hg).includingIn.thenNode fun h' e _ he => .andThen fun _ => ?_
  have hnext : ∀ {c c' : Option Nat}, SamePlaces c c' → w.Sim h' h' (fun hi =>
      Option.Rel (w.StacksWith SamePlaces lo hi)) (pure (some (e :: acc, c)))
        (pure (some (w.node e :: acc.map w.node, c'))) :=
    fun hc => .pure fun hi hhi => .some ⟨(Stacks.push ⟨rfl, hacc⟩ he).mono hhi, hc⟩
  refine .ite (hnext .none) (.andThen fun _ => .andThen fun _ => .ite ?_ (hnext .none))
  exact .lastStartAny fun _ _ => hnext (.some trivial)

end

/-! ## arrow functions -/

theorem asParameters_cons {comma : Option Nat} {n : Node} (ns : List Node)
    (h : ∀ start stop inner, n ≠ .mk .spread start stop [inner]) :
    asParameters comma (n :: ns) = (asPattern .binding n >>= fun p =>
      asParameters comma ns >>= fun ps => pure (p :: ps)) := by
  obtain ⟨kind, start, stop, parts⟩ := n
  rw [asParameters]
  split
  · rename_i hkind hparts _
    obtain rfl : kind = .spread := hkind
    obtain rfl : parts = [_] := hparts
    exact absurd rfl (h start stop _)
  · rename_i hkind hparts _
    obtain rfl : kind = .spread := hkind
    obtain rfl : parts = [_] := hparts
    exact absurd rfl (h start stop _)
  · rfl

theorem notes_asParameters {comma comma' : Option Nat} (hcomma : SamePlaces comma comma')
    (ns : List Node) :
    w.Notes (BecomeAll w ns) (asParameters comma ns) (asParameters comma' (ns.map w.node)) := by
  induction ns with
  | nil => exact .pure (.nil [])
  | cons n ns ih =>
    rw [List.map_cons]
    by_cases hspread : ∃ start stop inner, n = .mk .spread start stop [inner]
    · obtain ⟨start, stop, inner, rfl⟩ := hspread
      rw [node_mk, List.map_cons, List.map_nil]
      cases ns with
      | cons m ns =>
        exact (Notes.report ..).andThen fun _ => ih.mono fun _ _ h => h.skip
      | nil =>
        have hrest : w.Notes (BecomeAll w [.mk .spread start stop [inner]])
            (asPattern .binding inner >>= fun p => pure [.mk .rest start stop [p]])
            (asPattern .binding (w.node inner) >>= fun p =>
              pure [.mk .rest (start + w.before) (w.stop stop) [p]]) :=
          (notes_asPattern .binding inner).bind fun p p' hp =>
            .pure (.single (.around rfl rfl hp))
        rw [List.map_nil, asParameters.eq_2 comma, asParameters.eq_2 comma']
        dsimp -zeta -zetaHave only [Node.kind_mk, Node.parts_mk, List.isEmpty_nil]
        rw [kind_node]
        extract_lets rest last rest' last'
        have hlast : ∀ u, w.Notes (BecomeAll w [.mk .spread start stop [inner]]) (last u)
            (last' u) := by
          intro u
          cases hcomma with
          | none => exact hrest
          | some _ => exact (Notes.report ..).andThen fun _ => hrest
        split
        · exact (Notes.report ..).andThen fun u => hlast u
        · exact hlast ()
    · have hleft : ∀ start stop inner, n ≠ .mk .spread start stop [inner] :=
        fun start stop inner heq => hspread ⟨start, stop, inner, heq⟩
      rw [asParameters_cons ns hleft, asParameters_cons _ (not_spread_node hleft)]
      exact (notes_asPattern .binding n).bind fun p p' hp => ih.bind fun ps ps' hps =>
        .pure (.cons hp hps)

theorem notes_checkInitializers (ns : List Node) :
    w.Notes Eq (checkInitializers ns) (checkInitializers (ns.map w.node)) := by
  induction ns with
  | nil => exact .pure rfl
  | cons n ns ih =>
    rw [List.map_cons, checkInitializers, checkInitializers, kind_node, parts_node]
    refine .ite ((Notes.forEach n.parts (fun p u => ?_) ⟨⟩).andThen fun _ => ih) ih
    rw [kind_node]
    split
    · exact (Notes.report ..).andThen fun _ => .pure rfl
    · exact .pure rfl

instance : w.Steps atBinarySymbol atBinarySymbol := by
  refine .of_token fun t t' h => ?_
  rw [h]
  cases t.kind <;> exact ⟨_, rfl, rfl⟩

section

variable (hg : g.Twins w g')

include hg

theorem twin_arrowFrom {start : Nat} {isAsync : Bool} {params : List Node} (hfrom : from_ ≤ start)
    (hmark : w.Mark start) (hparams : Node.LieIn w.Mark start l params) :
    w.Sim lo l (w.Heads from_) (arrowFrom g start isAsync params)
      (arrowFrom g' (start + w.before) isAsync (params.map w.node)) := by
  refine (twin_arrowBody hg).thenNode fun h body _ hbody => ?_
  rw [kind_node, ← map_node_concat]
  exact .head rfl hfrom hmark (hparams.append hbody.lieIn)

theorem twin_parenthesizedArrow {canBeArrow isAsync : Bool} {start : Nat} {items : List Node}
    {comma comma' : Option Nat} (hfrom : from_ ≤ start) (hmark : w.Mark start)
    (hitems : Node.LieIn w.Mark start l items) (hcomma : SamePlaces comma comma') :
    w.Sim l l (w.Heads from_) (parenthesizedArrow g canBeArrow start isAsync items comma)
      (parenthesizedArrow g' canBeArrow (start + w.before) isAsync (items.map w.node) comma') := by
  refine .andThen fun _ => ?_
  extract_lets arrow allowed arrow' allowed'
  have harrow : ∀ u, w.Sim l l (w.Heads from_) (arrow u) (arrow' u) := by
    intro u
    refine .andThen fun _ => .bind (.of_notes (notes_asParameters hcomma items)) ?_
    rintro h params _ hh ⟨rfl, hparams⟩
    have hparams := (hparams _ _ hitems).mono (Nat.le_refl _) hh
    refine .andThen fun c => ?_
    extract_lets body body'
    have hbody : ∀ u, w.Sim h h (w.Heads from_) (body u) (body' u) := by
      intro u
      refine (twin_arrowFrom hg hfrom hmark hparams).thenHead fun h' arrow _ harrow => ?_
      have hreturn : w.Sim h' h' (w.Heads from_) (pure arrow) (pure (w.node arrow)) :=
        .pure fun hi hhi => ⟨rfl, harrow.mono (Nat.le_refl _) hhi⟩
      rw [kind_node]
      refine .andThen fun _ =>
        .ite (.token fun t stop remarks _ _ _ => .andThen fun _ => ?_) hreturn
      refine .bind (hg.binary harrow.lies) ?_
      rintro h'' e _ _ ⟨⟨rfl, he⟩, hestart⟩
      have hsits : e.Sits w.Mark from_ h'' := by
        rw [← hestart] at he
        exact ⟨hestart ▸ harrow.le_start, hestart ▸ harrow.marked, he⟩
      have hreturn : ∀ {k}, w.Sim k h'' (w.Heads from_) (pure e) (pure (w.node e)) :=
        .pure fun hi hhi => ⟨rfl, hsits.mono (Nat.le_refl _) hhi⟩
      refine .andThen fun _ => .ite (.token fun t stop remarks _ _ _ => ?_) hreturn
      exact .andThen fun _ => hreturn
    have hnames : w.Steps (checkNamesOf params) (checkNamesOf (params.map w.node)) :=
      .of_notes (notes_checkNamesOf params)
    exact .ite (.andThen fun u => hbody u) (hbody ())
  have hallowed : ∀ u, w.Sim l l (w.Heads from_) (allowed u) (allowed' u) :=
    fun u => .ite (.andThen fun u => harrow u) (harrow ())
  exact .ite (.andThen fun u => hallowed u) (hallowed ())

omit hg in
/-- one item in parentheses -/
theorem twin_grouping_single {start : Nat} {item : Node} {comma comma' : Option Nat}
    (hfrom : from_ ≤ start) (hmark : w.Mark start) (hitem : Node.LieIn w.Mark start l [item])
    (hcomma : SamePlaces comma comma') :
    w.Sim l l (w.Heads from_) (grouping start [item] comma)
      (grouping (start + w.before) [w.node item] comma') := by
  have hnode : w.Sim l l (w.Heads from_) (Parse.node .parenthesized start [item])
      (Parse.node .parenthesized (start + w.before) [w.node item]) :=
    .head rfl hfrom hmark hitem
  unfold grouping
  dsimp -zeta -zetaHave only
  rw [kind_node, parts_node]
  cases hcomma
  all_goals
    dsimp only
    split
    · exact .of_stops .fail
    · rename_i hsingle
      split
      · rename_i hkind hparts
        obtain ⟨inner, tail, hparts, -⟩ := List.map_eq_cons_iff.mp hparts
        exact absurd hparts (hsingle inner tail hkind)
      · first | exact hnode | exact .andThen fun _ => hnode

omit hg in
/-- several items in parentheses are a sequence -/
theorem twin_grouping_several {start : Nat} {first second : Node} {others : List Node}
    {comma comma' : Option Nat} (hfrom : from_ ≤ start) (hmark : w.Mark start)
    (hitems : Node.LieIn w.Mark start l (first :: second :: others))
    (hcomma : SamePlaces comma comma') :
    w.Sim l l (w.Heads from_) (grouping start (first :: second :: others) comma)
      (grouping (start + w.before) ((first :: second :: others).map w.node) comma') := by
  have hfind : ((first :: second :: others).map w.node).find? (·.kind = .spread) =
      ((first :: second :: others).find? (·.kind = .spread)).map w.node := by
    rw [List.find?_map]
    simp only [Function.comp_def, kind_node]
  have hlast : (((first :: second :: others).map w.node).getLast?.map Node.stop).getD
      (start + w.before) =
        w.stop (((first :: second :: others).getLast?.map Node.stop).getD start) := by
    rw [List.getLast?_map, List.getLast?_eq_some_getLast (List.cons_ne_nil _ _)]
    exact stop_node _
  have hinner : ∀ {k}, w.Sim k l (w.Heads from_)
      (Parse.node .parenthesized start [.mk .sequence first.start
        (((first :: second :: others).getLast?.map Node.stop).getD start)
        (first :: second :: others)])
      (Parse.node .parenthesized (start + w.before) [.mk .sequence (w.node first).start
        ((((first :: second :: others).map w.node).getLast?.map Node.stop).getD
          (start + w.before)) ((first :: second :: others).map w.node)]) := by
    have hnode : w.node (.mk .sequence first.start
        (((first :: second :: others).getLast?.map Node.stop).getD start)
        (first :: second :: others)) = .mk .sequence (first.start + w.before)
          (w.stop (((first :: second :: others).getLast?.map Node.stop).getD start))
          ((first :: second :: others).map w.node) := node_mk ..
    intro k
    rw [hlast, start_node, ← hnode]
    exact .head rfl hfrom hmark (Node.Lies.lieIn ((Node.lies_mk rfl ..).mpr hitems))
  rw [List.map_cons, List.map_cons] at hfind hinner ⊢
  unfold grouping
  dsimp -zeta -zetaHave only
  rw [hfind]
  cases (first :: second :: others).find? (·.kind = .spread) with
  | some spread => exact .of_stops .fail
  | none =>
    cases hcomma with
    | none => exact hinner
    | some _ => exact .andThen fun _ => hinner

omit hg in
theorem twin_grouping {start : Nat} {items : List Node} {comma comma' : Option Nat}
    (hfrom : from_ ≤ start) (hmark : w.Mark start) (hitems : Node.LieIn w.Mark start l items)
    (hcomma : SamePlaces comma comma') :
    w.Sim l l (w.Heads from_) (grouping start items comma)
      (grouping (start + w.before) (items.map w.node) comma') := by
  match items with
  | [] => exact .of_stops .fail
  | [item] => exact twin_grouping_single hfrom hmark hitems hcomma
  | first :: second :: others => exact twin_grouping_several hfrom hmark hitems hcomma

/-- grouping, the arguments of a call to `async`, or the head of an arrow function -/
theorem twin_parenthesesOrArrow {canBeArrow : Bool} {asyncStart : Option Nat}
    (hasync : ∀ start, asyncStart = some start → from_ ≤ start ∧ w.Mark start ∧ start ≤ lo ∧ 0 < l)
    (hfrom : from_ ≤ lo) :
    w.Sim lo l (w.Heads from_) (parenthesesOrArrow g canBeArrow asyncStart)
      (parenthesesOrArrow g' canBeArrow (asyncStart.map (· + w.before))) := by
  refine .token fun t stop remarks hlo hl hmark => ?_
  extract_lets start start'
  obtain ⟨hstart', hfrom, hmark, hstart, hpos⟩ : start' = start + w.before ∧ from_ ≤ start ∧
      w.Mark start ∧ start ≤ t.start ∧ (asyncStart.isSome = true → 0 < l) := by
    cases asyncStart with
    | none => exact ⟨rfl, Nat.le_trans hfrom hlo, hmark, Nat.le_refl _, nofun⟩
    | some place =>
      obtain ⟨hfrom, hmark, hplace, hpos⟩ := hasync place rfl
      exact ⟨rfl, hfrom, hmark, Nat.le_trans hplace hlo, fun _ => hpos⟩
  clear_value start start'
  subst hstart'
  refine (twin_parenthesized hg).bind ?_
  rintro h ⟨items, comma⟩ ⟨_, comma'⟩ hh ⟨⟨rfl, hitems⟩, hcomma⟩
  dsimp -zeta -zetaHave only at hitems hcomma ⊢
  have hitems := hitems.mono hstart (Nat.le_refl _)
  have hchecks : w.Steps (checkInitializers items) (checkInitializers (items.map w.node)) :=
    .of_notes (notes_checkInitializers items)
  rw [Option.isSome_map]
  refine .andThen fun _ => .ite (twin_parenthesizedArrow hg hfrom hmark hitems hcomma) ?_
  refine .andThen fun _ => ?_
  by_cases hasync : asyncStart.isSome = true
  · rw [if_pos hasync, if_pos hasync]
    have hcallee : (Node.mk (.identifier "async") start (start + 5) []).Lies w.Mark start start :=
      (Node.lies_mk rfl ..).mpr (.nil (Nat.le_refl _))
    have hnode : w.node (.mk (.identifier "async") start (start + 5) []) =
        .mk (.identifier "async") (start + w.before) (start + w.before + 5) [] := by
      rw [node_mk, stop_of_pos (Nat.succ_pos _), Nat.add_right_comm]
      rfl
    rw [← hnode]
    exact .call (Nat.lt_of_lt_of_le (hpos hasync) hh) hfrom hmark (.cons hcallee hitems)
  · rw [if_neg hasync, if_neg hasync]
    exact twin_grouping hfrom hmark hitems hcomma

theorem twin_nameOrArrow {canBeArrow : Bool} :
    w.Sim lo l (w.Heads lo) (nameOrArrow g canBeArrow) (nameOrArrow g' canBeArrow) := by
  refine twin_reference.thenHead fun h id hl hid => ?_
  have hreturn : ∀ {k}, w.Sim k h (w.Heads lo) (pure id) (pure (w.node id)) :=
    .pure fun hi hhi => ⟨rfl, hid.mono (Nat.le_refl _) hhi⟩
  have hafter : id.start ≤ h := hid.lies.le
  rw [kind_node, start_node]
  refine .andThen fun _ => .andThen fun _ => .ite (.andThen fun c => ?_) ?_
  · refine .atWordPeek fun yes t t' hpeek => .iteOf ?_ ?_ ?_
    · cases yes with
      | false => simp
      | true =>
        obtain ⟨stop, remarks, rfl⟩ := hpeek rfl
        simp [kind_eq_symbol_iff]
    · exact .ite (.lastStartAny fun _ _ => .andThen fun _ => hreturn) hreturn
    · refine twin_bindingIdentifier.thenNode fun h' param hh' hparam =>
        .expect fun h'' _ hh'' _ => ?_
      have hparam := hparam.mono hafter hh''
      exact twin_arrowFrom hg hid.le_start hid.marked hparam.lieIn
  · refine .andThen fun newline => ⟨fun s s' hs => .atSymbol hs (fun harrow => ?_) ?_⟩
    · refine .ite (fun _ => ?_) fun _ => hreturn.simAt s s' hs
      refine .advanceThen hs (by rw [harrow]; rfl) fun h' _ hh' _ => .andThen fun c => ?_
      have hcheck : w.Steps (checkNames id) (checkNames (w.node id)) :=
        .of_notes (notes_checkNames id)
      have hbody : w.Sim h' h' (w.Heads lo) (arrowFrom g id.start false [id])
          (arrowFrom g' (id.start + w.before) false [w.node id]) :=
        twin_arrowFrom hg hid.le_start hid.marked (hid.lies.mono (Nat.le_refl _) hh').lieIn
      exact .ite (.andThen fun _ => hbody) hbody
    · rw [Bool.and_false]
      exact hreturn.simAt s s' hs

/-! ## primaries of all kinds -/

omit hg in
/-- a token that stands for itself -/
theorem twinAt_single {kind : Kind} {s s' : State} (hs : w.Meets lo l s s') (hkind : kind.isPlain)
    (hproper : s.token.kind.isProper) :
    w.SimAt (w.Heads lo) s s' (Parse.advance >>= fun _ => Parse.node kind s.token.start [])
      (Parse.advance >>= fun _ => Parse.node kind (s.token.start + w.before) []) :=
  .advanceThen hs hproper fun _ hstart _ _ =>
    .head hkind hs.lo_le hs.fine.start (.nil hstart)

omit hg in
theorem filter_token {next : Option Token} {stop : Nat} {remarks : List Fault} :
    ((next.map fun t => w.token t stop remarks).filter (!·.newline)).map Token.kind =
      ((next.filter (!·.newline)).map Token.kind).map w.kind := by
  cases next with
  | none => rfl
  | some t =>
    have hnewline : (w.token t stop remarks).newline = t.newline := rfl
    rw [Option.map_some, Option.filter_some, Option.filter_some, hnewline]
    cases t.newline <;> rfl

omit hg in
theorem isSome_kind (k : Option Token.Kind) :
    (k.map w.kind == some (.word "function")) = (k == some (.word "function")) ∧
      (k.map w.kind == some (.symbol .lparen)) = (k == some (.symbol .lparen)) := by
  cases k with
  | none => exact ⟨rfl, rfl⟩
  | some k => exact ⟨kind_beq_word k "function", kind_beq_symbol k .lparen⟩

theorem twin_primary : w.Sim lo l (w.Heads lo) (primary g) (primary g') := by
  refine ⟨fun s s' hs => .refuseInvalid hs fun hvalid => .token hs fun stop remarks => .get ?_⟩
  extract_lets canBeArrow canBeArrow'
  have hcan : canBeArrow' ↔ canBeArrow := by
    show s'.arrowStart = some (s.token.start + w.before) ↔ s.arrowStart = some s.token.start
    rw [hs.twin.arrowStart, Option.map_eq_some_iff]
    constructor
    · rintro ⟨start, hstart, heq⟩
      rw [hstart, Nat.add_right_cancel heq]
    · exact fun h => ⟨_, h, rfl⟩
  simp -zeta -zetaHave only [hcan, start_token, kind_token]
  generalize decide canBeArrow = canBeArrow
  have hfrom := hs.lo_le
  have hmark := hs.fine.start
  rcases kind_cases (w := w) s.token.kind with hsame | ⟨part, bad, htemplate⟩ | ⟨fault, hfault⟩
  · rw [hsame]
    split
    · rename_i raw hraw
      exact twinAt_single hs rfl (by rw [hraw]; rfl)
    · rename_i hkind
      exact twinAt_single hs rfl (by rw [hkind]; rfl)
    · rename_i hkind
      exact twinAt_single hs rfl (by rw [hkind]; rfl)
    · exact (twin_template hg hfrom hmark (Nat.le_refl _)).simAt s s' hs.start
    · exact (twin_arrayLiteral hg).simAt s s' hs
    · exact (twin_objectLiteral hg).simAt s s' hs
    · have hparens : w.Sim lo l (w.Heads lo) (parenthesesOrArrow g canBeArrow none)
          (parenthesesOrArrow g' canBeArrow none) :=
        twin_parenthesesOrArrow hg nofun (Nat.le_refl _)
      exact hparens.simAt s s' hs
    · rename_i hslash
      exact twinAt_regularExpression hs hslash (.inl rfl)
    · rename_i hslash
      exact twinAt_regularExpression hs hslash (.inr rfl)
    · rename_i hhash
      exact twinAt_privateName hs hhash
    · rename_i hkind
      exact twinAt_single hs rfl (by rw [hkind]; rfl)
    · rename_i hkind
      exact twinAt_single hs rfl (by rw [hkind]; rfl)
    · rename_i hkind
      exact twinAt_single hs rfl (by rw [hkind]; rfl)
    · rename_i hkind
      exact twinAt_single hs rfl (by rw [hkind]; rfl)
    · exact (twin_functionFrom hg hfrom hmark (Nat.le_refl _)).simAt s s' hs.start
    · exact (twin_classFrom hg hfrom hmark (Nat.le_refl _)).simAt s s' hs.start
    · rename_i name _ _ _ _ _ _ hword
      have hproper : s.token.kind.isProper := by rw [hword]; rfl
      extract_lets rest rest'
      have hrest : ∀ next stop remarks, w.SimAt (w.Heads lo) s s' (rest next)
          (rest' (next.map fun t => w.token t stop remarks)) := by
        intro next stop remarks
        unfold rest rest'
        rw [filter_token]
        extract_lets following
        obtain ⟨hfunction, hparen⟩ := isSome_kind (w := w) following
        rw [hfunction, hparen]
        refine .ite (fun _ => ?_) fun _ => .ite (fun _ => ?_) fun _ => ?_
        · exact .advanceThen hs hproper fun h hstart _ _ =>
            twin_functionFrom hg hfrom hmark hstart
        · refine .advanceThen hs hproper fun h hstart hh hpos => ?_
          refine twin_parenthesesOrArrow hg ?_ (Nat.le_trans hfrom hstart)
          intro start heq
          cases heq
          exact ⟨hfrom, hmark, hstart, hpos⟩
        · refine Sim.simAt (.andThen fun c => ?_) s s' hs
          exact .ite (twin_nameOrArrow hg) (.of_stops .failHere)
      refine .ite (fun _ => ?_) fun _ => ?_
      · rw [bind_map_left, bind_map_left]
        refine .peek hs fun t t' hpeek => ?_
        obtain ⟨stop, remarks, rfl⟩ := hpeek name hword
        exact hrest (some t) stop remarks
      · rw [pure_bind, pure_bind]
        exact hrest none 0 []
    · exact .of_stops hs .failHere
  · rw [htemplate]
    exact ((twin_template hg hfrom hmark (Nat.le_refl _)).simAt s s' hs.start)
  · exact absurd hfault (hvalid fault)

end

end Bindle.Script.Grammar
