import Bindle.Proofs.Script.Framed.Pattern

/-!
# Functions, objects and classes have twins

A repetition keeps the trees that it has read so far in order.  The members of a class stand behind
its superclass, which comes last in the tree, so only the bounds of a class are known.
-/

namespace Bindle.Script.Grammar

open Parse Script.Frame

variable {w : Frame} {g g' : Grammar} {lo l from_ : Nat}

/-! ## blocks -/

theorem twin_blockBody {item item' : Parse Node} {closing : Option Symbol} {directives : Bool}
    (hitem : ∀ {lo l}, w.Sim lo l (w.Reads l) item item') :
    w.Sim lo l (w.ReadsAll l) (blockBody item closing directives)
      (blockBody item' closing directives) := by
  refine .within (.bind (.iterateTrees (.nil (Nat.le_refl l)) fun h acc _ hacc => ?_)
    fun h acc acc' _ hacc => .pure fun hi hhi => (hacc.mono hhi).reverse)
  refine .token fun t stop remarks _ _ _ => ?_
  extract_lets next next'
  have hnext : ∀ u, w.Sim t.start h (fun hi => Option.Rel (w.Stacks l hi)) (next u) (next' u) := by
    intro u
    refine hitem.thenNode fun h' n _ hn => ?_
    have hpush : w.Sim h' h' (fun hi => Option.Rel (w.Stacks l hi)) (pure (some (n :: acc)))
        (pure (some (w.node n :: acc.map w.node))) :=
      .pure fun hi hhi => .some ((Stacks.push ⟨rfl, hacc⟩ hn).mono hhi)
    exact .iteOf (by simp) (.andThen fun _ => hpush) hpush
  split
  · exact .iteOf (by simp) (.pure fun _ _ => .none)
      (.iteOf (by simp) (.andThen fun _ => .pure fun _ _ => .none) (hnext ()))
  · exact .iteOf (by simp) (.pure fun _ _ => .none) (hnext ())

theorem strictDirective?_node (body : Node) :
    strictDirective? (w.node body) = (strictDirective? body).map w.node := by
  rw [strictDirective?, strictDirective?, parts_node, List.takeWhile_map, List.find?_map]
  simp only [Function.comp_def, isDirective_node, isUseStrict_node]

theorem notes_checkDirective (params : List Node) (body : Node) :
    w.Notes Eq (checkDirective params body)
      (checkDirective (params.map w.node) (w.node body)) := by
  have hsimple : isSimple (params.map w.node) = isSimple params := by
    rw [isSimple, isSimple, List.all_map]
    simp only [Function.comp_def, isIdentifier_node]
  unfold checkDirective
  rw [hsimple, strictDirective?_node]
  cases strictDirective? body with
  | none => exact .ite (.pure rfl) (.pure rfl)
  | some n => exact .ite (.report ..) (.pure rfl)

instance (params : List Node) (body : Node) :
    w.Steps (checkDirective params body) (checkDirective (params.map w.node) (w.node body)) :=
  .of_notes (notes_checkDirective params body)

section

variable (hg : g.Twins w g')

include hg

theorem twin_block {directives : Bool} :
    w.Sim lo l (w.Reads l) (block g directives) (block g' directives) := by
  refine .token fun t stop remarks _ _ _ => .expect fun h _ hl _ => ?_
  refine (twin_blockBody hg.statement).thenNodes fun h' items _ hitems => .andThen fun _ => ?_
  exact .node rfl (hitems.mono hl (Nat.le_refl _))

/-! ## functions -/

theorem twin_parameter : w.Sim lo l (w.Reads l) (parameter g) (parameter g') := by
  refine .token fun t stop remarks _ _ _ => .ifEat (fun h _ hl _ => ?_) (twin_bindingElement hg)
  refine hg.binding.thenNode fun h' inner _ hinner => .andThen fun _ => ?_
  have hparts := (hinner.mono hl (Nat.le_refl _)).lieIn
  refine .ite ?_ (.node rfl hparts)
  refine hg.assignment.thenNode fun h'' _ hh _ => .andThen fun _ => ?_
  exact .node rfl (hparts.mono (Nat.le_refl _) hh)

theorem twin_parameters : w.Sim lo l (w.ReadsAll l) (parameters g) (parameters g') := by
  refine .bind (.iterateTreesWith (T := SamePlaces) (Nat.le_refl l) .none
    fun h acc c c' _ hacc hc => ?_) fun h acc acc' _ hacc => .pure fun hi hhi =>
      (hacc.1.mono hhi).reverse
  refine .andThen fun _ => .ite (.pure fun _ _ => .none) ?_
  extract_lets next next'
  have hnext : ∀ u, w.Sim h h (fun hi => Option.Rel (w.StacksWith SamePlaces l hi)) (next u)
      (next' u) := by
    intro u
    refine (twin_parameter hg).thenNode fun h' p _ hp => ?_
    have hdone : ∀ {c c' : Option Nat}, SamePlaces c c' → w.Sim h' h' (fun hi =>
        Option.Rel (w.StacksWith SamePlaces l hi)) (pure (some (p :: acc, c)))
          (pure (some (w.node p :: acc.map w.node, c'))) :=
      fun hc => .pure fun hi hhi => .some ⟨(Stacks.push ⟨rfl, hacc⟩ hp).mono hhi, hc⟩
    have hrest : SamePlaces (if p.kind = .rest then some p.start else c)
        (if (w.node p).kind = .rest then some (w.node p).start else c') := by
      rw [kind_node]
      split
      · exact .some trivial
      · exact hc
    refine .andThen fun _ => .ite (.andThen fun _ => .andThen fun _ => ?_) (hdone hrest)
    refine .iteOf (by simp) ?_ (hdone hrest)
    exact .lastStartAny fun _ _ => .andThen fun _ => hdone hrest
  cases hc with
  | none => exact hnext ()
  | some _ => exact .andThen fun u => hnext u

theorem twin_functionBody {isAsync isGenerator : Bool} {params : List Node} :
    w.Sim lo l (w.Reads l) (functionBody g isAsync isGenerator params)
      (functionBody g' isAsync isGenerator (params.map w.node)) := by
  refine .apart (.within ((twin_block hg).thenNode fun h body _ hbody => .andThen fun _ => ?_))
  exact .pure fun hi hhi => ⟨rfl, hbody.mono (Nat.le_refl _) hhi⟩

/-- parameters and body, which stand behind the place where they begin -/
theorem twin_functionRest {isAsync isGenerator : Bool} {check check' : List Node → Parse Unit}
    [∀ params, w.Steps (check params) (check' (params.map w.node))] :
    w.Sim lo l (w.ReadsAll l) (functionRest g isAsync isGenerator check)
      (functionRest g' isAsync isGenerator check') := by
  refine .within (.expect fun h _ hl _ => .thenNodes (.within (R := w.ReadsAll h) ?_)
    fun h' params _ hparams => ?_)
  · refine (twin_parameters hg).thenNodes fun h' ps _ hps => .andThen fun _ => ?_
    exact .pure fun hi hhi => ⟨rfl, hps.mono (Nat.le_refl _) hhi⟩
  · refine .andThen fun _ => (twin_functionBody hg).thenNode fun h'' body _ hbody => ?_
    refine .pure fun hi hhi => ⟨by simp, ?_⟩
    exact (hparams.append hbody.lieIn).mono hl hhi

theorem twin_functionFrom {start : Nat} {isAsync isExpression nameNeeded : Bool}
    (hfrom : from_ ≤ start) (hmark : w.Mark start) (hstart : start ≤ lo) :
    w.Sim lo l (w.Heads from_) (functionFrom g start isAsync isExpression nameNeeded)
      (functionFrom g' (start + w.before) isAsync isExpression nameNeeded) := by
  refine .expectWord fun h hlo _ _ => .andThen fun isGenerator => ?_
  have hh : start ≤ h := Nat.le_trans hstart hlo
  extract_lets naming rest rest'
  have hnaming : w.Sim h h (w.ReadsAll h) naming naming := by
    refine .andThen fun _ => .ite ?_ (.pure fun hi hhi => ⟨rfl, .nil hhi⟩)
    refine twin_bindingIdentifier.thenNode fun h' id _ hid => ?_
    exact .pure fun hi hhi => ⟨rfl, (hid.mono (Nat.le_refl _) hhi).lieIn⟩
  have hrest : ∀ h' name, h ≤ h' → Node.LieIn w.Mark h h' name →
      w.Sim h' h' (w.Heads from_) (rest name) (rest' (name.map w.node)) := by
    intro h' name _ hname
    refine Sim.thenNodes (.within (twin_functionRest hg)) fun h'' parts _ hparts => ?_
    rw [← List.map_append]
    exact .head rfl hfrom hmark ((hname.append hparts).mono hh (Nat.le_refl _))
  exact .ite (hnaming.within.thenNodes hrest) (hnaming.thenNodes hrest)

theorem twin_arrowBody {isAsync : Bool} {params : List Node} :
    w.Sim lo l (w.Reads l) (arrowBody g isAsync params)
      (arrowBody g' isAsync (params.map w.node)) := by
  refine .apart (.within (.andThen fun _ => .ite ?_ hg.assignment))
  refine (twin_block hg).thenNode fun h body _ hbody => .andThen fun _ => ?_
  exact .pure fun hi hhi => ⟨rfl, hbody.mono (Nat.le_refl _) hhi⟩

/-! ## members -/

omit hg

instance (i i' : Nat) (params : List Node) :
    w.Steps (checkGetter i params) (checkGetter i' (params.map w.node)) := by
  refine ⟨fun lo l => .iteOf (by simp) (.of_notes (.report ..)) (.pure fun _ _ => rfl)⟩

instance (i i' : Nat) (params : List Node) :
    w.Steps (checkSetter i params) (checkSetter i' (params.map w.node)) := by
  unfold checkSetter
  rw [List.length_map, List.head?_map]
  extract_lets head head'
  have hhead : ∀ u, w.Steps (head u) (head' u) := by
    intro u
    unfold head head'
    cases params.head? with
    | none => exact inferInstanceAs (w.Steps (pure ()) (pure ()))
    | some p => exact ⟨fun lo l => .iteOf (by simp) (.of_notes (.report ..)) (.pure fun _ _ => rfl)⟩
  exact ⟨fun lo l => .ite (.andThen fun u => (hhead u).sim lo l) ((hhead ()).sim lo l)⟩

include hg

/-- a method behind its key -/
theorem twin_methodRest {start : Nat} {key : Node} {isAsync isGenerator : Bool}
    {check check' : List Node → Parse Unit}
    [∀ params, w.Steps (check params) (check' (params.map w.node))]
    (hkey : key.Lies w.Mark from_ l) :
    w.Sim lo l (w.Reads from_) (methodRest g start key isAsync isGenerator check)
      (methodRest g' (start + w.before) (w.node key) isAsync isGenerator check') :=
  Sim.thenNodes (.within (twin_functionRest hg)) fun _ _ _ hrest => .node rfl (.cons hkey hrest)

theorem twin_accessorRest {start : Nat} {word : String} :
    w.Sim lo l (w.Reads l) (accessorRest g start word)
      (accessorRest g' (start + w.before) word) := by
  unfold accessorRest
  extract_lets rest rest'
  have hrest : ∀ isGenerator, w.Sim lo l (w.Reads l) (rest isGenerator) (rest' isGenerator) := by
    intro isGenerator
    refine (twin_propertyName hg).thenNode fun h key _ hkey => ?_
    split
    all_goals exact twin_methodRest hg hkey
  exact .ite (.andThen fun isGenerator => hrest isGenerator) (.pureThen (hrest false))

theorem twin_objectMember : w.Sim lo l (w.Reads l) (objectMember g) (objectMember g') := by
  refine .token fun t stop remarks _ _ _ => .ifEat (fun h _ hl _ => ?_)
    (.ifEat (fun h _ hl _ => ?_) ?_)
  · refine hg.assignment.includingIn.thenNode fun h' inner _ hinner => ?_
    exact .node rfl (hinner.mono hl (Nat.le_refl _)).lieIn
  · refine (twin_propertyName hg).thenNode fun h' key _ hkey => ?_
    exact twin_methodRest hg (hkey.mono hl (Nat.le_refl _))
  refine (twin_propertyName hg).thenNode fun h key _ hkey => .andThen fun _ => ?_
  extract_lets rest rest'
  have hrest : ∀ u, w.Sim h h (w.Reads l) (rest u) (rest' u) := by
    intro u
    refine .andThen fun _ => .ite ?_ (.andThen fun _ => .ite (twin_methodRest hg hkey) ?_)
    · refine hg.assignment.includingIn.thenNode fun h' value _ hvalue => ?_
      exact .node rfl (.cons hkey hvalue.lieIn)
    rw [kind_node]
    split
    · refine .andThen fun _ => .andThen fun _ => .andThen fun _ => .ite (.andThen fun c => ?_) ?_
      · extract_lets value value'
        have hvalue : ∀ u, w.Sim h h (w.Reads l) (value u) (value' u) := by
          intro u
          refine .andThen fun _ => .ite ?_ (.node rfl (.nil hkey.le))
          refine hg.assignment.includingIn.thenNode fun h' value _ hvalue => ?_
          exact .node rfl (hvalue.mono hkey.le (Nat.le_refl _)).lieIn
        exact .ite (.andThen fun u => hvalue u) (hvalue ())
      · exact .ite ((twin_accessorRest hg).readsFrom hkey.le) (.of_stops .unexpected)
    · exact .of_stops .unexpected
  exact .ite (.lastStartAny fun _ _ => .andThen fun u => hrest u) (hrest ())

theorem twin_objectLiteral : w.Sim lo l (w.Heads lo) (objectLiteral g) (objectLiteral g') := by
  refine .token fun t stop remarks hlo _ hmark => (twin_braced (twin_objectMember hg)).bind ?_
  rintro h ⟨members, comma⟩ ⟨_, comma'⟩ _ ⟨⟨rfl, hmembers⟩, hcomma⟩
  cases hcomma with
  | none => exact .head rfl hlo hmark hmembers
  | some _ =>
    refine .modifyThen (fun _ => ⟨rfl, rfl, rfl, rfl⟩) (fun s s' hs => { hs with
      trailingCommas := ?_ }) (.head rfl hlo hmark hmembers)
    exact congrArg (List.cons _) hs.trailingCommas

/-! ## classes -/

theorem twin_classKey : w.Sim lo l (w.Reads l) (classKey g) (classKey g') := by
  refine ⟨fun s s' hs => .atSymbol hs (fun hkind => ?_) ((twin_propertyName hg).simAt s s' hs)⟩
  refine (twinAt_privateName hs.behind hkind).bind ?_
  rintro name _ t t' hfine htwin hlater ⟨rfl, hname⟩
  refine Sim.simAt ?_ t t' ⟨hfine, htwin, hfine.sound.lastStop_le, Nat.le_refl _⟩
  have hreturn : w.Sim t.lastStop t.lastStop (w.Reads l) (pure name) (pure (w.node name)) :=
    .pure fun hi hhi => ⟨rfl, hname.toLies.mono (Nat.le_refl _) hhi⟩
  rw [kind_node]
  split
  · exact .andThen fun _ => hreturn
  · exact hreturn

omit hg in
instance (loosely : Bool) : w.Steps (atFieldEnd loosely) (atFieldEnd loosely) := by
  unfold atFieldEnd
  infer_instance

omit hg in
@[simp]
theorem isConstructorKey_node (key : Node) :
    isConstructorKey (w.node key) = isConstructorKey key := by
  rw [isConstructorKey, isConstructorKey, kind_node]

omit hg in
@[simp]
theorem keyWord?_node (key : Node) : keyWord? (w.node key) = keyWord? key := by
  rw [keyWord?, keyWord?, kind_node]

theorem twin_fieldRest {start : Nat} {key : Node} {isStatic : Bool}
    (hkey : key.Lies w.Mark from_ l) :
    w.Sim lo l (w.Reads from_) (fieldRest g start key isStatic)
      (fieldRest g' (start + w.before) (w.node key) isStatic) := by
  refine .iteOf (by simp) (.andThen fun _ => ?_) ?_
  all_goals
    refine .within (.andThen fun _ => ?_)
    extract_lets rest rest'
    have hrest : ∀ {k} h value, Node.LieIn w.Mark l h value →
        w.Sim k h (w.Reads from_) (rest value) (rest' (value.map w.node)) := by
      intro k h value hvalue
      have hnode : ∀ {k}, w.Sim k h (w.Reads from_) (Parse.node .field start (key :: value))
          (Parse.node .field (start + w.before) (w.node key :: value.map w.node)) :=
        .node rfl (.cons hkey hvalue)
      refine .andThen fun _ => .ite (.token fun t stop remarks _ _ _ => ?_) hnode
      exact .andThen fun _ => hnode
    refine .ite (hg.assignment.thenNode fun h n _ hn => .pureThen (hrest h [n] hn.lieIn)) ?_
    exact .pureThen (hrest l [] (.nil (Nat.le_refl l)))

theorem twin_constructorRest {start : Nat} {key : Node} (hkey : key.Lies w.Mark from_ l) :
    w.Sim lo l (w.Reads from_) (constructorRest g start key)
      (constructorRest g' (start + w.before) (w.node key)) :=
  Sim.thenNodes (.within (twin_functionRest hg)) fun _ _ _ hrest => .node rfl (.cons hkey hrest)

theorem twin_classMemberFrom {start : Nat} {isStatic : Bool} :
    w.Sim lo l (w.Reads l) (classMemberFrom g start isStatic)
      (classMemberFrom g' (start + w.before) isStatic) := by
  refine .andThen fun _ => .ite ?_ (.ifEat (fun h _ hl _ => ?_) ?_)
  · refine (twin_block hg).within.apart.thenNode fun h body _ hbody => ?_
    exact .node rfl hbody.lieIn
  · refine (twin_classKey hg).thenNode fun h' key _ hkey => ?_
    have hkey := hkey.mono hl (Nat.le_refl _)
    exact .iteOf (by simp) (.andThen fun _ => twin_methodRest hg hkey) (twin_methodRest hg hkey)
  refine (twin_classKey hg).thenNode fun h key _ hkey => ?_
  extract_lets word word'
  have hword : word' = word := keyWord?_node key
  rw [hword]
  refine .andThen fun _ => .iteOf (by simp)
    (.iteOf (by simp) (twin_constructorRest hg hkey) (twin_methodRest hg hkey)) ?_
  refine .andThen fun _ => .andThen fun _ => .andThen fun _ => .andThen fun _ =>
    .ite (twin_fieldRest hg hkey) ?_
  refine .andThen fun _ => .ite (.andThen fun isGenerator => ?_) (.ite ?_ (.of_stops .unexpected))
  · refine (twin_classKey hg).thenNode fun h' name _ hname => ?_
    have hname := hname.mono hkey.le (Nat.le_refl _)
    exact .iteOf (by simp) (.andThen fun _ => twin_methodRest hg hname) (twin_methodRest hg hname)
  · refine (twin_classKey hg).thenNode fun h' name _ hname => ?_
    have hname := hname.mono hkey.le (Nat.le_refl _)
    refine .iteOf (by simp) (.andThen fun _ => ?_) ?_
    all_goals exact .ite (twin_methodRest hg hname) (twin_methodRest hg hname)

theorem twin_classMember : w.Sim lo l (w.Reads l) (classMember g) (classMember g') := by
  refine .token fun t stop remarks _ _ _ => .ifEatWord (fun h _ hl _ => .lastStop fun i hi => ?_)
    (twin_classMemberFrom hg)
  have hle : l ≤ i := Nat.le_trans hl hi
  have hnode : w.node (.mk (.key "static") t.start i []) =
      .mk (.key "static") (t.start + w.before) (w.stop i) [] := node_mk ..
  have hkey : (Node.mk (.key "static") t.start i []).Lies w.Mark l i :=
    (Node.lies_mk rfl ..).mpr (.nil hle)
  rw [start_token, ← hnode]
  refine .andThen fun _ => .ite (twin_methodRest hg hkey) (.andThen fun _ => .ite ?_ ?_)
  · exact twin_fieldRest hg hkey
  · exact (twin_classMemberFrom hg).readsFrom hle

theorem twin_classBody : w.Sim lo l (w.ReadsAll l) (classBody g) (classBody g') := by
  refine .bind (.iterateTrees (.nil (Nat.le_refl l)) fun h acc _ hacc => ?_)
    fun h acc acc' _ hacc => .pure fun hi hhi => (hacc.mono hhi).reverse
  refine .andThen fun _ => .ite (.pure fun _ _ => .none) (.ifEat (fun h' _ hh _ => ?_) ?_)
  · exact .pure fun hi hhi => .some ⟨rfl, hacc.mono (Nat.le_refl _) (Nat.le_trans hh hhi)⟩
  refine (twin_classMember hg).within.thenNode fun h' m _ hm => ?_
  have hpush : w.Sim h' h' (fun hi => Option.Rel (w.Stacks l hi)) (pure (some (m :: acc)))
      (pure (some (w.node m :: acc.map w.node))) :=
    .pure fun hi hhi => .some ((Stacks.push ⟨rfl, hacc⟩ hm).mono hhi)
  exact .iteOf (by simp) (.andThen fun _ => hpush) hpush

/-- the superclass stands before the members, and comes behind them in the tree -/
theorem twin_classFrom {start : Nat} {nameNeeded : Bool} (hfrom : from_ ≤ start)
    (hmark : w.Mark start) (hstart : start ≤ lo) :
    w.Sim lo l (w.Heads from_) (classFrom g start nameNeeded)
      (classFrom g' (start + w.before) nameNeeded) := by
  refine .within (.expectWord fun h hlo _ _ => .andThen fun _ => ?_)
  have hh : start ≤ h := Nat.le_trans hstart hlo
  extract_lets rest rest'
  have hrest : ∀ h name, start ≤ h → Node.LieIn w.Mark start h name →
      w.Sim h h (w.Heads from_) (rest name) (rest' (name.map w.node)) := by
    intro h name hh hname
    refine .andThen fun _ => ?_
    extract_lets others others'
    have hothers : ∀ {k} h superclass, start ≤ h → Node.LieIn w.Mark start h name →
        (superclass = [] ∨ ∃ n, superclass = [n] ∧ n.Lies w.Mark start h) →
        w.Sim k h (w.Heads from_) (others superclass) (others' (superclass.map w.node)) := by
      intro k h superclass hh hname hsuperclass
      have hbody : ∀ {h' h'' members}, h ≤ h' → h' ≤ h'' → Node.LieIn w.Mark h' h'' members →
          w.Sim h'' h'' (w.Heads from_)
            (Parse.node .classBody start (name ++ members ++ superclass))
            (Parse.node .classBody (start + w.before)
              (name.map w.node ++ members.map w.node ++ superclass.map w.node)) := by
        intro h' h'' members hh' hh'' hmembers
        have hle := Nat.le_trans hh' hh''
        have hall := hname.append (hmembers.mono hh' (Nat.le_refl _))
        rw [← List.map_append, ← List.map_append]
        refine .classBody hfrom hmark ?_
        rcases hsuperclass with rfl | ⟨n, rfl, hn⟩
        · rw [List.append_nil]
          exact hall.lieTurned
        · exact hall.turn (hn.mono (Nat.le_refl _) hle)
      refine .andThen fun _ => .ite ?_ ?_
      · refine .lastStartAny fun _ _ => .andThen fun _ => hg.leftHand.thenHead fun h' _ hh' _ => ?_
        refine .andThen fun _ => (twin_classBody hg).thenNodes fun h'' members hh'' hmembers => ?_
        exact .andThen fun _ => hbody hh' hh'' hmembers
      · refine .andThen fun _ => (twin_classBody hg).thenNodes fun h'' members hh'' hmembers => ?_
        exact .andThen fun _ => hbody (Nat.le_refl _) hh'' hmembers
    refine .ite (hg.leftHand.thenHead fun h' n hh' hn => .pureThen ?_)
      (.pureThen (hothers h [] hh hname (.inl rfl)))
    exact hothers h' [n] (Nat.le_trans hh hh') (hname.mono (Nat.le_refl _) hh')
      (.inr ⟨n, rfl, hn.toLies.mono hh (Nat.le_refl _)⟩)
  refine .ite (twin_bindingIdentifier.thenNode fun h' id hh' hid => .pureThen ?_)
    (.pureThen (hrest h [] hh (.nil hh)))
  exact hrest h' [id] (Nat.le_trans hh hh') (hid.mono hh (Nat.le_refl _)).lieIn

end

end Bindle.Script.Grammar
