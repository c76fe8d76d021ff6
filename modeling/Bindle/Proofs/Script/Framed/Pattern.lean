import Bindle.Proofs.Script.Framed.Trees
import Bindle.Script.Grammar.Module

/-!
# Names and patterns have twins

Every rule of a grammar has its twin in another grammar when the rules that it refers to have.  A
proof follows its rule step by step; the bounds of what was read become those of the node.

A pattern that an expression turns into has its calls where the expression has them.
-/

namespace Bindle.Script.Grammar

open Parse Script.Frame

variable {w : Frame} {g g' : Grammar} {lo l : Nat}

/-! ## names -/

instance (name : String) (i i' : Nat) :
    w.Steps (reportReserved name i) (reportReserved name i') := by
  unfold reportReserved
  infer_instance

theorem twin_identifier {yieldToo awaitToo : Bool} :
    w.Sim lo l (w.Heads lo) (identifier yieldToo awaitToo) (identifier yieldToo awaitToo) := by
  refine ⟨fun s s' hs => .token hs fun stop remarks => .token hs fun stop' remarks' => ?_⟩
  rw [kind_token]
  cases hkind : s.token.kind with
  | word name =>
    refine .advanceThen hs (by rw [hkind]; rfl) fun h hstart hl hpos => ?_
    refine .andThen fun _ => .andThen fun c => ?_
    extract_lets done done'
    have hdone : ∀ u, w.Sim h h (w.Heads lo) (done u) (done' u) :=
      fun _ => .head rfl hs.lo_le hs.fine.start (.nil hstart)
    repeat' refine .ite ?_ ?_
    all_goals first | exact .andThen fun u => hdone u | exact hdone ()
  | _ => exact .of_stops hs .failHere

theorem twin_reference : w.Sim lo l (w.Heads lo) reference reference :=
  .andThen fun _ => twin_identifier

instance : w.Steps propertyWord propertyWord := by
  refine ⟨fun lo l => ⟨fun s s' hs => .token hs fun stop remarks => ?_⟩⟩
  rw [kind_token]
  cases hkind : s.token.kind with
  | word name => exact .advanceThen hs (by rw [hkind]; rfl) fun h _ _ _ => .pure fun _ _ => rfl
  | _ => exact .of_stops hs .failHere

theorem twin_bindingIdentifier {refuseLet : Bool} :
    w.Sim lo l (w.Reads l) (bindingIdentifier refuseLet) (bindingIdentifier refuseLet) := by
  refine .andThen fun _ => .ite (.of_stops .unexpected) ?_
  refine twin_identifier.heads.thenHead fun h id hl hid => .andThen fun c => ?_
  rw [kind_node]
  have hreturn : w.Sim h h (w.Reads l) (pure id) (pure (w.node id)) :=
    .pure fun hi hhi => ⟨rfl, hid.toLies.mono (Nat.le_refl _) hhi⟩
  split
  · repeat' first | exact hreturn | refine .ite ?_ ?_ | refine .andThen fun _ => ?_
  · exact hreturn

/-- the current token is the hash -/
theorem twinAt_privateName {s s' : State} (hs : w.Meets lo l s s')
    (hkind : s.token.kind = .symbol .hash) :
    w.SimAt (w.Heads lo) s s' privateName privateName := by
  refine .token hs fun stop remarks => .advanceThen hs (by rw [hkind]; rfl) fun h hstart hl hpos =>
    .token fun t stop' remarks' _ hht _ => .lastStop fun i hi => ?_
  have hnear : (w.token t stop' remarks').start ≠ w.stop i ↔ t.start ≠ i := by
    rw [stop_of_pos (Nat.lt_of_lt_of_le hpos hi)]
    exact not_congr Nat.add_right_cancel_iff
  extract_lets name name'
  have hname : ∀ u, w.Sim i i (w.Heads lo) (name u) (name' u) := by
    intro u
    refine .andThen fun name => .head rfl hs.lo_le hs.fine.start (.nil ?_)
    exact Nat.le_trans hstart hi
  exact .iteOf hnear (.andThen fun u => hname u) (hname ())

theorem twin_memberName : w.Sim lo l (w.Reads l) memberName memberName := by
  refine ⟨fun s s' hs => .atSymbol hs (fun hkind => ?_) ?_⟩
  · exact (twinAt_privateName hs.behind hkind).mono fun t n n' _ hn => ⟨hn.1, hn.2.toLies⟩
  · refine Sim.simAt (.token fun t stop remarks _ _ _ => ?_) s s' hs
    exact .andThen fun name => .node rfl (.nil (Nat.le_refl _))

/-! ## expressions that become patterns -/

theorem notes_checkTarget (n : Node) : w.Notes Eq (checkTarget n) (checkTarget (w.node n)) :=
  Notes.scope.andThen fun c => .iteOf (by simp) (.report ..) (.pure rfl)

/-- a tree with the calls of another one, or some of them -/
def Becomes (w : Frame) (source : Node) (n n' : Node) : Prop :=
  n' = w.node n ∧ ∀ lo hi, source.Lies w.Mark lo hi → n.Lies w.Mark lo hi

def BecomeAll (w : Frame) (sources : List Node) (ns ns' : List Node) : Prop :=
  ns' = ns.map w.node ∧ ∀ lo hi, Node.LieIn w.Mark lo hi sources → Node.LieIn w.Mark lo hi ns

theorem Becomes.refl (n : Node) : Becomes w n n (w.node n) := ⟨rfl, fun _ _ h => h⟩

theorem notes_refusePattern (n : Node) : w.Notes (Becomes w n) (refusePattern n.start n.stop)
    (refusePattern (w.node n).start (w.node n).stop) := by
  refine (Notes.report ..).andThen fun _ => .pure ⟨?_, fun lo hi h => ?_⟩
  · rw [node_mk, start_node, stop_node, List.map_nil]
  · exact (Node.lies_mk rfl ..).mpr (.nil h.le)

theorem lookup_trailing {commas commas' : List (Nat × Nat)}
    (h : commas'.map Prod.fst = commas.map fun comma => comma.1 + w.before) (start : Nat) :
    SamePlaces (commas.lookup start) (commas'.lookup (start + w.before)) := by
  induction commas generalizing commas' with
  | nil =>
    rw [List.map_nil, List.map_eq_nil_iff] at h
    rw [h]
    exact .none
  | cons comma commas ih =>
    obtain ⟨comma', rest, rfl, hcomma, hrest⟩ := List.map_eq_cons_iff.mp h
    obtain ⟨at_, offset⟩ := comma
    obtain ⟨at', offset'⟩ := comma'
    obtain rfl : at' = at_ + w.before := hcomma
    by_cases hstart : start = at_
    · subst hstart
      rw [List.lookup_cons_self, List.lookup_cons_self]
      exact .some trivial
    · have hstart' : ¬start + w.before = at_ + w.before :=
        fun heq => hstart (Nat.add_right_cancel heq)
      rw [List.lookup_cons, List.lookup_cons, beq_eq_false_iff_ne.mpr hstart,
        beq_eq_false_iff_ne.mpr hstart']
      exact ih hrest

theorem notes_trailingComma? (start : Nat) :
    w.Notes SamePlaces (trailingComma? start) (trailingComma? (start + w.before)) :=
  ⟨fun _ _ hs => .inr ⟨_, [], [], _, rfl, lookup_trailing hs.trailingCommas start, fun _ =>
    ⟨[], rfl, id⟩⟩⟩

theorem notes_reportTrailing (start : Nat) :
    w.Notes Eq (reportTrailing start) (reportTrailing (start + w.before)) := by
  refine (notes_trailingComma? start).bind fun r r' hr => ?_
  cases hr with
  | none => exact .pure rfl
  | some _ => exact .report ..

/-- what becomes of an expression without a form of its own -/
def otherAsPattern (use : PatternUse) (n : Node) : Parse Node := do
  match use with
  | .assignment => do
    checkTarget n
    return n
  | .assignmentElement => do
    if isPlainElement n.kind then
      if !(n.isTarget (← scope).strict) then report .notSimpleTarget n.start
      return n
    else refusePattern n.start n.stop
  | _ => refusePattern n.start n.stop

theorem asPattern_other {use : PatternUse} {n : Node} (harray : n.kind ≠ .array)
    (hobject : n.kind ≠ .object) (hname : ∀ name, n.kind ≠ .identifier name)
    (hplain : n.kind ≠ .assignment true) : asPattern use n = otherAsPattern use n := by
  unfold asPattern
  split
  · exact absurd rfl harray
  · exact absurd rfl hobject
  · exact absurd rfl (hname _)
  · exact absurd rfl hplain
  · cases use <;> rfl

theorem notes_otherAsPattern (use : PatternUse) (n : Node) :
    w.Notes (Becomes w n) (otherAsPattern use n) (otherAsPattern use (w.node n)) := by
  have hreturn : w.Notes (Becomes w n) (pure n) (pure (w.node n)) := .pure (.refl n)
  cases use with
  | assignment => exact (notes_checkTarget n).andThen fun _ => hreturn
  | assignmentElement =>
    refine .iteOf (by simp) (Notes.scope.andThen fun c => ?_) (notes_refusePattern n)
    exact .iteOf (by simp) ((Notes.report ..).andThen fun _ => hreturn) hreturn
  | binding => exact notes_refusePattern n
  | bindingElement => exact notes_refusePattern n

theorem notes_identifierAsPattern (use : PatternUse) (name : String) (start stop : Nat)
    (parts : List Node) :
    w.Notes (Becomes w (.mk (.identifier name) start stop parts))
      (asPattern use (.mk (.identifier name) start stop parts))
      (asPattern use (w.node (.mk (.identifier name) start stop parts))) := by
  have hreturn :=
    Notes.pure (w := w) (Becomes.refl (w := w) (.mk (.identifier name) start stop parts))
  have hcheck := notes_checkTarget (w := w) (.mk (.identifier name) start stop parts)
  rw [node_mk] at hreturn hcheck ⊢
  cases use with
  | assignment =>
    rw [asPattern, asPattern]
    exact hcheck.andThen fun _ => hreturn
  | assignmentElement =>
    rw [asPattern, asPattern]
    exact Notes.scope.andThen fun c =>
      .ite ((Notes.report ..).andThen fun _ => hreturn) hreturn
  | binding =>
    rw [asPattern, asPattern]
    · exact hreturn
    all_goals simp
  | bindingElement =>
    rw [asPattern, asPattern]
    · exact hreturn
    all_goals simp

theorem notes_assignmentAsPattern (use : PatternUse) (start stop : Nat) (parts : List Node) :
    w.Notes (Becomes w (.mk (.assignment true) start stop parts))
      (asPattern use (.mk (.assignment true) start stop parts))
      (asPattern use (w.node (.mk (.assignment true) start stop parts))) := by
  have hcheck := notes_checkTarget (w := w) (.mk (.assignment true) start stop parts)
  have hreturn :=
    Notes.pure (w := w) (Becomes.refl (w := w) (.mk (.assignment true) start stop parts))
  have hdefault : Becomes w (.mk (.assignment true) start stop parts)
      (.mk .withDefault start stop parts)
      (.mk .withDefault (start + w.before) (w.stop stop) (parts.map w.node)) :=
    ⟨(node_mk ..).symm, fun lo hi h => (Node.lies_mk rfl ..).mpr ((Node.lies_mk rfl ..).mp h)⟩
  rw [node_mk] at hreturn hcheck ⊢
  cases use with
  | assignment =>
    rw [asPattern, asPattern]
    exact hcheck.andThen fun _ => hreturn
  | _ =>
    rw [asPattern, asPattern]
    · exact .pure hdefault
    all_goals simp

theorem eq_mk_of_node {n : Node} {kind : Kind} {start stop : Nat} {parts : List Node}
    (h : w.node n = .mk kind start stop parts) :
    ∃ start stop parts', n = .mk kind start stop parts' ∧ parts = parts'.map w.node := by
  obtain ⟨kind', start', stop', parts'⟩ := n
  rw [node_mk] at h
  injection h with hkind _ _ hparts
  exact ⟨start', stop', parts', by rw [hkind], hparts.symm⟩

/-- an element that is spread is so on both sides -/
theorem not_spread_node {n : Node}
    (h : ∀ start stop inner, n ≠ .mk .spread start stop [inner]) :
    ∀ start stop inner, w.node n ≠ .mk .spread start stop [inner] := by
  intro start stop inner heq
  obtain ⟨start', stop', parts, rfl, hparts⟩ := eq_mk_of_node heq
  obtain ⟨inner', rfl, -⟩ := List.map_eq_singleton_iff.mp hparts.symm
  exact h start' stop' inner' rfl

theorem length_holes_map (parts : List Node) :
    ((parts.map w.node).reverse.takeWhile (·.kind = .hole)).length =
      (parts.reverse.takeWhile (·.kind = .hole)).length := by
  rw [← List.map_reverse, List.takeWhile_map, List.length_map]
  simp only [Function.comp_def, kind_node]

theorem BecomeAll.refl (ns : List Node) : BecomeAll w ns ns (ns.map w.node) := ⟨rfl, fun _ _ h => h⟩

theorem BecomeAll.nil (sources : List Node) : BecomeAll w sources [] [] :=
  ⟨rfl, fun _ _ h => .nil h.le⟩

/-- the first of the trees becomes one, and the others become others -/
theorem BecomeAll.cons {n p p' : Node} {ns ps ps' : List Node} (hp : Becomes w n p p')
    (hps : BecomeAll w ns ps ps') : BecomeAll w (n :: ns) (p :: ps) (p' :: ps') := by
  refine ⟨by rw [hp.1, hps.1, List.map_cons], fun lo hi h => ?_⟩
  obtain ⟨mid, hn, hns⟩ := Node.lieIn_cons.mp h
  exact .cons (hp.2 lo mid hn) (hps.2 mid hi hns)

/-- a tree that is not taken over -/
theorem BecomeAll.skip {n : Node} {ns ps ps' : List Node} (hps : BecomeAll w ns ps ps') :
    BecomeAll w (n :: ns) ps ps' := by
  refine ⟨hps.1, fun lo hi h => ?_⟩
  obtain ⟨mid, hn, hns⟩ := Node.lieIn_cons.mp h
  exact (hps.2 mid hi hns).mono hn.le (Nat.le_refl hi)

/-- the first tree alone -/
theorem BecomeAll.single {n p p' : Node} {ns : List Node} (hp : Becomes w n p p') :
    BecomeAll w (n :: ns) [p] [p'] := .cons hp (.nil ns)

/-- around a part that became another one -/
theorem Becomes.around {kind kind' : Kind} {start stop : Nat} {inner p p' : Node}
    (hkind : kind.isPlain = true) (hkind' : kind'.isPlain = true) (hp : Becomes w inner p p') :
    Becomes w (.mk kind start stop [inner]) (.mk kind' start stop [p])
      (.mk kind' (start + w.before) (w.stop stop) [p']) := by
  refine ⟨by rw [node_mk, hp.1]; rfl, fun lo hi h => ?_⟩
  rw [Node.lies_mk hkind] at h
  rw [Node.lies_mk hkind']
  have hall : BecomeAll w [inner] [p] [p'] := .single hp
  exact hall.2 lo hi h

/-- parts that became others, in another node -/
theorem Becomes.ofAll {kind kind' : Kind} {start stop : Nat} {parts ps ps' : List Node}
    (hkind : kind.isPlain = true) (hkind' : kind'.isPlain = true) (hps : BecomeAll w parts ps ps') :
    Becomes w (.mk kind start stop parts) (.mk kind' start stop ps)
      (.mk kind' (start + w.before) (w.stop stop) ps') := by
  refine ⟨by rw [node_mk, hps.1], fun lo hi h => ?_⟩
  rw [Node.lies_mk hkind] at h
  rw [Node.lies_mk hkind']
  exact hps.2 lo hi h

mutual

theorem notes_asPattern (use : PatternUse) (n : Node) :
    w.Notes (Becomes w n) (asPattern use n) (asPattern use (w.node n)) := by
  obtain ⟨kind, start, stop, parts⟩ := n
  by_cases harray : kind = .array
  · subst harray
    rw [node_mk, asPattern, asPattern, length_holes_map, List.length_map]
    refine (notes_arrayAsPattern ..).bind fun elements elements' h => .pure ?_
    exact .ofAll rfl rfl h
  by_cases hobject : kind = .object
  · subst hobject
    rw [node_mk, asPattern, asPattern]
    refine (notes_objectAsPattern ..).bind fun members members' h => .pure ?_
    exact .ofAll rfl rfl h
  by_cases hname : ∃ name, kind = .identifier name
  · obtain ⟨name, rfl⟩ := hname
    exact notes_identifierAsPattern use name start stop parts
  by_cases hplain : kind = .assignment true
  · subst hplain
    exact notes_assignmentAsPattern use start stop parts
  · have hname : ∀ name, kind ≠ .identifier name := not_exists.mp hname
    have hkind := kind_node (w := w) (.mk kind start stop parts)
    rw [asPattern_other (n := .mk kind start stop parts) harray hobject hname hplain,
      asPattern_other (n := w.node _) (by rwa [hkind]) (by rwa [hkind]) (by rwa [hkind])
        (by rwa [hkind])]
    exact notes_otherAsPattern use _
termination_by sizeOf n

theorem notes_arrayAsPattern (use : PatternUse) (literal before : Nat) (withLast : Bool)
    (ns : List Node) :
    w.Notes (BecomeAll w ns) (arrayAsPattern use literal before withLast ns)
      (arrayAsPattern use (literal + w.before) before withLast (ns.map w.node)) := by
  cases ns with
  | nil =>
    rw [List.map_nil, arrayAsPattern, arrayAsPattern]
    exact .pure (.nil [])
  | cons n ps =>
    have hothers := fun k => notes_arrayAsPattern use literal k withLast ps
    rw [List.map_cons]
    by_cases hspread : ∃ start stop inner, n = .mk .spread start stop [inner]
    · obtain ⟨start, stop, inner, rfl⟩ := hspread
      rw [node_mk, List.map_cons, List.map_nil]
      cases before with
      | zero =>
        rw [arrayAsPattern, arrayAsPattern, kind_node]
        refine .ite (.pure (.nil _)) ?_
        extract_lets rest rest'
        have hrest : ∀ u, w.Notes (BecomeAll w (.mk .spread start stop [inner] :: ps)) (rest u)
            (rest' u) := by
          intro u
          refine (notes_reportTrailing literal).andThen fun _ => ?_
          refine (notes_asPattern use inner).bind fun p p' hp => .pure ?_
          exact .single (.around rfl rfl hp)
        split
        · exact (Notes.report ..).andThen fun u => hrest u
        · exact hrest ()
      | succ k =>
        rw [arrayAsPattern, arrayAsPattern]
        exact (Notes.report ..).andThen fun _ => (hothers k).mono fun _ _ h => h.skip
    · have hleft : ∀ start stop inner, n ≠ .mk .spread start stop [inner] :=
        fun start stop inner heq => hspread ⟨start, stop, inner, heq⟩
      have hright := not_spread_node (w := w) hleft
      cases before with
      | zero =>
        rw [arrayAsPattern.eq_4 _ _ _ _ _ hleft, arrayAsPattern.eq_4 _ _ _ _ _ hright]
        refine .iteOf (by simp) (.pure (.nil _)) (.iteOf (by simp) (.pure (.single (.refl n))) ?_)
        exact (notes_asPattern use n).bind fun p p' hp => .pure (.single hp)
      | succ k =>
        rw [arrayAsPattern.eq_5 _ _ _ _ _ _ hleft, arrayAsPattern.eq_5 _ _ _ _ _ _ hright]
        have hnext : ∀ p p', Becomes w n p p' → w.Notes (BecomeAll w (n :: ps))
            (arrayAsPattern use literal k withLast ps >>= fun qs => pure (p :: qs))
            (arrayAsPattern use (literal + w.before) k withLast (ps.map w.node) >>= fun qs =>
              pure (p' :: qs)) :=
          fun p p' hp => (hothers k).bind fun qs qs' hqs => .pure (.cons hp hqs)
        exact .iteOf (by simp) ((Notes.pure (.refl n)).bind hnext)
          ((notes_asPattern use n).bind hnext)
termination_by sizeOf ns

theorem notes_objectAsPattern (use : PatternUse) (literal : Nat) (ns : List Node) :
    w.Notes (BecomeAll w ns) (objectAsPattern use literal ns)
      (objectAsPattern use (literal + w.before) (ns.map w.node)) := by
  cases ns with
  | nil =>
    rw [List.map_nil, objectAsPattern, objectAsPattern]
    exact .pure (.nil [])
  | cons n ps =>
    have hothers := notes_objectAsPattern use literal ps
    rw [List.map_cons]
    by_cases hspread : ∃ start stop inner, n = .mk .spread start stop [inner]
    · obtain ⟨start, stop, inner, rfl⟩ := hspread
      rw [node_mk, List.map_cons, List.map_nil, objectAsPattern, objectAsPattern]
      refine .iteOf (by simp) ((notes_reportTrailing literal).andThen fun _ => ?_)
        ((Notes.report ..).andThen fun _ => ?_)
      all_goals
        dsimp -zeta -zetaHave only
        extract_lets member member'
        have hmember : ∀ p p', Becomes w inner p p' →
            w.Notes (BecomeAll w (.mk .spread start stop [inner] :: ps)) (member p)
              (member' p') := by
          rintro p _ ⟨rfl, hcalls⟩
          have hnext : w.Notes (BecomeAll w (.mk .spread start stop [inner] :: ps))
              (objectAsPattern use literal ps >>= fun qs => pure (.mk .rest start stop [p] :: qs))
              (objectAsPattern use (literal + w.before) (ps.map w.node) >>= fun qs =>
                pure (.mk .rest (start + w.before) (w.stop stop) [w.node p] :: qs)) :=
            hothers.bind fun qs qs' hqs =>
              .pure (.cons (.around rfl rfl ⟨rfl, hcalls⟩) hqs)
          exact .iteOf (by simp) ((Notes.report ..).andThen fun _ => hnext) hnext
        refine .iteOf (by simp) (.iteOf (by simp) ((Notes.pure (.refl inner)).bind hmember) ?_)
          ((notes_asPattern use inner).bind hmember)
        refine (Notes.report ..).andThen fun _ => (Notes.pure ?_).bind hmember
        exact ⟨(node_mk .invalid start stop []).symm, fun lo hi h =>
          (Node.lies_mk rfl ..).mpr (.nil h.le)⟩
    by_cases hkeyed : ∃ start stop key value, n = .mk .keyed start stop [key, value]
    · obtain ⟨start, stop, key, value, rfl⟩ := hkeyed
      rw [node_mk, List.map_cons, List.map_cons, List.map_nil, objectAsPattern, objectAsPattern]
      refine (notes_asPattern use value).bind fun p p' hp => hothers.bind fun qs qs' hqs => ?_
      exact .pure (.cons (.ofAll rfl rfl (.cons (.refl key) (.single hp))) hqs)
    by_cases hshorthand : ∃ name start stop parts, n = .mk (.shorthand name) start stop parts
    · obtain ⟨name, start, stop, parts, rfl⟩ := hshorthand
      rw [node_mk, objectAsPattern, objectAsPattern]
      exact hothers.bind fun qs qs' hqs => .pure (.cons (.ofAll rfl rfl (.refl parts)) hqs)
    by_cases hinitialized : ∃ name start stop parts, n = .mk (.initialized name) start stop parts
    · obtain ⟨name, start, stop, parts, rfl⟩ := hinitialized
      rw [node_mk, objectAsPattern, objectAsPattern]
      exact hothers.bind fun qs qs' hqs => .pure (.cons (.ofAll rfl rfl (.refl parts)) hqs)
    · rw [objectAsPattern.eq_6 _ _ _ _ (fun start stop inner h => hspread ⟨start, stop, inner, h⟩)
        (fun start stop key value h => hkeyed ⟨start, stop, key, value, h⟩)
        (fun name start stop parts h => hshorthand ⟨name, start, stop, parts, h⟩)
        (fun name start stop parts h => hinitialized ⟨name, start, stop, parts, h⟩)]
      exact .of_stops .fail
termination_by sizeOf ns

end

mutual

theorem notes_checkNames (n : Node) : w.Notes Eq (checkNames n) (checkNames (w.node n)) := by
  obtain ⟨kind, start, stop, parts⟩ := n
  rw [node_mk]
  cases kind with
  | identifier name =>
    rw [checkNames, checkNames]
    exact .ite (.reportStrict ..) (.pure rfl)
  | boundName name =>
    rw [checkNames, checkNames]
    exact .ite (.reportStrict ..) (.pure rfl)
  | arrayPattern =>
    rw [checkNames, checkNames]
    exact notes_checkNamesOf parts
  | objectPattern =>
    rw [checkNames, checkNames]
    exact notes_checkNamesOf parts
  | rest =>
    rw [checkNames, checkNames]
    exact notes_checkNamesOf parts
  | withDefault =>
    cases parts with
    | nil => exact .pure rfl
    | cons left others =>
      rw [List.map_cons, checkNames, checkNames]
      exact notes_checkNames left
  | keyed =>
    cases parts with
    | nil => exact .pure rfl
    | cons key others =>
      cases others with
      | nil => exact .pure rfl
      | cons value others =>
        cases others with
        | nil =>
          rw [List.map_cons, List.map_cons, List.map_nil, checkNames, checkNames]
          exact notes_checkNames value
        | cons _ _ => exact .pure rfl
  | _ => exact .pure rfl

theorem notes_checkNamesOf (ns : List Node) :
    w.Notes Eq (checkNamesOf ns) (checkNamesOf (ns.map w.node)) := by
  cases ns with
  | nil => exact .pure rfl
  | cons n ns =>
    rw [List.map_cons, checkNamesOf, checkNamesOf]
    exact (notes_checkNames n).andThen fun _ => notes_checkNamesOf ns

end

/-! ## patterns in declarations -/

/-- members and the place of a comma -/
def ReadsMembers (w : Frame) (lo hi : Nat) (r r' : List Node × Option Nat) : Prop :=
  w.ReadsAll lo hi r.1 r'.1 ∧ SamePlaces r.2 r'.2

theorem twin_braced {member member' : Parse Node}
    (hmember : ∀ {lo l}, w.Sim lo l (w.Reads l) member member') :
    w.Sim lo l (ReadsMembers w lo) (braced member) (braced member') := by
  refine .expect fun h hlo _ _ => .bind (.iterateTreesWith hlo .none fun h acc c c' _ hacc hc => ?_)
    fun h acc acc' _ hacc => .pure fun hi hhi => ⟨(hacc.1.mono hhi).reverse, hacc.2⟩
  refine .andThen fun _ => .ite (.pure fun _ _ => .none) ?_
  refine hmember.thenNode fun h' m _ hm => .andThen fun _ => ?_
  have hnext : ∀ {c c' : Option Nat}, SamePlaces c c' → w.Sim h' h' (fun hi =>
      Option.Rel (w.StacksWith SamePlaces lo hi)) (pure (some (m :: acc, c)))
        (pure (some (w.node m :: acc.map w.node, c'))) :=
    fun hc => .pure fun hi hhi => .some ⟨(Stacks.push ⟨rfl, hacc⟩ hm).mono hhi, hc⟩
  refine .ite (hnext .none) (.andThen fun _ => .andThen fun _ => .ite ?_ (hnext .none))
  exact .lastStartAny fun i i' => hnext (.some trivial)

theorem notes_checkRests {comma comma' : Option Nat} (hcomma : SamePlaces comma comma')
    (members : List Node) :
    w.Notes Eq (checkRests comma members) (checkRests comma' (members.map w.node)) := by
  induction members with
  | nil => exact .pure rfl
  | cons p ps ih =>
    cases ps with
    | nil =>
      refine .iteOf (by simp) (.iteOf (by simp) ?_ (.of_stops .fail)) (.pure rfl)
      cases hcomma with
      | none => exact .pure rfl
      | some _ => exact .report ..
    | cons q qs => exact .iteOf (by simp) ((Notes.report ..).andThen fun _ => ih) ih

section

variable (hg : g.Twins w g')

include hg

theorem twin_bindingElement : w.Sim lo l (w.Reads l) (bindingElement g) (bindingElement g') := by
  refine hg.binding.thenNode fun h left _ hleft => .andThen fun _ => .ite ?_ ?_
  · refine hg.assignment.includingIn.thenNode fun h' value _ hvalue => ?_
    rw [start_node]
    exact .node rfl (.cons hleft hvalue.lieIn)
  · exact .pure fun hi hhi => ⟨rfl, hleft.mono (Nat.le_refl _) hhi⟩

theorem twin_arrayBinding : w.Sim lo l (w.Reads l) (arrayBinding g) (arrayBinding g') := by
  refine .token fun t stop remarks _ _ _ => .expect fun h _ hl _ => ?_
  refine .bind (.iterateTreesWith (T := SamePlaces) hl .none fun h acc c c' _ hacc hc => ?_)
    fun h acc acc' _ hacc => ?_
  · have hstay : ∀ {h' : Nat}, h ≤ h' → w.Sim h' h' (fun hi =>
        Option.Rel (w.StacksWith SamePlaces l hi)) (pure (some (acc, c)))
          (pure (some (acc.map w.node, c'))) :=
      fun hh => .pure fun hi hhi =>
        .some ⟨⟨rfl, hacc.mono (Nat.le_refl _) (Nat.le_trans hh hhi)⟩, hc⟩
    refine .andThen fun _ => .ite (.pure fun _ _ => .none) (.ifEat (fun h' _ hh _ => hstay hh) ?_)
    extract_lets element element'
    have helement : ∀ u, w.Sim h h (fun hi => Option.Rel (w.StacksWith SamePlaces l hi))
        (element u) (element' u) := by
      intro u
      refine .token fun t stop remarks _ _ _ => .andThen fun isRest => ?_
      extract_lets close close'
      have hclose : ∀ h' n, h ≤ h' → n.Lies w.Mark h h' →
          w.Sim h' h' (fun hi => Option.Rel (w.StacksWith SamePlaces l hi)) (close n)
            (close' (w.node n)) := by
        intro h' n _ hn
        have hnext : ∀ {c c' : Option Nat}, SamePlaces c c' → w.Sim h' h' (fun hi =>
            Option.Rel (w.StacksWith SamePlaces l hi)) (pure (some (n :: acc, c)))
              (pure (some (w.node n :: acc.map w.node, c'))) :=
          fun hc => .pure fun hi hhi => .some ⟨(Stacks.push ⟨rfl, hacc⟩ hn).mono hhi, hc⟩
        have hrest : SamePlaces (if isRest = true then some t.start else c)
            (if isRest = true then some (w.token t stop remarks).start else c') := by
          cases isRest with
          | true => exact .some trivial
          | false => exact hc
        refine .andThen fun _ => .ite (.andThen fun _ => .andThen fun _ => .ite ?_ (hnext hrest))
          (hnext hrest)
        exact .lastStartAny fun _ _ => .andThen fun _ => hnext hrest
      refine .ite (hg.binding.thenNode fun h' inner hh hinner => ?_) ?_
      · exact Sim.thenNode (.node rfl hinner.lieIn) fun h'' n hh' hn =>
          hclose h'' n (Nat.le_trans hh hh') hn
      · exact (twin_bindingElement hg).thenNode hclose
    cases hc with
    | none => exact helement ()
    | some _ => exact .andThen fun u => helement u
  · refine .andThen fun _ => ?_
    rw [hacc.1.1, ← List.map_reverse]
    exact .node rfl hacc.1.2

/-- a key in an object, a class or a pattern -/
theorem twin_propertyName : w.Sim lo l (w.Reads l) (propertyName g) (propertyName g') := by
  refine ⟨fun s s' hs => .refuseInvalid hs fun hvalid => .token hs fun stop remarks => ?_⟩
  rw [kind_token]
  rcases kind_cases (w := w) s.token.kind with hsame | ⟨part, bad, htemplate⟩ | ⟨fault, hfault⟩
  · rw [hsame]
    split
    · rename_i raw hkind
      exact .advanceThen hs (by rw [hkind]; rfl) fun h _ hl _ => .node rfl (.nil hl)
    · rename_i raw hkind
      exact .advanceThen hs (by rw [hkind]; rfl) fun h _ hl _ => .node rfl (.nil hl)
    · rename_i raw hkind
      exact .advanceThen hs (by rw [hkind]; rfl) fun h _ hl _ => .node rfl (.nil hl)
    · rename_i name hkind
      exact .advanceThen hs (by rw [hkind]; rfl) fun h _ hl _ => .node rfl (.nil hl)
    · rename_i hkind
      refine .advanceThen hs (by rw [hkind]; rfl) fun h _ hl _ => ?_
      refine hg.assignment.includingIn.thenNode fun h' inner _ hinner => .andThen fun _ => ?_
      exact .node rfl (hinner.mono hl (Nat.le_refl _)).lieIn
    · exact .of_stops hs .unexpected
  · rw [htemplate]
    exact .of_stops hs .unexpected
  · exact absurd hfault (hvalid fault)

theorem twin_bindingProperty : w.Sim lo l (w.Reads l) (bindingProperty g) (bindingProperty g') := by
  refine .token fun t stop remarks _ _ _ => .ifEat (fun h _ hl _ => ?_) ?_
  · refine hg.binding.thenNode fun h' inner _ hinner => ?_
    exact .node rfl (hinner.mono hl (Nat.le_refl _)).lieIn
  · refine (twin_propertyName hg).thenNode fun h key _ hkey => .andThen fun _ => .ite ?_ ?_
    · refine (twin_bindingElement hg).thenNode fun h' value _ hvalue => ?_
      exact .node rfl (.cons hkey hvalue.lieIn)
    · rw [kind_node]
      split
      · refine .andThen fun _ => .ite ?_ ?_
        · refine hg.assignment.includingIn.thenNode fun h' value _ hvalue => ?_
          exact .node rfl (hvalue.mono hkey.le (Nat.le_refl _)).lieIn
        · exact .andThen fun c => .ite (.andThen fun _ => .node rfl (.nil hkey.le))
            (.node rfl (.nil hkey.le))
      · exact .of_stops .unexpected

theorem twin_objectBinding : w.Sim lo l (w.Reads l) (objectBinding g) (objectBinding g') := by
  refine .token fun t stop remarks _ hl _ => (twin_braced (twin_bindingProperty hg)).bind ?_
  rintro h ⟨members, comma⟩ ⟨_, comma'⟩ _ ⟨⟨rfl, hmembers⟩, hcomma⟩
  have hchecks : w.Steps (checkRests comma members) (checkRests comma' (members.map w.node)) :=
    .of_notes (notes_checkRests hcomma members)
  exact .andThen fun _ => .node rfl (hmembers.mono hl (Nat.le_refl _))

theorem twin_bindingPattern {refuseLet : Bool} :
    w.Sim lo l (w.Reads l) (bindingPattern g refuseLet) (bindingPattern g' refuseLet) := by
  refine .refuseInvalid (.token fun t stop remarks _ _ _ => ?_)
  rw [kind_token]
  rcases kind_cases (w := w) t.kind with hsame | ⟨part, bad, htemplate⟩ | ⟨fault, hfault⟩
  · rw [hsame]
    split
    · exact twin_bindingIdentifier
    · exact twin_arrayBinding hg
    · exact twin_objectBinding hg
    · exact .of_stops .unexpected
  · rw [htemplate]
    exact .of_stops .unexpected
  · rw [hfault]
    exact .of_stops .unexpected

end

end Bindle.Script.Grammar
