import Bindle.Proofs.Script.Steps

/-!
# Names and patterns keep the account

Every rule of a grammar keeps the account of strings when the rules that it refers to do.  A proof
follows its rule step by step; `grind` compares what a node weighs with what its parts weigh.

A pattern that an expression turns into has at most the strings of the expression.
-/

namespace Bindle.Script.Grammar

open Parse Probe

variable {v : Probe} {g : Grammar} (hg : g.Reads v)

/-! ## names -/

instance (name : String) (offset : Nat) : v.Quiet (reportReserved name offset) := by
  unfold reportReserved
  infer_instance

theorem reads_identifier {yieldToo awaitToo : Bool} :
    v.Reads 0 (identifier yieldToo awaitToo) v.weigh := by
  refine .andThen fun _ => .andThen fun t => ?_
  split
  · refine .andThen fun _ => .andThen fun _ => .andThen fun c => ?_
    extract_lets done
    have hdone : ∀ u, v.Reads 0 (done u) v.weigh := fun _ => .node (by grind) rfl
    repeat' refine .ite ?_ ?_
    all_goals first | exact .andThen fun u => hdone u | exact hdone ()
  · exact .failHere

theorem reads_reference : v.Reads 0 reference v.weigh :=
  .andThen fun _ => reads_identifier

instance : v.Quiet propertyWord := by
  refine ⟨.andThen fun t => ?_⟩
  split
  · exact .andThen fun _ => .pure (by grind)
  · exact .failHere

theorem reads_bindingIdentifier {refuseLet : Bool} :
    v.Reads 0 (bindingIdentifier refuseLet) v.weigh := by
  refine .andThen fun _ => .ite .unexpected ?_
  refine reads_identifier.bind fun id => .andThen fun c => ?_
  split
  · repeat' first | exact .pure (by grind) | refine .ite ?_ ?_ | refine .andThen fun _ => ?_
  · exact .pure (by grind)

theorem reads_privateName : v.Reads 0 privateName v.weigh := by
  refine .andThen fun _ => .andThen fun _ => .andThen fun _ => .andThen fun _ => ?_
  refine .ite (.andThen fun _ => ?_) ?_
  all_goals exact .andThen fun _ => .node (by grind) rfl

theorem reads_memberName : v.Reads 0 memberName v.weigh :=
  .andThen fun _ => .ite reads_privateName (.andThen fun _ => .andThen fun _ =>
    .node (by grind) rfl)

/-! ## expressions that become patterns -/

instance (n : Node) : v.Quiet (checkTarget n) := by unfold checkTarget; infer_instance

theorem reads_refusePattern (start stop : Nat) : v.Reads 0 (refusePattern start stop) v.weigh :=
  .andThen fun _ => .pure (by grind)

instance (start : Nat) : v.Quiet (trailingComma? start) := by unfold trailingComma?; infer_instance

instance (start : Nat) : v.Quiet (reportTrailing start) := by
  refine ⟨.andThen fun r => ?_⟩
  split
  · exact Quiet.reads
  · exact .pure (by grind)

mutual

theorem reads_asPattern (use : PatternUse) (n : Node) :
    v.Reads (v.weigh n) (asPattern use n) v.weigh := by
  unfold asPattern
  split
  · refine .bindOn (reads_arrayAsPattern ..) 0 (by grind) fun elements => .pure (by grind)
  · refine .bindOn (reads_objectAsPattern ..) 0 (by grind) fun members => .pure (by grind)
  · extract_lets n done
    have hdone : ∀ u, v.Reads (v.weigh n) (done u) v.weigh := fun _ => .pure (by grind)
    split
    · exact .andThen fun u => hdone u
    · exact .andThen fun c => .ite (.andThen fun u => hdone u) (hdone ())
    · exact hdone ()
  · split
    · exact .andThen fun _ => .pure (by grind)
    · exact .pure (by grind)
  · split
    · exact .andThen fun _ => .pure (by grind)
    · refine .ite (.andThen fun c => .ite (.andThen fun _ => .pure (by grind)) (.pure (by grind)))
        ?_
      exact (reads_refusePattern ..).mono (by grind)
    · exact (reads_refusePattern ..).mono (by grind)
termination_by sizeOf n

theorem reads_arrayAsPattern (use : PatternUse) (literal before : Nat) (withLast : Bool)
    (ns : List Node) :
    v.Reads (v.weighAll ns) (arrayAsPattern use literal before withLast ns) v.weighAll := by
  unfold arrayAsPattern
  split
  · exact .pure (by grind)
  · rename_i start stop inner ps
    split
    · refine .ite (.pure (by grind)) ?_
      extract_lets rest
      have hrest : ∀ u, v.Reads (v.weigh inner) (rest u) v.weighAll := by
        intro u
        refine .andThen fun _ => .bindOn (reads_asPattern use inner) 0 (by grind) fun p =>
          .pure (by grind)
      split
      · exact .andThen fun u => (hrest u).mono (by grind)
      · exact (hrest ()).mono (by grind)
    · exact .andThen fun _ => (reads_arrayAsPattern ..).mono (by grind)
  · rename_i n ps _
    split
    · refine .ite (.pure (by grind)) (.ite (.pure (by grind)) ?_)
      exact .bindOn (reads_asPattern use n) 0 (by grind) fun p => .pure (by grind)
    · extract_lets others
      have hothers : ∀ p, v.Reads (v.weigh p + v.weighAll ps) (others p) v.weighAll := by
        intro p
        exact .bindOn (reads_arrayAsPattern ..) (v.weigh p) (by grind) fun qs => .pure (by grind)
      refine .ite ((hothers _).mono (by grind)) ?_
      exact .bindOn (reads_asPattern use n) (v.weighAll ps) (by grind) fun p =>
        (hothers p).mono (by grind)
termination_by sizeOf ns

theorem reads_objectAsPattern (use : PatternUse) (literal : Nat) (ns : List Node) :
    v.Reads (v.weighAll ns) (objectAsPattern use literal ns) v.weighAll := by
  unfold objectAsPattern
  split
  · exact .pure (by grind)
  · rename_i start stop inner ps
    extract_lets member rest
    have hmember : ∀ p, v.Reads (v.weigh p + v.weighAll ps) (member p) v.weighAll := by
      intro p
      have hothers := reads_objectAsPattern use literal ps
      refine .ite (.andThen fun _ => ?_) ?_
      all_goals exact .bindOn hothers (v.weigh p) (by grind) fun qs => .pure (by grind)
    have hrest : ∀ u, v.Reads (v.weigh inner + v.weighAll ps) (rest u) v.weighAll := by
      intro u
      refine .ite (.ite (.pureThen (hmember inner)) ?_) ?_
      · exact .andThen fun _ => .pureThen ((hmember _).mono (by grind))
      · exact .bindOn (reads_asPattern use inner) (v.weighAll ps) (by grind)
          fun p => (hmember p).mono (by grind)
    exact .ite (.andThen fun u => (hrest u).mono (by grind))
      (.andThen fun u => (hrest u).mono (by grind))
  · rename_i start stop key value ps
    refine .bindOn (reads_asPattern use value) (v.weigh key + v.weighAll ps) (by grind) fun p => ?_
    exact .bindOn (reads_objectAsPattern ..) (v.weigh key + v.weigh p) (by grind) fun qs =>
      .pure (by grind)
  · rename_i name start stop parts ps
    exact .bindOn (reads_objectAsPattern ..) (v.weighAll parts) (by grind) fun qs =>
      .pure (by grind)
  · rename_i name start stop parts ps
    exact .bindOn (reads_objectAsPattern ..) (v.weighAll parts) (by grind) fun qs =>
      .pure (by grind)
  · exact .fail
termination_by sizeOf ns

end

mutual

theorem quiet_checkNames (n : Node) : v.Quiet (checkNames n) := by
  unfold checkNames
  split
  · infer_instance
  · exact quiet_checkNamesOf _
  · exact quiet_checkNamesOf _
  · exact quiet_checkNamesOf _
  · exact quiet_checkNames _
  · exact quiet_checkNames _
  · infer_instance
  · infer_instance

theorem quiet_checkNamesOf (ns : List Node) : v.Quiet (checkNamesOf ns) := by
  cases ns with
  | nil =>
    unfold checkNamesOf
    infer_instance
  | cons n ns =>
    have := quiet_checkNames n
    have := quiet_checkNamesOf ns
    unfold checkNamesOf
    infer_instance

end

instance (n : Node) : v.Quiet (checkNames n) := quiet_checkNames n

instance (ns : List Node) : v.Quiet (checkNamesOf ns) := quiet_checkNamesOf ns

/-! ## patterns in declarations -/

theorem reads_braced {member : Parse Node} (hmember : v.Reads 0 member v.weigh) :
    v.Reads 0 (braced member) fun r => v.weighAll r.1 := by
  refine .andThen fun _ => ?_
  refine .bind (g := fun acc : List Node × Option Nat => v.weighAll acc.1)
    (.iterate (by grind) fun acc => ?_) fun acc => .pure (by grind)
  refine .andThen fun _ => .ite (.pure (by grind)) (hmember.bind fun m => ?_)
  refine .andThen fun _ => .ite (.pure (by grind))
    (.andThen fun _ => .andThen fun _ => .ite ?_ (.pure (by grind)))
  exact .andThen fun _ => .pure (by grind)

instance (comma : Option Nat) (members : List Node) : v.Quiet (checkRests comma members) := by
  induction members with
  | nil => exact ⟨.pure (by grind)⟩
  | cons p ps ih =>
    cases ps with
    | nil =>
      refine ⟨.ite (.ite ?_ .fail) (.pure (by grind))⟩
      split
      · exact Quiet.reads
      · exact .pure (by grind)
    | cons q qs =>
      refine ⟨.ite (.andThen fun _ => ih.reads) ih.reads⟩

include hg

theorem reads_bindingElement : v.Reads 0 (bindingElement g) v.weigh := by
  refine (hg.binding false).bind fun left => .andThen fun _ => .ite ?_ (.pure (by grind))
  exact hg.assignment.includingIn.bind fun value => .node (by grind) rfl

theorem reads_arrayBinding : v.Reads 0 (arrayBinding g) v.weigh := by
  refine .andThen fun _ => .andThen fun _ => ?_
  refine .bind (g := fun acc : Elements => v.weighAll acc.1) (.iterate (by grind) fun acc => ?_)
    fun acc => .andThen fun _ => .node (by grind) rfl
  refine .andThen fun _ => .ite (.pure (by grind)) (.andThen fun _ => .ite (.pure (by grind)) ?_)
  extract_lets element
  have helement : ∀ u, v.Reads (v.weighAll acc.1) (element u) fun r => v.weighAll (r.getD acc).1 := by
    intro u
    refine .andThen fun t => .andThen fun isRest => ?_
    extract_lets close
    have hclose : ∀ n, v.Reads (v.weighAll acc.1 + v.weigh n) (close n)
        fun r => v.weighAll (r.getD acc).1 := by
      intro n
      refine .andThen fun _ => .ite (.andThen fun _ => .andThen fun _ => .ite ?_
        (.pure (by grind))) (.pure (by grind))
      exact .andThen fun _ => .andThen fun _ => .pure (by grind)
    refine .ite ((hg.binding false).bind fun inner => ?_) ((reads_bindingElement hg).bind hclose)
    exact .nodeThen rfl fun n hn => (hclose n).mono (by grind)
  split
  · exact .andThen fun u => helement u
  · exact helement ()

theorem reads_propertyName : v.Reads 0 (propertyName g) v.weigh := by
  refine ⟨fun s => .refuseInvalid (.token ?_)⟩
  split
  · rename_i raw hraw
    exact readsAt_string hraw
  · exact (Reads.andThen fun _ => .node (by grind) rfl).readsAt s
  · exact (Reads.andThen fun _ => .node (by grind) rfl).readsAt s
  · exact (Reads.andThen fun _ => .node (by grind) rfl).readsAt s
  · refine (Reads.andThen fun _ => ?_).readsAt s
    exact hg.assignment.includingIn.bind fun inner => .andThen fun _ => .node (by grind) rfl
  · exact Reads.unexpected.readsAt s

theorem reads_bindingProperty : v.Reads 0 (bindingProperty g) v.weigh := by
  refine .andThen fun _ => .andThen fun _ => .ite ?_ ?_
  · exact (hg.binding false).bind fun inner => .node (by grind) rfl
  · refine (reads_propertyName hg).bind fun key => .andThen fun _ => .ite ?_ ?_
    · exact (reads_bindingElement hg).bind fun value => .node (by grind) rfl
    · split
      · refine .andThen fun _ => .ite ?_ ?_
        · exact hg.assignment.includingIn.bind fun value => .node (by grind) rfl
        · exact .andThen fun c => .ite (.andThen fun _ => .node (by grind) rfl)
            (.node (by grind) rfl)
      · exact .unexpected

theorem reads_objectBinding : v.Reads 0 (objectBinding g) v.weigh := by
  refine .andThen fun _ => (reads_braced (reads_bindingProperty hg)).bind fun r => ?_
  exact .andThen fun _ => .node (by grind) rfl

theorem reads_bindingPattern {refuseLet : Bool} :
    v.Reads 0 (bindingPattern g refuseLet) v.weigh := by
  refine .andThen fun _ => .andThen fun t => ?_
  split
  · exact reads_bindingIdentifier
  · exact reads_arrayBinding hg
  · exact reads_objectBinding hg
  · exact .unexpected

end Bindle.Script.Grammar
