import Bindle.Proofs.Script.Framed.Rules

/-!
# Twin trees

* `Frame.Reads`, `Frame.Heads`           the same tree on both sides, with bounds for its calls;
* `Frame.ReadsAll`, `Frame.Stacks`       lists of trees, as they are and with the last tree first;
* `Frame.Sim.node`, `Frame.Sim.head`, …  a node is made of what was read;
* `Grammar.Twins`                        every rule of a grammar has its twin in another one.
-/

namespace Bindle.Script

open Bindle.Text Parse

namespace Frame

variable {w : Frame} {α α' β β' : Type}

/-! ## questions about trees -/

@[simp]
theorem isTarget_node (strict : Bool) (n : Node) :
    (w.node n).isTarget strict = n.isTarget strict := by
  induction n using Node.isTarget.induct with
  | case1 name start stop parts => rfl
  | case2 start stop inner tail ih => exact ih
  | case3 start stop tail start' stop' parts ih => exact ih
  | case4 start stop tail start' stop' parts => rfl
  | case5 start stop object tail hmember hoptional =>
    obtain ⟨kind, start', stop', parts⟩ := object
    cases kind with
    | member => exact (hmember start' stop' parts rfl).elim
    | optional => exact (hoptional start' stop' parts rfl).elim
    | _ => rfl
  | case6 start stop parts => rfl
  | case7 n hidentifier hparenthesized hmember hsuper =>
    obtain ⟨kind, start, stop, parts⟩ := n
    cases kind with
    | parenthesized =>
      cases parts with
      | nil => rfl
      | cons inner tail => exact (hparenthesized start stop inner tail rfl).elim
    | member =>
      cases parts with
      | nil => rfl
      | cons object tail => exact (hmember start stop object tail rfl).elim
    | _ => rfl

@[simp]
theorem fitsAssignment_node (n : Node) : (w.node n).fitsAssignment = n.fitsAssignment := by
  rw [Node.fitsAssignment, Node.fitsAssignment, kind_node]

@[simp]
theorem isUseStrict_node (n : Node) : (w.node n).isUseStrict = n.isUseStrict := by
  obtain ⟨kind, start, stop, _ | ⟨⟨inner, _, _, _⟩, _ | ⟨_, _⟩⟩⟩ := n <;> cases kind <;>
    first | rfl | cases inner <;> rfl

@[simp]
theorem isDirective_node (n : Node) : (w.node n).isDirective = n.isDirective := by
  obtain ⟨kind, start, stop, _ | ⟨⟨inner, _, _, _⟩, _ | ⟨_, _⟩⟩⟩ := n <;> cases kind <;>
    first | rfl | cases inner <;> rfl

mutual

theorem strayInitializers_node (n : Node) :
    (w.node n).strayInitializers = n.strayInitializers.map (· + w.before) := by
  obtain ⟨kind, start, stop, parts⟩ := n
  have hparts := strayInitializersOf_nodes parts
  cases kind <;> first | rfl | exact hparts

theorem strayInitializersOf_nodes (ns : List Node) :
    Node.strayInitializersOf (w.nodes ns) = (Node.strayInitializersOf ns).map (· + w.before) := by
  cases ns with
  | nil => rfl
  | cons n ns =>
    rw [nodes, Node.strayInitializersOf, Node.strayInitializersOf, List.map_append,
      strayInitializers_node n, strayInitializersOf_nodes ns]

end

theorem map_node_concat (w : Frame) (ns : List Node) (n : Node) :
    (ns ++ [n]).map w.node = ns.map w.node ++ [w.node n] := List.map_append

/-! ## trees that were read -/

/-- the same tree on both sides; its calls stand from `lo` on up to the last token -/
def Reads (w : Frame) (lo hi : Nat) (n n' : Node) : Prop :=
  n' = w.node n ∧ n.Lies w.Mark lo hi

/-- and the tree begins behind `lo`, with nothing of it before -/
def Heads (w : Frame) (lo hi : Nat) (n n' : Node) : Prop :=
  n' = w.node n ∧ n.Sits w.Mark lo hi

def ReadsAll (w : Frame) (lo hi : Nat) (ns ns' : List Node) : Prop :=
  ns' = ns.map w.node ∧ Node.LieIn w.Mark lo hi ns

/-- trees that were read so far, the last one first -/
def Stacks (w : Frame) (lo hi : Nat) (ns ns' : List Node) : Prop :=
  ns' = ns.map w.node ∧ Node.LieIn w.Mark lo hi ns.reverse

variable {lo lo' l hi hi' : Nat} {R : Nat → α → α' → Prop} {S : Nat → β → β' → Prop}
variable {n : Node} {ns ns' : List Node}

theorem Stacks.nil (h : lo ≤ hi) : w.Stacks lo hi [] [] := ⟨rfl, .nil h⟩

theorem Stacks.mono (h : w.Stacks lo hi ns ns') (hhi : hi ≤ hi') : w.Stacks lo hi' ns ns' :=
  ⟨h.1, h.2.mono (Nat.le_refl lo) hhi⟩

theorem Stacks.push (h : w.Stacks lo hi ns ns') (hn : n.Lies w.Mark hi hi') :
    w.Stacks lo hi' (n :: ns) (w.node n :: ns') := by
  refine ⟨by rw [h.1, List.map_cons], ?_⟩
  rw [List.reverse_cons]
  exact h.2.append hn.lieIn

theorem Stacks.reverse (h : w.Stacks lo hi ns ns') : w.ReadsAll lo hi ns.reverse ns'.reverse :=
  ⟨by rw [h.1, List.map_reverse], h.2⟩

/-- trees that were read so far, with something else on the way -/
def StacksWith {γ γ' : Type} (w : Frame) (T : γ → γ' → Prop) (lo hi : Nat) (acc : List Node × γ)
    (acc' : List Node × γ') : Prop :=
  w.Stacks lo hi acc.1 acc'.1 ∧ T acc.2 acc'.2

/-- two places, or none -/
def SamePlaces : Option Nat → Option Nat → Prop := Option.Rel fun _ _ => True

namespace Sim

variable {p : Parse Node} {p' : Parse Node} {q : Node → Parse β} {q' : Node → Parse β'}

/-- what comes after a tree that was read -/
theorem thenNode (hp : w.Sim lo l (w.Reads lo') p p')
    (hq : ∀ h n, l ≤ h → n.Lies w.Mark lo' h → w.Sim h h S (q n) (q' (w.node n))) :
    w.Sim lo l S (p >>= q) (p' >>= q') := by
  refine hp.bind ?_
  rintro h n _ hl ⟨rfl, hn⟩
  exact hq h n hl hn

theorem thenHead (hp : w.Sim lo l (w.Heads lo') p p')
    (hq : ∀ h n, l ≤ h → n.Sits w.Mark lo' h → w.Sim h h S (q n) (q' (w.node n))) :
    w.Sim lo l S (p >>= q) (p' >>= q') := by
  refine hp.bind ?_
  rintro h n _ hl ⟨rfl, hn⟩
  exact hq h n hl hn

theorem thenNodes {p p' : Parse (List Node)} {q : List Node → Parse β} {q' : List Node → Parse β'}
    (hp : w.Sim lo l (w.ReadsAll lo') p p')
    (hq : ∀ h ns, l ≤ h → Node.LieIn w.Mark lo' h ns → w.Sim h h S (q ns) (q' (ns.map w.node))) :
    w.Sim lo l S (p >>= q) (p' >>= q') := by
  refine hp.bind ?_
  rintro h ns _ hl ⟨rfl, hns⟩
  exact hq h ns hl hns

theorem reads (h : w.Sim lo l (w.Heads lo') p p') : w.Sim lo l (w.Reads lo') p p' :=
  h.mono fun _ _ _ _ hn => ⟨hn.1, hn.2.toLies⟩

/-- a tree that begins where its first token does -/
theorem heads (h : w.Sim l l (w.Heads l) p p') : w.Sim lo l (w.Heads l) p p' :=
  ⟨fun s s' hs => h.simAt s s' hs.behind⟩

theorem readsFrom {lo'' : Nat} (h : w.Sim lo l (w.Reads lo') p p') (hlo : lo'' ≤ lo') :
    w.Sim lo l (w.Reads lo'') p p' :=
  h.mono fun _ _ _ _ hn => ⟨hn.1, hn.2.mono hlo (Nat.le_refl _)⟩

/-- a repetition that reads one tree after the other -/
theorem iterateTrees {step step' : List Node → Parse (Option (List Node))} {a a' : List Node}
    (ha : w.Stacks lo' l a a')
    (hstep : ∀ h acc, l ≤ h → Node.LieIn w.Mark lo' h acc.reverse →
      w.Sim h h (fun hi => Option.Rel (w.Stacks lo' hi)) (step acc) (step' (acc.map w.node))) :
    w.Sim lo l (w.Stacks lo') (Parse.iterate step a) (Parse.iterate step' a') := by
  refine .iterate (fun _ _ _ _ hle h => h.mono hle) ha ?_
  rintro h acc _ hl ⟨rfl, hacc⟩
  exact hstep h acc hl hacc

theorem iterateTreesWith {γ γ' : Type} {T : γ → γ' → Prop}
    {step : List Node × γ → Parse (Option (List Node × γ))}
    {step' : List Node × γ' → Parse (Option (List Node × γ'))} {c : γ} {c' : γ'} (hlo : lo' ≤ l)
    (hc : T c c')
    (hstep : ∀ h acc c c', l ≤ h → Node.LieIn w.Mark lo' h acc.reverse → T c c' →
      w.Sim h h (fun hi => Option.Rel (w.StacksWith T lo' hi)) (step (acc, c))
        (step' (acc.map w.node, c'))) :
    w.Sim lo l (w.StacksWith T lo') (Parse.iterate step ([], c))
      (Parse.iterate step' ([], c')) := by
  refine .iterate (fun _ _ _ _ hle h => ⟨h.1.mono hle, h.2⟩) ⟨.nil hlo, hc⟩ ?_
  rintro h ⟨acc, c⟩ ⟨_, c'⟩ hl ⟨⟨rfl, hacc⟩, hc⟩
  exact hstep h acc c c' hl hacc hc

/-! ## nodes -/

variable {kind : Kind} {start : Nat} {parts : List Node}

/-- a node that is no call, of parts in order -/
theorem node (hkind : kind.isPlain = true) (hparts : Node.LieIn w.Mark lo' l parts) :
    w.Sim lo l (w.Reads lo') (Parse.node kind start parts)
      (Parse.node kind (start + w.before) (parts.map w.node)) := by
  refine .lastStop fun stop hl => .pure fun hi hhi => ⟨(node_mk ..).symm, ?_⟩
  exact (Node.lies_mk hkind ..).mpr (hparts.mono (Nat.le_refl _) (Nat.le_trans hl hhi))

theorem head (hkind : kind.isPlain = true) (hlo : lo' ≤ start) (hmark : w.Mark start)
    (hparts : Node.LieIn w.Mark start l parts) :
    w.Sim lo l (w.Heads lo') (Parse.node kind start parts)
      (Parse.node kind (start + w.before) (parts.map w.node)) := by
  refine .lastStop fun stop hl => .pure fun hi hhi => ⟨(node_mk ..).symm, hlo, hmark, ?_⟩
  exact (Node.lies_mk hkind ..).mpr (hparts.mono (Nat.le_refl _) (Nat.le_trans hl hhi))

/-- a loop, whose last part may stand before the others -/
theorem loop (hparts : Node.LieTurned w.Mark lo' lo' l parts) :
    w.Sim lo l (w.Reads lo') (Parse.node .loop start parts)
      (Parse.node .loop (start + w.before) (parts.map w.node)) := by
  refine .lastStop fun stop hl => .pure fun hi hhi => ⟨(node_mk ..).symm, ?_⟩
  refine (Node.lies_turned (.inl rfl) ..).mpr ?_
  exact hparts.mono (Nat.le_refl _) (Nat.le_refl _) (Nat.le_trans hl hhi)

/-- a class, whose last part may stand before the others -/
theorem classBody (hlo : lo' ≤ start) (hmark : w.Mark start)
    (hparts : Node.LieTurned w.Mark start start l parts) :
    w.Sim lo l (w.Heads lo') (Parse.node .classBody start parts)
      (Parse.node .classBody (start + w.before) (parts.map w.node)) := by
  refine .lastStop fun stop hl => .pure fun hi hhi => ⟨(node_mk ..).symm, hlo, hmark, ?_⟩
  refine (Node.lies_turned (.inr rfl) ..).mpr ?_
  exact hparts.mono (Nat.le_refl _) (Nat.le_refl _) (Nat.le_trans hl hhi)

/-- a call, with everything of it between its bounds -/
theorem call (hl : 0 < l) (hlo : lo' ≤ start) (hmark : w.Mark start)
    (hparts : Node.LieIn w.Mark start l parts) :
    w.Sim lo l (w.Heads lo') (Parse.node .call start parts)
      (Parse.node .call (start + w.before) (parts.map w.node)) := by
  refine ⟨fun s s' hs => ?_⟩
  have hnode : w.node (.mk .call start s.lastStop parts) =
      .mk .call (start + w.before) s'.lastStop (parts.map w.node) := by
    rw [node_mk, hs.twin.lastStop]
  refine .inr ⟨_, s, _, rfl, hs.fine, .refl s, ⟨hnode.symm, hlo, hmark, ?_⟩, fun hgood =>
    ⟨hgood, s', rfl, hs.twin⟩⟩
  rw [Node.Lies]
  exact ⟨⟨hmark, hs.fine.lastStop, Nat.lt_of_lt_of_le hl hs.l_le⟩,
    ⟨Nat.le_refl _, Nat.le_refl _⟩, hparts.mono (Nat.le_refl _) hs.l_le⟩

end Sim

end Frame

/-- every rule of a grammar has its twin in another one -/
structure Grammar.Twins (w : Frame) (g g' : Grammar) : Prop where
  assignment : ∀ {lo l}, w.Sim lo l (w.Reads l) g.assignment g'.assignment
  unary : ∀ {lo l}, w.Sim lo l (w.Reads l) g.unary g'.unary
  member : ∀ {lo l}, w.Sim lo l (w.Heads l) g.member g'.member
  leftHand : ∀ {lo l}, w.Sim lo l (w.Heads l) g.leftHand g'.leftHand
  /-- the operators stand behind the left operand, and the tree begins where it begins -/
  binary : ∀ {lo l from_ : Nat} {left : Node} {least : Nat}, left.Lies w.Mark from_ l →
    w.Sim lo l (fun hi n n' => w.Reads from_ hi n n' ∧ n.start = left.start) (g.binary left least)
      (g'.binary (w.node left) least)
  binding : ∀ {lo l refuseLet}, w.Sim lo l (w.Reads l) (g.binding refuseLet) (g'.binding refuseLet)
  statement : ∀ {lo l declarations},
    w.Sim lo l (w.Reads l) (g.statement declarations) (g'.statement declarations)

end Bindle.Script
