import Bindle.Script.Call

/-!
# The nodes of a tree

A walk over a tree comes to each node before it comes to those inside it.

* `Node.nodes`                the nodes in this order;
* `Node.request? n`           the call that `n` is, if it calls the plain name `require`;
* `Node.calls_eq_filterMap`   the calls of a tree are its requests.
-/

namespace Bindle.Script

mutual

def Node.nodes : Node → List Node
  | .mk kind start stop parts => .mk kind start stop parts :: Node.nodesOf parts

def Node.nodesOf : List Node → List Node
  | [] => []
  | n :: ns => Node.nodes n ++ Node.nodesOf ns

end

/-- the call that a node is, if it calls the plain name `require` -/
def Node.request? (source : List Char) : Node → Option Call
  | .mk .call start stop (callee :: args) =>
    if isRequire callee then some (callOf source start stop args) else none
  | _ => none

mutual

/-- **The calls of a tree are its requests, each before those inside it.** -/
theorem Node.calls_eq_filterMap (source : List Char) (n : Node) :
    n.calls source = n.nodes.filterMap (Node.request? source) := by
  unfold Node.calls
  split
  · rename_i start stop callee args
    have hinner : callee.calls source ++ Node.callsOf source args =
        (Node.nodesOf (callee :: args)).filterMap (Node.request? source) := by
      rw [← Node.callsOf_eq_filterMap, Node.callsOf]
    rw [Node.nodes, List.filterMap_cons, hinner, Node.request?]
    split
    · rfl
    · rfl
  · rename_i kind start stop parts hkind
    have hnone : Node.request? source (.mk kind start stop parts) = none := by
      unfold Node.request?
      split
      · rename_i heq
        obtain ⟨rfl, -, -, rfl⟩ := Node.mk.inj heq
        exact absurd rfl (hkind _ _ rfl)
      · rfl
    rw [Node.nodes, List.filterMap_cons, hnone, Node.callsOf_eq_filterMap]

theorem Node.callsOf_eq_filterMap (source : List Char) (ns : List Node) :
    Node.callsOf source ns = (Node.nodesOf ns).filterMap (Node.request? source) := by
  cases ns with
  | nil => rfl
  | cons n ns =>
    rw [Node.callsOf, Node.nodesOf, List.filterMap_append, Node.calls_eq_filterMap,
      Node.callsOf_eq_filterMap]

end

theorem Node.nodes_mk (kind : Kind) (start stop : Nat) (parts : List Node) :
    (mk kind start stop parts).nodes = mk kind start stop parts :: nodesOf parts := by
  rw [nodes]

theorem Node.mem_nodes_self (n : Node) : n ∈ n.nodes := by
  obtain ⟨kind, start, stop, parts⟩ := n
  rw [nodes_mk]
  exact List.mem_cons_self

theorem Node.nodesOf_eq_flatMap (ns : List Node) : nodesOf ns = ns.flatMap nodes := by
  induction ns with
  | nil => rfl
  | cons n ns ih => rw [nodesOf, ih, List.flatMap_cons]

theorem Node.callsOf_eq_flatMap (source : List Char) (ns : List Node) :
    callsOf source ns = ns.flatMap (calls source) := by
  induction ns with
  | nil => rfl
  | cons n ns ih => rw [callsOf, ih, List.flatMap_cons]

theorem Node.callsOf_append (source : List Char) (ms ns : List Node) :
    callsOf source (ms ++ ns) = callsOf source ms ++ callsOf source ns := by
  rw [callsOf_eq_flatMap, callsOf_eq_flatMap, callsOf_eq_flatMap, List.flatMap_append]

/-- only a call comes before what is inside it -/
theorem Node.calls_mk_of_ne {kind : Kind} (h : kind ≠ .call) (source : List Char)
    (start stop : Nat) (parts : List Node) :
    (mk kind start stop parts).calls source = callsOf source parts := by
  rw [calls]
  rintro _ _ rfl _
  exact h rfl

mutual

/-- what passes from a node to its parts holds of all nodes of a tree -/
theorem Node.forall_nodes {P : Node → Prop}
    (hpart : ∀ kind start stop parts, P (mk kind start stop parts) → ∀ n ∈ parts, P n) {n : Node}
    (h : P n) : ∀ m ∈ n.nodes, P m := by
  obtain ⟨kind, start, stop, parts⟩ := n
  intro m hm
  rw [nodes_mk] at hm
  rcases List.mem_cons.mp hm with rfl | hm
  · exact h
  · exact forall_nodesOf hpart (hpart kind start stop parts h) m hm

theorem Node.forall_nodesOf {P : Node → Prop}
    (hpart : ∀ kind start stop parts, P (mk kind start stop parts) → ∀ n ∈ parts, P n)
    {ns : List Node} (h : ∀ n ∈ ns, P n) : ∀ m ∈ nodesOf ns, P m := by
  cases ns with
  | nil => exact fun _ hm => absurd hm List.not_mem_nil
  | cons n ns =>
    intro m hm
    rw [nodesOf] at hm
    rcases List.mem_append.mp hm with hm | hm
    · exact forall_nodes hpart (h n List.mem_cons_self) m hm
    · exact forall_nodesOf hpart (fun k hk => h k (List.mem_cons_of_mem n hk)) m hm

end

end Bindle.Script
