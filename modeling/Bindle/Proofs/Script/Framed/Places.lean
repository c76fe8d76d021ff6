import Bindle.Proofs.Script.Framed.Lexer
import Bindle.Proofs.Text.Position
import Bindle.Script.Tree

/-!
# Trees in a frame, and where their calls stand

`Frame.node` is a tree of the source as it is in the text around it.  The place behind a node is
zero before the first token was taken, on both sides.

The calls of most trees stand in the source in the order of their parts, one behind another.  The
last part of a loop and of a class may stand before the others.

* `Frame.Mark`    a place of the source between two characters;
* `Node.Lies`     the calls of a tree stand between two places, in the order of the text where no
                  node is turned; `Node.LieIn` for a list of trees;
* `Node.Sits`     the same, and the tree begins where its calls may stand.
-/

namespace Bindle.Script

open Bindle.Text

/-! ## trees in a frame -/

namespace Frame

/-- the place behind a token; no token ends at the beginning of the source -/
def stop (w : Frame) (place : Nat) : Nat := if place = 0 then 0 else place + w.before

theorem stop_of_pos {w : Frame} {place : Nat} (h : 0 < place) :
    w.stop place = place + w.before :=
  if_neg (Nat.ne_of_gt h)

mutual

def node (w : Frame) : Node → Node
  | .mk kind start stop parts => .mk kind (start + w.before) (w.stop stop) (nodes w parts)

def nodes (w : Frame) : List Node → List Node
  | [] => []
  | n :: ns => node w n :: nodes w ns

end

variable {w : Frame}

@[simp]
theorem nodes_eq_map (ns : List Node) : w.nodes ns = ns.map w.node := by
  induction ns with
  | nil => rfl
  | cons n ns ih => rw [nodes, ih, List.map_cons]

theorem node_mk (kind : Kind) (start stop : Nat) (parts : List Node) :
    w.node (.mk kind start stop parts) =
      .mk kind (start + w.before) (w.stop stop) (parts.map w.node) := by
  rw [node, nodes_eq_map]

@[simp] theorem kind_node (n : Node) : (w.node n).kind = n.kind := by cases n; rfl

@[simp] theorem start_node (n : Node) : (w.node n).start = n.start + w.before := by cases n; rfl

@[simp] theorem stop_node (n : Node) : (w.node n).stop = w.stop n.stop := by cases n; rfl

@[simp] theorem parts_node (n : Node) : (w.node n).parts = n.parts.map w.node := by
  cases n
  exact nodes_eq_map _

@[simp] theorem isIdentifier_node (n : Node) : (w.node n).isIdentifier = n.isIdentifier := by
  cases n
  rfl

/-- a place of the source between two characters -/
def Mark (w : Frame) (place : Nat) : Prop := IsBoundary w.source place

theorem mark_of_reaches {c : Cursor} (h : Cursor.Reaches ⟨w.source, 0⟩ c) : w.Mark c.offset := by
  obtain ⟨taken, hrest, hoffset⟩ := h
  exact ⟨taken, c.rest, hrest, by rw [hoffset, Nat.zero_add]⟩

end Frame

@[simp]
theorem Node.kind_mk (kind : Kind) (start stop : Nat) (parts : List Node) :
    (mk kind start stop parts).kind = kind := rfl

@[simp]
theorem Node.parts_mk (kind : Kind) (start stop : Nat) (parts : List Node) :
    (mk kind start stop parts).parts = parts := rfl

/-! ## where calls stand -/

/-- the calls of such a node stand in the order of its parts, and it is no call itself -/
def Kind.isPlain : Kind → Bool
  | .call | .loop | .classBody => false
  | _ => true

namespace Node

mutual

/-- the calls stand between `lo` and `hi`, those of a part behind those of the parts before it;
each call begins and ends at a place with a mark -/
def Lies (mark : Nat → Prop) (lo hi : Nat) : Node → Prop
  | .mk .call start stop parts =>
    (mark start ∧ mark stop ∧ 0 < stop) ∧ (lo ≤ start ∧ stop ≤ hi) ∧ LieIn mark start stop parts
  | .mk .loop _ _ parts => LieTurned mark lo lo hi parts
  | .mk .classBody _ _ parts => LieTurned mark lo lo hi parts
  | .mk _ _ _ parts => LieIn mark lo hi parts

def LieIn (mark : Nat → Prop) (lo hi : Nat) : List Node → Prop
  | [] => lo ≤ hi
  | n :: ns => ∃ mid, Lies mark lo mid n ∧ LieIn mark mid hi ns

/-- the same, but that the last of the trees may stand anywhere behind `first` -/
def LieTurned (mark : Nat → Prop) (first lo hi : Nat) : List Node → Prop
  | [] => lo ≤ hi
  | n :: ns => (∃ mid, Lies mark lo mid n ∧ LieTurned mark first mid hi ns) ∨
      (ns = [] ∧ lo ≤ hi) ∧ Lies mark first hi n

end

variable {mark : Nat → Prop} {first lo lo' hi hi' mid : Nat}

theorem lies_mk {kind : Kind} (h : kind.isPlain = true) (start stop : Nat) (parts : List Node) :
    (mk kind start stop parts).Lies mark lo hi ↔ LieIn mark lo hi parts := by
  cases kind with
  | call => exact absurd h Bool.false_ne_true
  | loop => exact absurd h Bool.false_ne_true
  | classBody => exact absurd h Bool.false_ne_true
  | _ => rw [Lies] <;> exact nofun

/-- the last part of a loop and of a class may stand before the others -/
theorem lies_turned {kind : Kind} (h : kind = .loop ∨ kind = .classBody) (start stop : Nat)
    (parts : List Node) :
    (mk kind start stop parts).Lies mark lo hi ↔ LieTurned mark lo lo hi parts := by
  rcases h with rfl | rfl <;> rw [Lies]

/-- a call, a loop or a class, or another one -/
theorem isPlain_cases (kind : Kind) :
    kind = .call ∨ (kind = .loop ∨ kind = .classBody) ∨ kind.isPlain = true := by
  cases kind <;> simp [Kind.isPlain]

mutual

theorem Lies.le {lo hi : Nat} {n : Node} (h : n.Lies mark lo hi) : lo ≤ hi := by
  obtain ⟨kind, start, stop, parts⟩ := n
  rcases isPlain_cases kind with rfl | hturned | hplain
  · rw [Lies] at h
    exact Nat.le_trans h.2.1.1 (Nat.le_trans (LieIn.le h.2.2) h.2.1.2)
  · exact LieTurned.le ((lies_turned hturned start stop parts).mp h)
  · exact LieIn.le ((lies_mk hplain start stop parts).mp h)

theorem LieIn.le {lo hi : Nat} {ns : List Node} (h : LieIn mark lo hi ns) : lo ≤ hi := by
  cases ns with
  | nil => rwa [LieIn] at h
  | cons n ns =>
    rw [LieIn] at h
    obtain ⟨mid, hn, hns⟩ := h
    exact Nat.le_trans (Lies.le hn) (LieIn.le hns)

theorem LieTurned.le {first lo hi : Nat} {ns : List Node} (h : LieTurned mark first lo hi ns) :
    lo ≤ hi := by
  cases ns with
  | nil => rwa [LieTurned] at h
  | cons n ns =>
    rw [LieTurned] at h
    rcases h with ⟨mid, hn, hns⟩ | ⟨⟨-, hle⟩, -⟩
    · exact Nat.le_trans (Lies.le hn) (LieTurned.le hns)
    · exact hle

end

mutual

/-- wider bounds hold as well -/
theorem Lies.mono {lo lo' hi hi' : Nat} {n : Node} (h : n.Lies mark lo hi) (hlo : lo' ≤ lo)
    (hhi : hi ≤ hi') : n.Lies mark lo' hi' := by
  obtain ⟨kind, start, stop, parts⟩ := n
  rcases isPlain_cases kind with rfl | hturned | hplain
  · rw [Lies] at h ⊢
    obtain ⟨hmarks, ⟨hstart, hstop⟩, hparts⟩ := h
    exact ⟨hmarks, ⟨Nat.le_trans hlo hstart, Nat.le_trans hstop hhi⟩, hparts⟩
  · rw [lies_turned hturned] at h ⊢
    exact LieTurned.mono h hlo hlo hhi
  · rw [lies_mk hplain] at h ⊢
    exact LieIn.mono h hlo hhi

theorem LieIn.mono {lo lo' hi hi' : Nat} {ns : List Node} (h : LieIn mark lo hi ns)
    (hlo : lo' ≤ lo) (hhi : hi ≤ hi') : LieIn mark lo' hi' ns := by
  cases ns with
  | nil =>
    rw [LieIn] at h ⊢
    exact Nat.le_trans hlo (Nat.le_trans h hhi)
  | cons n ns =>
    rw [LieIn] at h ⊢
    obtain ⟨mid, hn, hns⟩ := h
    exact ⟨mid, Lies.mono hn hlo (Nat.le_refl mid), LieIn.mono hns (Nat.le_refl mid) hhi⟩

theorem LieTurned.mono {first first' lo lo' hi hi' : Nat} {ns : List Node}
    (h : LieTurned mark first lo hi ns) (hfirst : first' ≤ first) (hlo : lo' ≤ lo)
    (hhi : hi ≤ hi') : LieTurned mark first' lo' hi' ns := by
  cases ns with
  | nil =>
    rw [LieTurned] at h ⊢
    exact Nat.le_trans hlo (Nat.le_trans h hhi)
  | cons n ns =>
    rw [LieTurned] at h ⊢
    rcases h with ⟨mid, hn, hns⟩ | ⟨⟨hnil, hle⟩, hn⟩
    · exact .inl ⟨mid, Lies.mono hn hlo (Nat.le_refl mid),
        LieTurned.mono hns hfirst (Nat.le_refl mid) hhi⟩
    · exact .inr ⟨⟨hnil, Nat.le_trans hlo (Nat.le_trans hle hhi)⟩, Lies.mono hn hfirst hhi⟩

end

theorem LieIn.nil (h : lo ≤ hi) : LieIn mark lo hi [] := by rwa [LieIn]

theorem LieIn.cons {n : Node} {ns : List Node} (hn : n.Lies mark lo mid)
    (hns : LieIn mark mid hi ns) : LieIn mark lo hi (n :: ns) := by
  rw [LieIn]
  exact ⟨mid, hn, hns⟩

theorem lieIn_cons {n : Node} {ns : List Node} :
    LieIn mark lo hi (n :: ns) ↔ ∃ mid, n.Lies mark lo mid ∧ LieIn mark mid hi ns := by
  rw [LieIn]

theorem Lies.lieIn {n : Node} (h : n.Lies mark lo hi) : LieIn mark lo hi [n] :=
  .cons h (.nil (Nat.le_refl hi))

theorem LieIn.append {ms ns : List Node} (hms : LieIn mark lo mid ms)
    (hns : LieIn mark mid hi ns) : LieIn mark lo hi (ms ++ ns) := by
  induction ms generalizing lo with
  | nil =>
    rw [LieIn] at hms
    exact hns.mono hms (Nat.le_refl hi)
  | cons m ms ih =>
    obtain ⟨between, hm, hms⟩ := lieIn_cons.mp hms
    exact .cons hm (ih hms)

theorem LieIn.lieTurned {ns : List Node} (h : LieIn mark lo hi ns) :
    LieTurned mark first lo hi ns := by
  induction ns generalizing lo with
  | nil => rwa [LieTurned, ← LieIn]
  | cons n ns ih =>
    obtain ⟨mid, hn, hns⟩ := lieIn_cons.mp h
    rw [LieTurned]
    exact .inl ⟨mid, hn, ih hns⟩

/-- trees in order, with one behind them that stands anywhere -/
theorem LieIn.turn {ns : List Node} {n : Node} (hns : LieIn mark lo hi ns)
    (hn : n.Lies mark first hi) : LieTurned mark first lo hi (ns ++ [n]) := by
  induction ns generalizing lo with
  | nil =>
    rw [List.nil_append, LieTurned]
    exact .inr ⟨⟨rfl, hns.le⟩, hn⟩
  | cons m ns ih =>
    obtain ⟨mid, hm, hns⟩ := lieIn_cons.mp hns
    rw [List.cons_append, LieTurned]
    exact .inl ⟨mid, hm, ih hns⟩

/-- the tree begins behind `lo` at a place with a mark, and nothing of it stands before that -/
structure Sits (mark : Nat → Prop) (lo hi : Nat) (n : Node) : Prop where
  le_start : lo ≤ n.start
  marked : mark n.start
  lies : n.Lies mark n.start hi

theorem Sits.mono {n : Node} (h : n.Sits mark lo hi) (hlo : lo' ≤ lo) (hhi : hi ≤ hi') :
    n.Sits mark lo' hi' :=
  ⟨Nat.le_trans hlo h.le_start, h.marked, h.lies.mono (Nat.le_refl _) hhi⟩

theorem Sits.toLies {n : Node} (h : n.Sits mark lo hi) : n.Lies mark lo hi :=
  h.lies.mono h.le_start (Nat.le_refl hi)

end Node

end Bindle.Script
