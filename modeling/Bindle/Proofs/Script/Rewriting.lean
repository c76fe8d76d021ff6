import Bindle.Proofs.Script.Splicing
import Bindle.Proofs.Script.Strings
import Mathlib.Data.List.Basic

/-!
# Rewriting a script

A dependency call takes a new value for its literal argument, and the script is rendered with all
new values in place.

* `Node.Passes`       a tree holds a call of `require` whose only argument is a certain string;
* `Script.rewrite`    a script with new values for its literal calls;
* `Script.edits`      the pieces of its source that get a new text;
* `coverage`          how many pieces cover a byte; for the arguments of a tree, at most one does;
* `Takes`             where a literal call takes its argument from;
* `render_rewrite`    what is rendered, and what stands in the pieces that are replaced.

Two things keep a piece from being the token of the argument: a byte order mark, which the places in
the tree do not count, and a comment of the form `<!--` or `-->` right before the token, which belongs
to the place of the token.
-/

namespace Bindle.Script

open Bindle.Text

/-! ## calls and strings -/

/-- a tree holds a call of `require` whose only argument is a certain string -/
inductive Node.Passes : Node → Leaf → Prop where
  | here {start stop first last : Nat} {raw : String} {callee : Node} {parts : List Node}
      (h : isRequire callee) :
      Node.Passes (.mk .call start stop [callee, .mk (.string raw) first last parts])
        ⟨first, last, raw⟩
  | part {kind : Kind} {start stop : Nat} {parts : List Node} {n : Node} {l : Leaf} (hn : n ∈ parts)
      (h : Node.Passes n l) : Node.Passes (.mk kind start stop parts) l

theorem mem_leaves_of_mem {kind : Kind} {start stop : Nat} {parts : List Node} {n : Node} {l : Leaf}
    (hn : n ∈ parts) (hl : l ∈ n.leaves) : l ∈ (Node.mk kind start stop parts).leaves := by
  have hparts : l ∈ Node.leavesOf parts := by
    rw [Node.leavesOf_eq_flatMap]
    exact List.mem_flatMap.mpr ⟨n, hn, hl⟩
  cases kind with
  | string raw =>
    rw [Node.leaves]
    exact List.mem_cons_of_mem _ hparts
  | _ =>
    rw [Node.leaves_mk rfl]
    exact hparts

theorem Node.Passes.mem_leaves {n : Node} {l : Leaf} (h : n.Passes l) : l ∈ n.leaves := by
  induction h with
  | @here start stop first last raw callee parts =>
    refine mem_leaves_of_mem (n := .mk (.string raw) first last parts)
      (List.mem_cons_of_mem _ (List.mem_singleton_self _)) ?_
    rw [Node.leaves]
    exact List.mem_cons_self
  | part hn _ ih => exact mem_leaves_of_mem hn ih

/-- what a literal call holds: the only argument is a string, and its value is decoded from the
source -/
theorem callOf_range {source : List Char} {start stop : Nat} {args : List Node} {r : Range}
    (h : (callOf source start stop args).range = some r) :
    ∃ raw parts text, args = [.mk (.string raw) r.start r.stop parts] ∧
      slice? source r.start r.stop = some text ∧
      (callOf source start stop args).argument = .literal (Literal.decode text) := by
  unfold callOf at h ⊢
  dsimp only at h ⊢
  split at h
  · rename_i q value hliteral
    obtain rfl := Option.some.inj h
    unfold literalArgument? at hliteral
    split at hliteral
    · rename_i raw first last parts
      obtain ⟨⟨q', text⟩, hrange, hq⟩ := Option.map_eq_some_iff.mp hliteral
      obtain ⟨rfl, rfl⟩ := Prod.mk.inj hq
      obtain ⟨text', hslice, hq'⟩ := Option.map_eq_some_iff.mp hrange
      obtain ⟨rfl, rfl⟩ := Prod.mk.inj hq'
      exact ⟨raw, parts, text', rfl, hslice, rfl⟩
    · exact absurd hliteral (by simp)
  · exact absurd h (by simp)

theorem callOf_replacement (source : List Char) (start stop : Nat) (args : List Node) :
    (callOf source start stop args).replacement = none := by
  unfold callOf
  dsimp only
  split <;> rfl

/-- a call that was found in a tree: untouched, and if it is literal, its string is in the tree and
its value is decoded from the source -/
structure Found (source : List Char) (n : Node) (c : Call) : Prop where
  untouched : c.replacement = none
  literal : ∀ r, c.range = some r → ∃ raw text, n.Passes ⟨r.start, r.stop, raw⟩ ∧
    slice? source r.start r.stop = some text ∧ c.argument = .literal (Literal.decode text)

theorem Found.part {source : List Char} {kind : Kind} {start stop : Nat} {parts : List Node}
    {n : Node} {c : Call} (h : Found source n c) (hn : n ∈ parts) :
    Found source (.mk kind start stop parts) c := by
  refine ⟨h.untouched, fun r hr => ?_⟩
  obtain ⟨raw, text, hpasses, htext⟩ := h.literal r hr
  exact ⟨raw, text, .part hn hpasses, htext⟩

theorem found_callOf {source : List Char} {start stop : Nat} {callee : Node} {args : List Node}
    (h : isRequire callee) :
    Found source (.mk .call start stop (callee :: args)) (callOf source start stop args) := by
  refine ⟨callOf_replacement source start stop args, fun r hr => ?_⟩
  obtain ⟨raw, parts, text, rfl, htext⟩ := callOf_range hr
  exact ⟨raw, text, .here h, htext⟩

mutual

theorem found_of_mem_calls {source : List Char} {n : Node} {c : Call} (hc : c ∈ n.calls source) :
    Found source n c := by
  unfold Node.calls at hc
  split at hc
  · rename_i start stop callee args
    have hinner (h : c ∈ callee.calls source ++ Node.callsOf source args) :
        Found source (.mk .call start stop (callee :: args)) c := by
      rcases List.mem_append.mp h with h | h
      · exact (found_of_mem_calls h).part List.mem_cons_self
      · obtain ⟨n, hn, hfound⟩ := exists_found_of_mem_callsOf h
        exact hfound.part (List.mem_cons_of_mem _ hn)
    split at hc
    · rename_i hrequire
      rcases List.mem_cons.mp hc with rfl | hc
      · exact found_callOf hrequire
      · exact hinner hc
    · exact hinner hc
  · obtain ⟨n, hn, hfound⟩ := exists_found_of_mem_callsOf hc
    exact hfound.part hn
termination_by sizeOf n

theorem exists_found_of_mem_callsOf {source : List Char} {ns : List Node} {c : Call}
    (hc : c ∈ Node.callsOf source ns) : ∃ n ∈ ns, Found source n c := by
  cases ns with
  | nil => exact absurd hc List.not_mem_nil
  | cons n ns =>
    rw [Node.callsOf] at hc
    rcases List.mem_append.mp hc with hc | hc
    · exact ⟨n, List.mem_cons_self, found_of_mem_calls hc⟩
    · obtain ⟨m, hm, hfound⟩ := exists_found_of_mem_callsOf hc
      exact ⟨m, List.mem_cons_of_mem _ hm, hfound⟩
termination_by sizeOf ns

end

theorem mem_callsOf_of_mem {source : List Char} {ns : List Node} {n : Node} {c : Call}
    (hn : n ∈ ns) (hc : c ∈ n.calls source) : c ∈ Node.callsOf source ns := by
  induction ns with
  | nil => exact absurd hn List.not_mem_nil
  | cons m ns ih =>
    rw [Node.callsOf]
    rcases List.mem_cons.mp hn with rfl | hn
    · exact List.mem_append_left _ hc
    · exact List.mem_append_right _ (ih hn)

/-- the calls inside a part are calls of the whole -/
theorem mem_calls_of_part {source : List Char} {kind : Kind} {start stop : Nat} {parts : List Node}
    {n : Node} {c : Call} (hn : n ∈ parts) (hc : c ∈ n.calls source) :
    c ∈ (Node.mk kind start stop parts).calls source := by
  have hparts := mem_callsOf_of_mem hn hc
  unfold Node.calls
  split
  · rename_i hnode
    obtain ⟨-, -, -, rfl⟩ := Node.mk.inj hnode
    rw [Node.callsOf] at hparts
    split
    · exact List.mem_cons_of_mem _ hparts
    · exact hparts
  · rename_i hnode
    obtain ⟨-, -, -, rfl⟩ := Node.mk.inj hnode
    exact hparts

/-- a call whose argument fills a piece of the source is found as a literal one -/
theorem exists_call_of_passes {source : List Char} {n : Node} {l : Leaf} (h : n.Passes l)
    {text : List Char} (hslice : slice? source l.start l.stop = some text) :
    ∃ c ∈ n.calls source, c.range = some ⟨l.start, l.stop⟩ := by
  induction h with
  | @here start stop first last raw callee parts hrequire =>
    refine ⟨callOf source start stop [.mk (.string raw) first last parts], ?_, ?_⟩
    · rw [Node.calls, if_pos hrequire]
      exact List.mem_cons_self
    · have hliteral : literalArgument? source [.mk (.string raw) first last parts] =
          some (⟨first, last⟩, Literal.decode text) := by
        rw [literalArgument?, range?, hslice]
        rfl
      rw [callOf, hliteral]
  | part hn _ ih =>
    obtain ⟨c, hc, hr⟩ := ih hslice
    exact ⟨c, mem_calls_of_part hn hc, hr⟩

/-! ## no byte is in two arguments -/

def rangesOf (calls : List Call) : List Range := calls.filterMap Call.range

/-- how many of some pieces of a source cover a byte -/
def coverage (byte : Nat) (ranges : List Range) : Nat := ranges.countP fun r => r.covers byte

theorem coverage_rangesOf_append (byte : Nat) (cs ds : List Call) :
    coverage byte (rangesOf (cs ++ ds)) =
      coverage byte (rangesOf cs) + coverage byte (rangesOf ds) := by
  rw [rangesOf, List.filterMap_append, coverage, List.countP_append]
  rfl

theorem coverage_cons (byte : Nat) (r : Range) (ranges : List Range) :
    coverage byte (r :: ranges) = coverage byte ranges + if r.covers byte then 1 else 0 :=
  List.countP_cons

/-- a piece counts no more than a string that fills it -/
theorem covers_le_load (v : Probe) (r : Range) (raw : String) :
    (if r.covers v.byte then 1 else 0) ≤ v.load ⟨r.start, r.stop, raw⟩ := by
  unfold Probe.load
  simp only [Range.covers_iff]
  split <;> split <;> omega

mutual

/-- the arguments of the calls of a tree are among its strings -/
theorem coverage_calls_le (v : Probe) (source : List Char) (n : Node) :
    coverage v.byte (rangesOf (n.calls source)) ≤ v.weigh n := by
  unfold Node.calls
  split
  · rename_i start stop callee args
    have hcallee := coverage_calls_le v source callee
    have hargs := coverage_callsOf_le v source args
    have hinner : coverage v.byte (rangesOf (callee.calls source ++ Node.callsOf source args)) ≤
        v.weigh callee + v.weighAll args := by
      rw [coverage_rangesOf_append]
      exact Nat.add_le_add hcallee hargs
    rw [Probe.weigh_mk rfl, Probe.weighAll_cons]
    split
    · cases hrange : (callOf source start stop args).range with
      | none =>
        rw [rangesOf, List.filterMap_cons_none hrange]
        exact hinner
      | some r =>
        obtain ⟨raw, parts, text, rfl, -⟩ := callOf_range hrange
        have hload := covers_le_load v r raw
        have hparts := coverage_callsOf_le v source parts
        have hcalls : Node.callsOf source [.mk (.string raw) r.start r.stop parts] =
            Node.callsOf source parts := by
          rw [Node.callsOf, Node.callsOf, List.append_nil, Node.calls]
          exact nofun
        rw [rangesOf, List.filterMap_cons_some hrange, coverage_cons, hcalls, ← rangesOf,
          coverage_rangesOf_append, Probe.weighAll_cons, Probe.weigh_string, Probe.weighAll_nil]
        omega
    · exact hinner
  · rename_i kind start stop parts _
    have hparts := coverage_callsOf_le v source parts
    cases kind with
    | string raw =>
      rw [Probe.weigh_string]
      exact Nat.le_trans hparts (Nat.le_add_left _ _)
    | _ =>
      rw [Probe.weigh_mk rfl]
      exact hparts
termination_by sizeOf n

theorem coverage_callsOf_le (v : Probe) (source : List Char) (ns : List Node) :
    coverage v.byte (rangesOf (Node.callsOf source ns)) ≤ v.weighAll ns := by
  cases ns with
  | nil => exact Nat.zero_le _
  | cons n ns =>
    rw [Node.callsOf, coverage_rangesOf_append, Probe.weighAll_cons]
    exact Nat.add_le_add (coverage_calls_le v source n) (coverage_callsOf_le v source ns)
termination_by sizeOf ns

end

/-- pieces that cover no byte twice are apart -/
theorem pairwise_apart_of_coverage {ranges : List Range} (hne : ∀ r ∈ ranges, r.start < r.stop)
    (h : ∀ byte, coverage byte ranges ≤ 1) : ranges.Pairwise Range.Apart := by
  induction ranges with
  | nil => exact .nil
  | cons r ranges ih =>
    refine List.pairwise_cons.mpr ⟨fun q hq => ?_, ih ?_ fun byte => ?_⟩
    · -- else the later of the two beginnings is in both
      by_contra hoverlap
      have hr := hne r List.mem_cons_self
      have hq' := hne q (List.mem_cons_of_mem _ hq)
      unfold Range.Apart at hoverlap
      have hcovers : r.covers (max r.start q.start) = true :=
        Range.covers_iff.mpr ⟨by omega, by omega⟩
      have hcovers' : q.covers (max r.start q.start) = true :=
        Range.covers_iff.mpr ⟨by omega, by omega⟩
      have hpos : 0 < coverage (max r.start q.start) ranges :=
        List.countP_pos_iff.mpr ⟨q, hq, hcovers'⟩
      have hle := h (max r.start q.start)
      rw [coverage_cons, if_pos hcovers] at hle
      omega
    · exact fun q hq => hne q (List.mem_cons_of_mem _ hq)
    · have hle := h byte
      rw [coverage_cons] at hle
      omega

/-! ## new values -/

namespace Call

/-- the call after a visit that has a new value for it, or none -/
def given (c : Call) (value : Option String) : Call :=
  match value with
  | some value => (c.replace value).1
  | none => c

/-- the piece of the source that this replaces, and what replaces it -/
def edit? (c : Call) (value : Option String) : Option (Range × String) :=
  c.range.bind fun r => value.map fun value => (r, value)

theorem splice?_given {c : Call} (h : c.replacement = none) (value : Option String) :
    (c.given value).splice? = c.edit? value := by
  obtain ⟨position, argument, range, replacement, placed⟩ := c
  obtain rfl : replacement = none := h
  cases value <;> cases range <;> rfl

theorem edit?_eq_some {c : Call} {value : Option String} {e : Range × String}
    (h : c.edit? value = some e) : c.range = some e.1 := by
  obtain ⟨r, hr, hvalue⟩ := Option.bind_eq_some_iff.mp h
  obtain ⟨text, -, rfl⟩ := Option.map_eq_some_iff.mp hvalue
  exact hr

end Call

/-- a script after a visit that has the new value `values i` for its `i`-th call, or none -/
def rewrite (s : Script) (values : Nat → Option String) : Script :=
  { s with calls := s.calls.zipIdx.map fun (c, i) => c.given (values i) }

/-- the pieces of the source that the new values replace: those of the calls that take theirs -/
def edits (s : Script) (values : Nat → Option String) : List (Range × String) :=
  s.calls.zipIdx.filterMap fun (c, i) => c.edit? (values i)

theorem splices_rewrite {s : Script} (h : ∀ c ∈ s.calls, c.replacement = none)
    (values : Nat → Option String) :
    (s.rewrite values).calls.filterMap Call.splice? = s.edits values := by
  rw [rewrite, edits, List.filterMap_map]
  refine List.filterMap_congr fun ⟨c, i⟩ hc => ?_
  exact Call.splice?_given (h c (List.fst_mem_of_mem_zipIdx hc)) (values i)

theorem mem_edits {s : Script} {values : Nat → Option String} {e : Range × String}
    (h : e ∈ s.edits values) : ∃ c ∈ s.calls, c.range = some e.1 := by
  obtain ⟨⟨c, i⟩, hc, he⟩ := List.mem_filterMap.mp h
  exact ⟨c, List.fst_mem_of_mem_zipIdx hc, Call.edit?_eq_some he⟩

theorem pairwise_edits {s : Script} (h : (rangesOf s.calls).Pairwise Range.Apart)
    (values : Nat → Option String) : (s.edits values).Pairwise fun e f => e.1.Apart f.1 := by
  have hcalls := List.pairwise_filterMap.mp h
  rw [← List.zipIdx_map_fst 0 s.calls] at hcalls
  refine List.pairwise_filterMap.mpr ((List.pairwise_map.mp hcalls).imp fun {a b} hab e he f hf => ?_)
  exact hab e.1 (Call.edit?_eq_some he) f.1 (Call.edit?_eq_some hf)

/-! ## what is rewritten -/

theorem withoutMark_of_head? {source : List Char} (h : source.head? ≠ some byteOrderMark) :
    withoutMark source = source := by
  cases source with
  | nil => rfl
  | cons c cs => exact if_neg fun hc => h (congrArg some hc)

theorem exists_tree_of_parse {source : String} {s : Script} (h : parse source = .ok s) :
    ∃ tree, readTree source.toList = .ok tree ∧ s = ⟨source, tree.calls source.toList⟩ := by
  unfold parse at h
  dsimp only at h
  split at h
  · rename_i tree htree
    exact ⟨tree, htree, (Except.ok.inj h).symm⟩
  · exact absurd h (by simp)

theorem parse_of_readTree {source : String} {tree : Node}
    (h : readTree source.toList = .ok tree) :
    parse source = .ok ⟨source, tree.calls source.toList⟩ := by
  unfold parse
  dsimp only
  rw [h]

/-- where a literal call takes its argument from: a call of `require` in the tree passes the string
`raw` alone, and the value is decoded from the text of its piece of the source, which is the string
unless there is a mark or a legacy comment -/
structure Takes (source : List Char) (tree : Node) (c : Call) (r : Range) (raw : String)
    (text : List Char) : Prop where
  passes : tree.Passes ⟨r.start, r.stop, raw⟩
  stands : Stands (withoutMark source) r.start r.stop raw
  slice : slice? source r.start r.stop = some text
  value : c.argument = .literal (Literal.decode text)
  token : source.head? ≠ some byteOrderMark → ∃ comment, text = comment ++ raw.toList ∧
    (comment = [] ∨ ['<', '!', '-', '-'] <+: comment ∨ ['-', '-', '>'] <+: comment)

theorem exists_takes {source : List Char} {tree : Node} (h : readTree source = .ok tree) {c : Call}
    (hc : c ∈ tree.calls source) {r : Range} (hr : c.range = some r) :
    ∃ raw text, Takes source tree c r raw text := by
  obtain ⟨raw, text, hpasses, hslice, hvalue⟩ := (found_of_mem_calls hc).literal r hr
  have hstands := stands_readTree h hpasses.mem_leaves
  refine ⟨raw, text, hpasses, hstands, hslice, hvalue, fun hmark => ?_⟩
  obtain ⟨comment, htext, hcomment⟩ := hstands.slice
  rw [withoutMark_of_head? hmark] at htext
  exact ⟨comment, Option.some.inj (hslice.symm.trans htext), hcomment⟩

theorem pairwise_apart_rangesOf {source : List Char} {tree : Node}
    (h : readTree source = .ok tree) :
    (rangesOf (tree.calls source)).Pairwise Range.Apart := by
  refine pairwise_apart_of_coverage (fun r hr => ?_) fun byte => ?_
  · obtain ⟨c, hc, hrange⟩ := List.mem_filterMap.mp hr
    obtain ⟨raw, text, htakes⟩ := exists_takes h hc hrange
    exact htakes.stands.lt
  · exact Nat.le_trans (coverage_calls_le ⟨withoutMark source, byte⟩ source tree)
      (weigh_readTree h byte)

/-- without a mark, no literal call is missed -/
theorem exists_range_of_passes {source : List Char} {tree : Node} (h : readTree source = .ok tree)
    (hmark : source.head? ≠ some byteOrderMark) {l : Leaf} (hl : tree.Passes l) :
    ∃ c ∈ tree.calls source, c.range = some ⟨l.start, l.stop⟩ := by
  obtain ⟨comment, htext, -⟩ := (stands_readTree h hl.mem_leaves).slice
  rw [withoutMark_of_head? hmark] at htext
  exact exists_call_of_passes hl htext

/-- **A rewritten script is rendered with the new values in place of the arguments.**  No two
arguments have a byte in common, all pieces that are copied are there, and every argument is a
string of the source. -/
theorem render_rewrite {source : String} {s : Script} (h : parse source = .ok s)
    (values : Nat → Option String) :
    (s.rewrite values).render = String.ofList (edited (s.edits values) 0 source.toList) ∧
      Sliceable source.toList 0 (sortSplices (s.edits values)) ∧
      (rangesOf s.calls).Pairwise Range.Apart ∧
      ∃ tree, readTree source.toList = .ok tree ∧
        (∀ c ∈ s.calls, ∀ r, c.range = some r →
          ∃ raw text, Takes source.toList tree c r raw text) ∧
        (source.toList.head? ≠ some byteOrderMark → ∀ l, tree.Passes l →
          ∃ c ∈ s.calls, c.range = some ⟨l.start, l.stop⟩) := by
  obtain ⟨tree, htree, rfl⟩ := exists_tree_of_parse h
  generalize hs : (⟨source, tree.calls source.toList⟩ : Script) = s
  have hsource : (s.rewrite values).source.toList = source.toList := by rw [← hs]; rfl
  have hcalls : s.calls = tree.calls source.toList := by rw [← hs]
  have hapart : (rangesOf s.calls).Pairwise Range.Apart := by
    rw [hcalls]
    exact pairwise_apart_rangesOf htree
  have htakes : ∀ c ∈ s.calls, ∀ r, c.range = some r →
      ∃ raw text, Takes source.toList tree c r raw text := by
    rw [hcalls]
    exact fun c hc r hr => exists_takes htree hc hr
  have hsplices : (s.rewrite values).calls.filterMap Call.splice? = s.edits values :=
    splices_rewrite (fun c hc => (found_of_mem_calls (hcalls ▸ hc)).untouched) values
  have hon : ∀ e ∈ s.edits values, e.1.On source.toList := fun e he => by
    obtain ⟨c, hc, hr⟩ := mem_edits he
    obtain ⟨raw, text, htakes⟩ := htakes c hc e.1 hr
    exact ⟨htakes.stands.lt, text, htakes.slice⟩
  have hrender := render_eq_edited (s.rewrite values) (by rwa [hsplices, hsource])
    (by rw [hsplices]; exact pairwise_edits hapart values)
  rw [hsplices, hsource] at hrender
  refine ⟨hrender.2, hrender.1, hapart, tree, htree, htakes, fun hmark l hl => ?_⟩
  rw [hcalls]
  exact exists_range_of_passes htree hmark hl

/-- what can be computed of a parsed script holds of it -/
theorem exists_parse {α : Type} (source : String) (f : Script → α) {a : α}
    (h : (parse source).toOption.map f = some a) : ∃ s, parse source = .ok s ∧ f s = a := by
  cases hs : parse source with
  | error e =>
    rw [hs] at h
    cases h
  | ok s =>
    rw [hs] at h
    exact ⟨s, rfl, Option.some.inj h⟩

/-- of two calls that are given a new value, one takes it; more bytes than characters are before it -/
theorem render_rewrite_two_calls : ∃ s, parse "f('é', require('./a'), require(x));" = .ok s ∧
    s.calls.map Call.literal? = [some "./a", none] ∧
    s.edits (fun _ => some "./n.js") = [(⟨16, 21⟩, "./n.js")] ∧
    (s.rewrite fun _ => some "./n.js").render = "f('é', require(\"./n.js\"), require(x));" := by
  obtain ⟨s, hs, hboth⟩ := exists_parse "f('é', require('./a'), require(x));"
    (fun s => (s.calls.map Call.literal?, s.edits fun _ => some "./n.js"))
    (a := ([some "./a", none], [(⟨16, 21⟩, "./n.js")])) (by decide +kernel)
  obtain ⟨hliterals, hedits⟩ := Prod.mk.inj hboth
  refine ⟨s, hs, hliterals, hedits, ?_⟩
  rw [(render_rewrite hs _).1, hedits]
  decide +kernel

/-- a mark moves the piece that is replaced, and a legacy comment is replaced with the argument -/
theorem replaced_other_bytes :
    (∃ s, parse "\ufeffrequire('./a')" = .ok s ∧
      s.calls.map Call.literal? = [some "e('"] ∧
      (s.rewrite fun _ => some "./n.js").render = "\ufeffrequi\"./n.js\"/a')") ∧
    ∃ s, parse "require(<!-- c\n'./a')" = .ok s ∧
      s.calls.map Call.literal? = [some "!-- c\n'./a"] ∧
      (s.rewrite fun _ => some "./n.js").render = "require(\"./n.js\")" := by
  constructor
  · obtain ⟨s, hs, hboth⟩ := exists_parse "\ufeffrequire('./a')"
      (fun s => (s.calls.map Call.literal?, (s.rewrite fun _ => some "./n.js").render))
      (a := ([some "e('"], "\ufeffrequi\"./n.js\"/a')")) (by decide +kernel)
    exact ⟨s, hs, Prod.mk.inj hboth⟩
  · obtain ⟨s, hs, hboth⟩ := exists_parse "require(<!-- c\n'./a')"
      (fun s => (s.calls.map Call.literal?, (s.rewrite fun _ => some "./n.js").render))
      (a := ([some "!-- c\n'./a"], "require(\"./n.js\")")) (by decide +kernel)
    exact ⟨s, hs, Prod.mk.inj hboth⟩

end Bindle.Script
