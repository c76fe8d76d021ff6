import Bindle.Proofs.Build.Failures
import Bindle.Proofs.Bundle.Registry
import Bindle.Proofs.Script.Nodes
import Bindle.Proofs.Script.Rewriting

/-!
# No request is left

A request is a plain call of the name `require`, at any depth of a script.  All of them are found;
an extraction fails when one of them is refused, and otherwise each is given the id of its dependency.

* `Node.isPlainRequire`   a call of the bare name; others are optional, or have it in parentheses;
* `Site.Answered`         a request with its dependency, and its place in the new text;
* `Settings.Answers`      the text of a module, in which the literals of requests are replaced.

Main result: `Bundle.requests_compilation`.  Optional calls and calls of the name in parentheses are no
requests, so nothing is done about them (`wrapped_calls_left`).
-/

namespace Bindle

namespace Script

open Bindle.Text

/-! ## calls of the name -/

/-- a call of the bare name `require` -/
def Node.isPlainRequire (n : Node) : Bool := n.kind = .call && n.parts.head?.any isRequire

/-- an optional call of `require` -/
def Node.isOptionalRequire (n : Node) : Bool := n.kind = .optional && n.parts.head?.any isRequire

/-- a call of `require` in parentheses -/
def Node.isParenthesizedRequire (n : Node) : Bool :=
  n.kind = .call && n.parts.head?.any fun callee =>
    callee.kind = .parenthesized && callee.parts.head?.any isRequire

/-- **Requests are the plain calls of the bare name.** -/
theorem Node.request?_isSome_iff (source : List Char) (n : Node) :
    (n.request? source).isSome = true ↔ n.isPlainRequire = true := by
  obtain ⟨kind, start, stop, parts⟩ := n
  unfold isPlainRequire
  by_cases hkind : kind = .call
  · subst hkind
    cases parts with
    | nil => simp [request?, Node.parts]
    | cons callee args =>
      unfold request?
      cases h : isRequire callee <;> simp [h, Node.kind, Node.parts]
  · have hnone : request? source (.mk kind start stop parts) = none := by
      unfold request?
      split
      · rename_i heq
        exact absurd (Node.mk.inj heq).1 hkind
      · rfl
    rw [hnone]
    simp [Node.kind, hkind]

/-- neither an optional call nor one of a name in parentheses is a plain one -/
theorem Node.request?_eq_none_of_wrapped (source : List Char) {n : Node}
    (h : n.isOptionalRequire = true ∨ n.isParenthesizedRequire = true) :
    n.request? source = none := by
  refine Option.not_isSome_iff_eq_none.mp fun hsome => ?_
  have hplain := (request?_isSome_iff source n).mp hsome
  unfold isPlainRequire at hplain
  obtain ⟨hcall, hbare⟩ := Bool.and_eq_true_iff.mp hplain
  rcases h with h | h
  · have hoptional := of_decide_eq_true (Bool.and_eq_true_iff.mp h).1
    rw [of_decide_eq_true hcall] at hoptional
    cases hoptional
  · obtain ⟨callee, hcallee, hname⟩ := (Option.any_eq_true _ _).mp hbare
    have hwrapped := (Bool.and_eq_true_iff.mp h).2
    rw [hcallee, Option.any_some] at hwrapped
    have hparenthesized := of_decide_eq_true (Bool.and_eq_true_iff.mp hwrapped).1
    rw [of_decide_eq_true hname] at hparenthesized
    cases hparenthesized

/-! ## new values for all calls -/

/-- calls that stand for dependencies are those of a script that was rewritten -/
theorem with_standFor_eq_rewrite {s : Script} {pairs : List (Call × Dependency)}
    (hcalls : pairs.map Prod.fst = s.calls)
    (hlit : ∀ f ∈ pairs, f.1.argument = .literal f.2.specifier) :
    ({ s with calls := pairs.map (fun f => f.1.standFor f.2.id) } : Script) =
      s.rewrite (fun i => pairs[i]?.map (·.2.id.text)) := by
  unfold rewrite
  rw [← hcalls, List.zipIdx_map, List.map_map]
  congr 1
  nth_rewrite 1 [← List.zipIdx_map_fst 0 pairs]
  rw [List.map_map]
  refine List.map_congr_left fun ⟨f, i⟩ hf => ?_
  have hget : pairs[i]? = some f := by simpa using List.mem_zipIdx_iff_getElem?.mp hf
  have hmem : f ∈ pairs := List.mem_of_getElem? hget
  show f.1.standFor f.2.id = f.1.given (pairs[i]?.map _)
  rw [hget]
  exact (congrArg Prod.fst (Call.replace_of_literal (hlit f hmem) f.2.id)).symm

theorem mem_edits_of_mem {s : Script} {pairs : List (Call × Dependency)}
    (hcalls : pairs.map Prod.fst = s.calls) {f : Call × Dependency} (hf : f ∈ pairs) {r : Range}
    (hr : f.1.range = some r) :
    (r, f.2.id.text) ∈ s.edits (fun i => pairs[i]?.map (·.2.id.text)) := by
  obtain ⟨i, hi⟩ := List.mem_iff_getElem?.mp hf
  refine List.mem_filterMap.mpr ⟨(f.1, i), ?_, ?_⟩
  · rw [List.mem_zipIdx_iff_getElem?, ← hcalls, List.getElem?_map, hi]
    rfl
  · show f.1.edit? (pairs[i]?.map _) = _
    rw [hi, Call.edit?, hr]
    rfl

/-- and nothing else is replaced -/
theorem exists_of_mem_edits {s : Script} {pairs : List (Call × Dependency)}
    (hcalls : pairs.map Prod.fst = s.calls) {e : Range × String}
    (he : e ∈ s.edits (fun i => pairs[i]?.map (·.2.id.text))) :
    ∃ f ∈ pairs, f.1.range = some e.1 ∧ e.2 = f.2.id.text := by
  obtain ⟨⟨c, i⟩, hc, hedit⟩ := List.mem_filterMap.mp he
  obtain ⟨r, hr, hvalue⟩ := Option.bind_eq_some_iff.mp hedit
  obtain ⟨text, htext, rfl⟩ := Option.map_eq_some_iff.mp hvalue
  obtain ⟨f, hf, rfl⟩ := Option.map_eq_some_iff.mp htext
  rw [List.mem_zipIdx_iff_getElem?, ← hcalls, List.getElem?_map, hf] at hc
  obtain rfl := Option.some.inj hc
  exact ⟨f, List.mem_of_getElem? hf, hr, rfl⟩

/-- the text of a script with new values for its calls -/
theorem render_eq_edited_edits {source : List Char} {tree : Node}
    (h : readTree source = .ok tree) {s : Script} (hsource : s.source.toList = source)
    (hcalls : s.calls = tree.calls source) (values : Nat → Option String) :
    (s.rewrite values).render = String.ofList (edited (s.edits values) 0 source) ∧
      (s.edits values).Pairwise fun e f => e.1.Apart f.1 := by
  have hapart : (rangesOf s.calls).Pairwise Range.Apart := by
    rw [hcalls]
    exact pairwise_apart_rangesOf h
  have hon : ∀ e ∈ s.edits values, e.1.On source := fun e he => by
    obtain ⟨c, hc, hr⟩ := mem_edits he
    obtain ⟨raw, text, htakes⟩ := exists_takes h (hcalls ▸ hc) hr
    exact ⟨htakes.stands.lt, text, htakes.slice⟩
  have hsplices : (s.rewrite values).calls.filterMap Call.splice? = s.edits values :=
    splices_rewrite (fun c hc => (found_of_mem_calls (hcalls ▸ hc)).untouched) values
  have hrewritten : (s.rewrite values).source.toList = source := hsource
  have hrender := (render_eq_edited (s.rewrite values) (by rwa [hsplices, hrewritten])
    (by rw [hsplices]; exact pairwise_edits hapart values)).2
  rw [hsplices, hrewritten] at hrender
  exact ⟨hrender, pairwise_edits hapart values⟩

end Script

open Script

variable {fits : (q : Question) → q.Answer → Prop}

/-- the request `c` is a literal, `d` is what it resolves to, and the id of `d` takes the place of
the literal -/
structure Site.Answered (site : Site) (fits : (q : Question) → q.Answer → Prop) (source : List Char)
    (tree : Node) (edits : List (Range × String)) (c : Call) (d : Dependency) : Prop where
  found : site.Finds fits c d
  edited : ∃ r raw text, c.range = some r ∧ Takes source tree c r raw text ∧
    (r, d.id.text) ∈ edits

/-- in the text of `m`, which was `source`, every request is answered, and nothing but the literals of
requests is replaced -/
structure Settings.Answers (s : Settings) (fits : (q : Question) → q.Answer → Prop) (m : Module)
    (source : List Char) (tree : Node) (edits : List (Range × String)) : Prop where
  text : m.source = String.ofList (edited edits 0 source)
  apart : edits.Pairwise fun e f => e.1.Apart f.1
  answered : ∀ n ∈ tree.nodes, ∀ c, n.request? source = some c →
    ∃ d ∈ m.dependencies, (s.site m.path).Answered fits source tree edits c d
  only : ∀ e ∈ edits, ∃ n ∈ tree.nodes, ∃ c, n.request? source = some c ∧
    ∃ d ∈ m.dependencies, (s.site m.path).Answered fits source tree edits c d ∧
      c.range = some e.1 ∧ e.2 = d.id.text

/-- sources are parsed as scripts -/
def ParsesScripts (fits : (q : Question) → q.Answer → Prop) : Prop :=
  ∀ source tree, fits (.parse source) (.ok tree) →
    ∃ s, Script.parse source = .ok s ∧ tree = s.tree

theorem parsesScripts_known {answer : (q : Question) → q.Answer}
    (h : ∀ source, answer (.parse source) = Script.parser source) :
    ParsesScripts (Dialogue.Known answer) := by
  intro source tree hfits
  have hparse : Script.parser source = .ok tree := (h source).symm.trans hfits.symm
  unfold Script.parser at hparse
  cases hs : Script.parse source with
  | error e =>
    rw [hs] at hparse
    cases hparse
  | ok s =>
    rw [hs] at hparse
    exact ⟨s, rfl, (Except.ok.inj hparse).symm⟩

/-! ## extractions and bundles -/

/-- an extraction does not get past a call that is dynamic -/
theorem exists_failure_of_dynamic {site : Site} {calls : List Call} {x : Extraction}
    (h : (extract site calls).EndsIn fits x) {c : Call} (hc : c ∈ calls)
    (hdynamic : c.argument.isLiteral = false) : ∃ e, x.failure = some e := by
  cases hx : x.failure with
  | none =>
    obtain ⟨pairs, rfl, -, -, hfinds⟩ := pairs_of_extract h hx
    obtain ⟨f, hf, rfl⟩ := List.mem_map.mp hc
    rw [(hfinds f hf).literal] at hdynamic
    cases hdynamic
  | some e => exact ⟨e, rfl⟩

/-- what a module was made from answers its requests -/
theorem Settings.Paired.answers {s : Settings} (hparser : ParsesScripts fits) {m : Module}
    {tree : SyntaxTree} {pairs : List (Call × Dependency)} (h : s.Paired fits m tree pairs) :
    ∃ raw source root edits, fits (.text m.path) (.ok raw) ∧
      Rule.load s.rules m.id m.path raw = .ok source ∧ readTree source.toList = .ok root ∧
      s.Answers fits m source.toList root edits := by
  obtain ⟨raw, source, hraw, hload, hparse⟩ := h.parsed
  obtain ⟨t, ht, rfl⟩ := hparser source tree hparse
  have hlit : ∀ f ∈ pairs, f.1.argument = .literal f.2.specifier := fun f hf =>
    (h.finds f hf).literal
  have hcalls : pairs.map Prod.fst = t.calls := h.calls_eq
  obtain ⟨root, hroot, heq⟩ := exists_tree_of_parse ht
  have htree : t.calls = root.calls source.toList := by rw [heq]
  obtain ⟨hrender, hapart⟩ := render_eq_edited_edits hroot (by rw [heq]) htree
    (fun i => pairs[i]?.map (·.2.id.text))
  have hsource : m.source =
      ({ t with calls := pairs.map (fun f => f.1.standFor f.2.id) } : Script).render := h.source_eq
  rw [with_standFor_eq_rewrite hcalls hlit, hrender] at hsource
  have hrequests : ∀ c, c ∈ t.calls ↔
      ∃ n ∈ root.nodes, n.request? source.toList = some c := by
    intro c
    rw [htree, Node.calls_eq_filterMap, List.mem_filterMap]
  have hanswered : ∀ f ∈ pairs, f.2 ∈ m.dependencies ∧ (s.site m.path).Answered fits source.toList
      root (t.edits fun i => pairs[i]?.map (·.2.id.text)) f.1 f.2 := by
    intro f hf
    obtain ⟨r, hr⟩ := Call.exists_range (hlit f hf)
    have hmem : f.1 ∈ t.calls := hcalls ▸ List.mem_map_of_mem hf
    obtain ⟨raw', text, htaken⟩ := exists_takes hroot (htree ▸ hmem) hr
    exact ⟨h.dependencies_eq ▸ List.mem_map_of_mem hf, h.finds f hf, r, raw', text, hr, htaken,
      mem_edits_of_mem hcalls hf hr⟩
  refine ⟨raw, source, root, _, hraw, hload, hroot, hsource, hapart, fun n hn c hc => ?_,
    fun e he => ?_⟩
  · have hmem : c ∈ t.calls := (hrequests c).mpr ⟨n, hn, hc⟩
    obtain ⟨f, hf, rfl⟩ := List.mem_map.mp (hcalls.symm ▸ hmem)
    exact ⟨f.2, hanswered f hf⟩
  · obtain ⟨f, hf, hr, htext⟩ := exists_of_mem_edits hcalls he
    obtain ⟨n, hn, hc⟩ := (hrequests f.1).mp (hcalls ▸ List.mem_map_of_mem hf)
    obtain ⟨hd, ha⟩ := hanswered f hf
    exact ⟨n, hn, f.1, hc, f.2, hd, ha, hr, htext⟩

theorem exists_paired_of_compilation {σ : Type} {o : Options σ} {limit : Nat} {made : Compilation}
    (h : (compilation o limit).EndsIn fits (.ok made)) {c : Chunk} {m : Module}
    (hm : m ∈ Bundle.modulesOf c made.graph) :
    ∃ tree pairs, o.settings.Paired fits m tree pairs := by
  obtain ⟨built, g, hbuilt, hmade⟩ := compiled_of_compilation h
  have hanalyses : o.settings.Analyses fits made.graph :=
    hmade.graph_eq ▸ analyses_of_buildEntries hbuilt
  obtain ⟨id, -, hfind⟩ := List.mem_filterMap.mp hm
  obtain ⟨hid, hanalysed⟩ := hanalyses m (ModuleGraph.find?_eq_some_iff.mp hfind).1
  exact hanalysed.exists_paired hid

/-- **No request is skipped.**  The calls of a script are the plain calls of the bare name in its tree,
each before those inside it.  An extraction fails at the first call that is refused, and does not get
past a dynamic one.  In a bundle, every request of every module was a literal, and the id of what it
resolves to stands in its place; nothing else is replaced. -/
theorem Bundle.requests_compilation {σ : Type} {o : Options σ} {limit : Nat}
    (hparser : ParsesScripts fits) :
    (∀ source s, Script.parse source = .ok s → ∃ root, readTree source.toList = .ok root ∧
      s.calls = root.nodes.filterMap (Node.request? source.toList)) ∧
    (∀ source n, ((Node.request? source n).isSome = true ↔ n.isPlainRequire = true) ∧
      (n.isOptionalRequire = true ∨ n.isParenthesizedRequire = true → n.request? source = none)) ∧
    (∀ site calls x, (extract site calls).EndsIn fits x →
      (∀ e, x.failure = some e → ∃ before c after, calls = before ++ c :: after ∧
        (∀ b ∈ before, ∃ d, site.Finds fits b d) ∧ site.Refuses fits c e) ∧
      ∀ c ∈ calls, c.argument.isLiteral = false → ∃ e, x.failure = some e) ∧
    ∀ made, (compilation o limit).EndsIn fits (.ok made) → ∀ c ∈ made.chunks,
      ∀ m ∈ Bundle.modulesOf c made.graph, ∃ raw source root edits,
        fits (.text m.path) (.ok raw) ∧ Rule.load o.rules m.id m.path raw = .ok source ∧
        readTree source.toList = .ok root ∧
        o.settings.Answers fits m source.toList root edits := by
  refine ⟨fun source s h => ?_, fun source n => ?_, fun site calls x h => ?_,
    fun made h c hc m hm => ?_⟩
  · obtain ⟨root, hroot, rfl⟩ := exists_tree_of_parse h
    exact ⟨root, hroot, Node.calls_eq_filterMap source.toList root⟩
  · exact ⟨Node.request?_isSome_iff source n, Node.request?_eq_none_of_wrapped source⟩
  · exact ⟨fun e hx => exists_refuses_of_extract h hx, fun c => exists_failure_of_dynamic h⟩
  · obtain ⟨tree, pairs, hpaired⟩ := exists_paired_of_compilation h hm
    exact hpaired.answers hparser

/-- requests in an arrow function and in a template -/
def nestedFiles : Memory :=
  .ofList [(⟨"/p/main.js"⟩, .text "f(() => require('./a'), `$\x7brequire('./b')\x7d`);"),
    (⟨"/p/a.js"⟩, .text ""), (⟨"/p/b.js"⟩, .text "")]

def nesting : Options Unit := (Options.new ⟨"/p"⟩).entry "main" "./main"

/-- both have the id of their dependency in the bundle -/
theorem requests_nested : ∃ made c,
    (compilation nesting ModuleGraph.capacity).EndsIn
      (Dialogue.Known (nestedFiles.answer Script.parser)) (.ok made) ∧ c ∈ made.chunks ∧
    (Bundle.modulesOf c made.graph).map Module.source =
      ["f(() => require(\"./a.js\"), `$\x7brequire(\"./b.js\")\x7d`);", "", ""] ∧
    ∀ m ∈ Bundle.modulesOf c made.graph, ∃ source root edits, readTree source = .ok root ∧
      nesting.settings.Answers (Dialogue.Known (nestedFiles.answer Script.parser)) m source root
        edits := by
  have hr : ((compilation nesting ModuleGraph.capacity).result
      (nestedFiles.answer Script.parser)).toOption.map
        (fun made => made.chunks.map (fun c => (Bundle.modulesOf c made.graph).map Module.source)) =
      some [["f(() => require(\"./a.js\"), `$\x7brequire(\"./b.js\")\x7d`);", "", ""]] := by
    decide +kernel
  have hparser : ParsesScripts (Dialogue.Known (nestedFiles.answer Script.parser)) :=
    parsesScripts_known fun _ => rfl
  generalize nesting = o at hr ⊢
  generalize nestedFiles.answer Script.parser = answer at hr hparser ⊢
  cases hmade : (compilation o ModuleGraph.capacity).result answer with
  | error e =>
    rw [hmade] at hr
    cases hr
  | ok made =>
    rw [hmade] at hr
    obtain ⟨c, hc, hsources⟩ := List.map_eq_singleton_iff.mp (Option.some.inj hr)
    have hmem : c ∈ made.chunks := hc ▸ List.mem_cons_self
    have hend := Dialogue.endsIn_known.mpr hmade
    refine ⟨made, c, hend, hmem, hsources, fun m hm => ?_⟩
    obtain ⟨raw, source, root, edits, -, -, hroot, hanswers⟩ :=
      (Bundle.requests_compilation hparser).2.2.2 made hend c hmem m hm
    exact ⟨source.toList, root, edits, hroot, hanswers⟩

def wrappedFiles : Memory :=
  .ofList [(⟨"/p/main.js"⟩, .text "require?.('./a'); (require)('./b');")]

/-- **Neither is a request.**  The script is accepted, and both calls reach the bundle as they are
written, although the files that they ask for do not exist. -/
theorem wrapped_calls_left :
    (∃ root, readTree "require?.('./a'); (require)('./b');".toList = .ok root ∧
      (∃ n ∈ root.nodes, n.isOptionalRequire) ∧ (∃ n ∈ root.nodes, n.isParenthesizedRequire) ∧
      root.nodes.filterMap (Node.request? "require?.('./a'); (require)('./b');".toList) = []) ∧
    ∃ made, (compilation nesting ModuleGraph.capacity).EndsIn
        (Dialogue.Known (wrappedFiles.answer Script.parser)) (.ok made) ∧
      made.graph.modules.map (fun m => (m.source, m.dependencies)) =
        [("require?.('./a'); (require)('./b');", [])] := by
  constructor
  · have h : (readTree "require?.('./a'); (require)('./b');".toList).toOption.any (fun root =>
        root.nodes.any (·.isOptionalRequire) && root.nodes.any (·.isParenthesizedRequire) &&
          (root.nodes.filterMap
            (Node.request? "require?.('./a'); (require)('./b');".toList)).isEmpty) = true := by
      decide +kernel
    generalize "require?.('./a'); (require)('./b');".toList = source at h ⊢
    cases hroot : readTree source with
    | error e =>
      rw [hroot] at h
      cases h
    | ok root =>
      rw [hroot] at h
      change (_ && _) = true at h
      simp only [Bool.and_eq_true, List.any_eq_true, List.isEmpty_iff] at h
      exact ⟨root, rfl, h.1.1, h.1.2, h.2⟩
  · have h : ((compilation nesting ModuleGraph.capacity).result
        (wrappedFiles.answer Script.parser)).toOption.map
          (fun made => made.graph.modules.map (fun m => (m.source, m.dependencies))) =
        some [("require?.('./a'); (require)('./b');", [])] := by decide +kernel
    generalize hmade : (compilation nesting ModuleGraph.capacity).result
      (wrappedFiles.answer Script.parser) = result at h
    cases result with
    | error e => cases h
    | ok made => exact ⟨made, Dialogue.endsIn_known.mpr hmade, Option.some.inj h⟩

end Bindle
