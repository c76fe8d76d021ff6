import Bindle.Proofs.Compiler.Locality
import Bindle.Proofs.Graph.Growth

/-!
# Further extensions

Extensions are tried in their order, so further ones at the end are tried where all else has failed.
A build that goes well has found every file before it comes to them: it goes the same way with them,
question by question, and ends in the same (`compilation_withMore`).

* `Settings.withMore`    the settings with further extensions;
* `Options.withMore`     the options with further extensions;
* `Host.Unchanging`      the answers of a host stay what they are while it is asked.

Main result: `compile_withMore`.  A build that fails may go well with further extensions.
-/

namespace Bindle

variable {fits : (q : Question) → q.Answer → Prop}

/-! ## specifiers -/

/-- a file that was found is found when there is more to try after it -/
theorem firstFile_append {ps : List Path} {p : Path} (more : List Path)
    (h : (firstFile ps).EndsIn fits (some p)) : (firstFile (ps ++ more)).EndsIn fits (some p) := by
  induction ps with
  | nil => cases Dialogue.endsIn_done.mp h
  | cons q ps ih =>
    obtain ⟨found, hfits, h⟩ := Dialogue.endsIn_ask.mp h
    refine .ask hfits ?_
    cases found with
    | true => exact h
    | false => exact ih h

theorem candidates_append (extensions more : List String) (base : Path) (specifier : String) :
    candidates (extensions ++ more) base specifier =
      candidates extensions base specifier ++
        more.map (fun e => ⟨(base.join specifier).normalize.text ++ e⟩) := by
  show _ :: (extensions ++ more).map _ = _ :: (extensions.map _ ++ more.map _)
  rw [List.map_append]

theorem resolve_append {extensions : List String} {base : Path} {specifier : String}
    {importer : Option ModuleId} {p : Path} (more : List String)
    (h : (resolve extensions base specifier importer).EndsIn fits (.ok p)) :
    (resolve (extensions ++ more) base specifier importer).EndsIn fits (.ok p) := by
  obtain ⟨found, hfound, h⟩ := Dialogue.endsIn_bind.mp h
  cases found with
  | none => cases Dialogue.endsIn_done.mp h
  | some q =>
    refine Dialogue.endsIn_bind.mpr ⟨some q, ?_, h⟩
    rw [candidates_append]
    exact firstFile_append _ hfound

/-! ## files -/

def Site.withMore (site : Site) (more : List String) : Site :=
  { site with extensions := site.extensions ++ more }

theorem extract_withMore {site : Site} {calls : List Script.Call} {x : Extraction}
    (more : List String) (h : (extract site calls).EndsIn fits x) (hx : x.failure = none) :
    (extract (site.withMore more) calls).EndsIn fits x := by
  induction calls generalizing x with
  | nil => exact h
  | cons c cs ih =>
    unfold extract at h ⊢
    cases hc : c.argument with
    | dynamic written =>
      simp only [hc] at h
      rw [Dialogue.endsIn_done.mp h] at hx
      cases hx
    | literal specifier =>
      simp only [hc] at h ⊢
      obtain ⟨resolved, hresolved, h⟩ := Dialogue.endsIn_bind.mp h
      cases resolved with
      | error e =>
        rw [Dialogue.endsIn_done.mp h] at hx
        cases hx
      | ok path =>
        obtain ⟨rest, hrest, h⟩ := Dialogue.endsIn_bind.mp h
        obtain rfl := Dialogue.endsIn_done.mp h
        have hpath : (resolve (site.withMore more).extensions site.directory specifier
            (some site.id)).EndsIn fits (.ok path) := resolve_append more hresolved
        exact Dialogue.endsIn_bind.mpr
          ⟨.ok path, hpath, Dialogue.endsIn_bind.mpr ⟨rest, ih hrest hx, .done _⟩⟩

namespace Settings

def withMore (s : Settings) (more : List String) : Settings :=
  { s with extensions := s.extensions ++ more }

variable {s : Settings}

theorem analysed_withMore {p : Path} {found : List Dependency × String} (more : List String)
    (h : s.Analysed fits p found) : (s.withMore more).Analysed fits p found := by
  obtain ⟨raw, source, tree, x, htext, hload, hparsed, hx, hok, hfound⟩ := h
  exact ⟨raw, source, tree, x, htext, hload, hparsed, extract_withMore more hx hok, hok, hfound⟩

theorem analyse_withMore {p : Path} {a : Analysis} {found : List Dependency × String}
    (more : List String) (h : (s.analyse p).EndsIn fits a) (ha : a.outcome = .ok found) :
    ((s.withMore more).analyse p).EndsIn fits a := by
  obtain ⟨hanalysed, hfiles⟩ := analysed_and_files_of_analyse h ha
  obtain ⟨a', h', ha'⟩ := (analysed_withMore more hanalysed).exists_analyse
  obtain ⟨-, hfiles'⟩ := analysed_and_files_of_analyse h' ha'
  -- both analyses come to the same files and to the same outcome
  obtain rfl : a' = a := by
    cases a
    cases a'
    simp only at ha ha' hfiles hfiles'
    rw [ha, ha', hfiles, hfiles']
  exact h'

end Settings

/-! ## graphs -/

section

variable {s : Settings} {name : String} {limit : Nat}

theorem expand_withMore {onward onward' : Onward} {g' : Growth} (more : List String)
    (honward : ∀ paths g, (onward paths g).EndsIn fits (none, g') →
      (onward' paths g).EndsIn fits (none, g'))
    {p : Path} {rest : List Path} {g : Growth}
    (h : (expand s name onward p rest g).EndsIn fits (none, g')) :
    (expand (s.withMore more) name onward' p rest g).EndsIn fits (none, g') := by
  obtain ⟨a, ha, h⟩ := Dialogue.endsIn_bind.mp h
  cases ho : a.outcome with
  | error e =>
    simp only [ho] at h
    cases Dialogue.endsIn_done.mp h
  | ok found =>
    simp only [ho] at h
    refine Dialogue.endsIn_bind.mpr ⟨a, Settings.analyse_withMore more ha ho, ?_⟩
    simp only [ho]
    exact honward _ _ h

theorem grow_withMore {room : Nat} {paths : List Path} {g g' : Growth} (more : List String)
    (h : (grow s name limit room paths g).EndsIn fits (none, g')) :
    (grow (s.withMore more) name limit room paths g).EndsIn fits (none, g') := by
  have hid : ∀ p, (s.withMore more).idOf p = s.idOf p := fun _ => rfl
  induction room generalizing paths g with
  | zero => exact walk_congr hid (fun _ _ _ hfull => hfull) h
  | succ room ih => exact walk_congr hid (fun _ _ _ => expand_withMore more fun _ _ => ih) h

/-- **A module that was built is built the same way.** -/
theorem build_withMore {p : Path} {g g' : Growth} {id : ModuleId} (more : List String)
    (h : (build s limit name p g).EndsIn fits (.ok id, g')) :
    (build (s.withMore more) limit name p g).EndsIn fits (.ok id, g') := by
  obtain ⟨⟨failure, g₁⟩, hgrow, h⟩ := Dialogue.endsIn_bind.mp h
  cases failure with
  | some e => cases Dialogue.endsIn_done.mp h
  | none => exact Dialogue.endsIn_bind.mpr ⟨(none, g₁), grow_withMore more hgrow, h⟩

theorem buildEntry_withMore {specifier : String} {g g' : Growth} {id : ModuleId}
    (more : List String) (h : (buildEntry s limit name specifier g).EndsIn fits (.ok id, g')) :
    (buildEntry (s.withMore more) limit name specifier g).EndsIn fits (.ok id, g') := by
  obtain ⟨resolved, hresolved, h⟩ := Dialogue.endsIn_bind.mp h
  cases resolved with
  | error e => cases Dialogue.endsIn_done.mp h
  | ok p =>
    exact Dialogue.endsIn_bind.mpr ⟨.ok p, resolve_append more hresolved, build_withMore more h⟩

theorem buildEntries_withMore {entries : List (String × String)}
    {built : List (String × ModuleId)} {g g' : Growth} (more : List String)
    (h : (buildEntries s limit entries g).EndsIn fits (.ok built, g')) :
    (buildEntries (s.withMore more) limit entries g).EndsIn fits (.ok built, g') := by
  induction entries generalizing built g with
  | nil => exact h
  | cons e entries ih =>
    obtain ⟨id, g₁, rest, hfirst, hrest, rfl⟩ := buildEntries_cons h
    exact Dialogue.endsIn_bind.mpr ⟨(.ok id, g₁), buildEntry_withMore more hfirst,
      Dialogue.endsIn_bind.mpr ⟨(.ok rest, g'), ih hrest, .done _⟩⟩

end

/-! ## compilations -/

variable {σ α : Type}

def Options.withMore (o : Options σ) (more : List String) : Options σ :=
  { o with extensions := o.extensions ++ more }

/-- file names and bundles do not tell what extensions there are -/
theorem renderChunks_withMore (o : Options σ) (more : List String) (g : ModuleGraph)
    (chunks : List Chunk) (owners assets : Table String) :
    renderChunks (o.withMore more) g chunks owners assets =
      renderChunks o g chunks owners assets := by
  induction chunks generalizing owners assets with
  | nil => rfl
  | cons c cs ih =>
    have hname : (o.withMore more).filenameFor c.name = o.filenameFor c.name := rfl
    unfold renderChunks
    simp only [hname, ih]

/-- **A compilation that was made is made the same way**, whether the files change meanwhile or not -/
theorem compilation_withMore {o : Options σ} {limit : Nat} {made : Compilation}
    (more : List String) (h : (compilation o limit).EndsIn fits (.ok made)) :
    (compilation (o.withMore more) limit).EndsIn fits (.ok made) := by
  obtain ⟨⟨result, g⟩, hbuilt, hmade⟩ := endsIn_compilation.mp h
  cases result with
  | error e => cases hmade
  | ok built =>
    have hsame : compilationOf (o.withMore more) built g = compilationOf o built g := by
      simp only [compilationOf, renderChunks_withMore]
    exact endsIn_compilation.mpr
      ⟨(.ok built, g), buildEntries_withMore more hbuilt, hmade.trans hsame.symm⟩

namespace Host

/-- in the states `S` the host gives the answers `answer` to all questions, and stays there; its state
may change, as one does that counts the questions -/
structure Unchanging (h : Host (StateM α)) (answer : (q : Question) → q.Answer) (S : α → Prop) :
    Prop where
  answer_eq : ∀ q s, S s → (h.answer q s).1 = answer q
  stays : ∀ q s, S s → S (h.answer q s).2

theorem Unchanging.ask_eq {h : Host (StateM α)} {answer : (q : Question) → q.Answer} {S : α → Prop}
    (hh : h.Unchanging answer S) {β : Type} (d : Dialogue β) {s : α} (hs : S s) :
    (h.ask d s).1 = d.result answer := by
  induction d generalizing s with
  | done b => rfl
  | ask q next ih =>
    show ((h.answer q >>= fun a => h.ask (next a)) s).1 = _
    rw [state_bind (Prod.eta (h.answer q s)).symm, ih _ (hh.stays q s hs), hh.answer_eq q s hs]
    rfl

end Host

theorem Memory.unchanging_host (m : Memory) (parser : Parser) :
    (Memory.host parser).Unchanging (m.answer parser) (· = m) where
  answer_eq q s hs := by rw [hs, answer_host]
  stays q s hs := (isStill_host parser q s).trans hs

namespace Compiler

def withMore (c : Compiler σ) (more : List String) : Compiler σ :=
  { c with options := c.options.withMore more }

theorem compile_eq {c : Compiler σ} {h : Host (StateM α)} {answer : (q : Question) → q.Answer}
    {S : α → Prop} (hh : h.Unchanging answer S) {s : α} (hs : S s) :
    (c.compile h s).1 = ((compilation c.options ModuleGraph.capacity).result answer,
    { c with
        state :=
          .after .rendered ((compilation c.options ModuleGraph.capacity).result answer) }) := by
  rw [compile_of_ask (Prod.eta (h.ask _ s)).symm, hh.ask_eq _ hs]

/-- **Further extensions do no harm.**  On files that do not change while they are asked about, what
compiles with some extensions compiles with further ones behind them, and the same compilation is
made: the same modules in the same order, and the same chunks, assets and files. -/
theorem compile_withMore {c : Compiler σ} {h : Host (StateM α)}
    {answer : (q : Question) → q.Answer} {S : α → Prop} (hh : h.Unchanging answer S) {s : α}
    (hs : S s) (more : List String) {made : Compilation} {c' : Compiler σ}
    (hmade : (c.compile h s).1 = (.ok made, c')) :
    ((c.withMore more).compile h s).1 = (.ok made, c'.withMore more) := by
  rw [compile_eq hh hs] at hmade
  obtain ⟨hresult, hc'⟩ := Prod.mk.inj hmade
  have hmore : (compilation (c.withMore more).options ModuleGraph.capacity).result answer =
      .ok made :=
    Dialogue.endsIn_known.mp (compilation_withMore more (Dialogue.endsIn_known.mpr hresult))
  rw [compile_eq hh hs, hmore, ← hc', hresult]
  rfl

/-- every file is there a second time, with another extension -/
def twofold : Memory :=
  .ofList [(⟨"/p/a.js"⟩, .text "require('./b')"), (⟨"/p/a.ts"⟩, .text "require('./missing')"),
    (⟨"/p/b.js"⟩, .text ""), (⟨"/p/b.ts"⟩, .text "(")]

theorem compile_twofold : ∃ made c',
    (ofPair.compile (Memory.host Script.parser) twofold).1 = (.ok made, c') ∧
      ((ofPair.withMore [".ts", ".js"]).compile (Memory.host Script.parser) twofold).1 =
        (.ok made, c'.withMore [".ts", ".js"]) ∧
      made.graph.ids = [⟨"./a.js"⟩, ⟨"./b.js"⟩] := by
  have hr : ((compilation ofPair.options ModuleGraph.capacity).result
      (twofold.answer Script.parser)).map (fun made => made.graph.ids) =
        .ok [⟨"./a.js"⟩, ⟨"./b.js"⟩] := by
    decide +kernel
  have hstill := twofold.unchanging_host Script.parser
  have hcompile := compile_eq (c := ofPair) hstill rfl
  cases hmade : (compilation ofPair.options ModuleGraph.capacity).result
      (twofold.answer Script.parser) with
  | error e =>
    rw [hmade] at hr
    cases hr
  | ok made =>
    rw [hmade] at hr hcompile
    exact ⟨made, _, hcompile, compile_withMore hstill rfl _ hcompile, Except.ok.inj hr⟩

end Compiler

end Bindle
