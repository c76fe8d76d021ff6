import Bindle.Proofs.Compiler.Compilation
import Bindle.Proofs.Compiler.Lifecycle
import Bindle.Proofs.Graph.Relocation

/-!
# Where a project lives

A project that is moved with all its files compiles to the same chunks and assets.  Nothing in a
compilation tells where it was made but the paths of its files, which begin with the root.

Specifiers must not be absolute nor lead above the root, and no extension may have a `/` or begin
with `\`.  Without the last condition the root itself may be continued to the path of a file, which
then lies beside the root, and its id has the name of the root (`not_moved_of_backslash`).
-/

namespace Bindle

/-! ## compilations of one project, at two places -/

/-- `p` is below `r` where `p'` is below `r'` -/
def Path.MovedTo (r r' p p' : Path) : Prop :=
  ∃ t, p.text = r.text ++ "/" ++ t ∧ p'.text = r'.text ++ "/" ++ t

structure Dependency.MovedTo (r r' : Path) (d d' : Dependency) : Prop where
  specifier_eq : d'.specifier = d.specifier
  id_eq : d'.id = d.id
  path : r.MovedTo r' d.path d'.path

structure Module.MovedTo (r r' : Path) (m m' : Module) : Prop where
  id_eq : m'.id = m.id
  path : r.MovedTo r' m.path m'.path
  chunkNames_eq : m'.chunkNames = m.chunkNames
  dependencies : List.Forall₂ (Dependency.MovedTo r r') m.dependencies m'.dependencies
  source_eq : m'.source = m.source

structure Compilation.MovedTo (r r' : Path) (made made' : Compilation) : Prop where
  modules : List.Forall₂ (Module.MovedTo r r') made.graph.modules made'.graph.modules
  chunks_eq : made'.chunks = made.chunks
  assets_eq : made'.assets = made.assets
  files : List.Forall₂ (r.MovedTo r') made.files made'.files

/-! ## other paths -/

def Compilation.relocate (f : Path → Path) (made : Compilation) : Compilation :=
  { made with graph := made.graph.relocate f, files := made.files.map f }

section

variable {f : Path → Path} {g : ModuleGraph}

theorem assemble_relocate (f : Path → Path) (g : ModuleGraph) (built : List (String × ModuleId)) :
    Chunk.assemble (g.relocate f) built = Chunk.assemble g built := by
  refine List.map_congr_left fun e _ => ?_
  show (⟨e.1, e.2, ((g.modules.map (Module.relocate f)).filter _).map Module.id⟩ : Chunk) = _
  rw [List.filter_map, List.map_map]
  rfl

/-- a bundle has ids and texts of modules -/
theorem text_relocate (f : Path → Path) (g : ModuleGraph) (c : Chunk) :
    Bundle.text c (g.relocate f) = Bundle.text c g := by
  have hmodules : (Bundle.modulesOf c (g.relocate f)).map Bundle.wrapper =
      (Bundle.modulesOf c g).map Bundle.wrapper := by
    unfold Bundle.modulesOf
    rw [List.map_filterMap, List.map_filterMap]
    refine List.filterMap_congr fun id _ => ?_
    rw [ModuleGraph.find?_relocate, Option.map_map]
    rfl
  have hstart : Bundle.start c (g.relocate f) = Bundle.start c g := by
    unfold Bundle.start
    rw [ModuleGraph.find?_relocate]
    cases g.find? c.entry with
    | none => rfl
    | some m => rfl
  rw [Bundle.text, Bundle.text, hmodules, hstart]

variable {σ : Type} {o o' : Options σ}

theorem renderChunks_relocate (hname : o'.filename = o.filename) (f : Path → Path) (g : ModuleGraph)
    (chunks : List Chunk) (owners assets : Table String) :
    renderChunks o' (g.relocate f) chunks owners assets =
      renderChunks o g chunks owners assets := by
  have hfilename : ∀ n, o'.filenameFor n = o.filenameFor n := fun n =>
    congrArg (Config.filenameFor · n) hname
  induction chunks generalizing owners assets with
  | nil => rfl
  | cons c cs ih =>
    unfold renderChunks
    simp only [hfilename, text_relocate, ih]

theorem compilationOf_relocate (hname : o'.filename = o.filename) (f : Path → Path)
    (built : List (String × ModuleId)) (g : Growth) :
    compilationOf o' built (g.relocate f) =
      (compilationOf o built g).map (Compilation.relocate f) := by
  unfold compilationOf
  simp only [Growth.relocate, assemble_relocate, renderChunks_relocate hname]
  cases renderChunks o g.graph (Chunk.assemble g.graph built) {} {} with
  | error e => rfl
  | ok assets => rfl

end

/-! ## compilations -/

section

variable {s : Settings} {r' : Path} {a b : Memory} (hs : s.Moved r' a b) {parser : Parser}
  {limit : Nat} {entries : List (String × String)} {built : List (String × ModuleId)} {g : Growth}

include hs

/-- all files of the project lie below its root -/
theorem filedIn_home
    (h : (buildEntries s limit entries {}).EndsIn (Dialogue.Known (a.answer parser)) (.ok built, g))
    (hentries : ∀ e ∈ entries, s.root.Stays s.root e.2) (hstays : g.graph.StaysBelow s.root) :
    g.FiledIn s.root.LiesBelow := by
  refine filedIn_of_buildEntries (fun _ => hs.home.isPlain) h (fun e he p hp => ?_)
    (fun m hm hpath hanalysed => ?_) .empty
  · exact (resolve_move hs.files hs.home hs.home' hs.extensions (Path.beside_self s.root r')
      (hentries e he) parser none (Dialogue.endsIn_known.mp hp)).1
  · exact (hs.analysed_move hpath hanalysed (hstays m hm)).2

end

theorem Path.LiesBelow.movedTo {r r' p : Path} (h : r.LiesBelow p) : r.MovedTo r' p (r.move r' p) :=
  h.exists_text

theorem movedTo_relocate {r r' : Path} {made : Compilation} {g : Growth}
    (hgraph : made.graph = g.graph) (hfiles : made.files = g.files) (h : g.FiledIn r.LiesBelow) :
    made.MovedTo r r' (made.relocate (r.move r')) := by
  refine ⟨?_, rfl, rfl, ?_⟩
  · refine List.forall₂_map_right_iff.mpr (List.forall₂_same.mpr fun m hm => ?_)
    rw [hgraph] at hm
    refine ⟨rfl, (h.path hm).movedTo, rfl, ?_, rfl⟩
    refine List.forall₂_map_right_iff.mpr (List.forall₂_same.mpr fun d hd => ?_)
    exact ⟨rfl, rfl, (h.dependency hm hd).movedTo⟩
  · refine List.forall₂_map_right_iff.mpr (List.forall₂_same.mpr fun p hp => ?_)
    rw [hfiles] at hp
    exact (h.within p hp).movedTo

section

variable {σ : Type} {o : Options σ} {r' : Path} {a b : Memory} {parser : Parser} {limit : Nat}
  {made : Compilation}

theorem compilation_of_moved (output' : Path) (hs : o.settings.Moved r' a b)
    (h : (compilation o limit).result (a.answer parser) = .ok made)
    (hentries : ∀ e ∈ o.entries, o.root.Stays o.root e.2) (hstays : made.graph.StaysBelow o.root) :
    (compilation { o with root := r', outputPath := output' } limit).result (b.answer parser) =
        .ok (made.relocate (o.root.move r')) ∧
      made.MovedTo o.root r' (made.relocate (o.root.move r')) := by
  obtain ⟨⟨result, g⟩, hbuilt, h⟩ := endsIn_compilation.mp (Dialogue.endsIn_known.mpr h)
  cases result with
  | error e => cases h
  | ok built =>
    have hmade : compilationOf o built g = .ok made := h.symm
    obtain ⟨hgraph, -, -, hfiles⟩ := compiled_of_compilationOf hmade
    rw [hgraph] at hstays
    have hbuilt' := (buildEntries_relocate hs parser hbuilt hentries hstays
      fun _ hp => absurd hp List.not_mem_nil).1
    refine ⟨?_, movedTo_relocate hgraph hfiles (filedIn_home hs hbuilt hentries hstays)⟩
    refine Dialogue.endsIn_known.mp (endsIn_compilation.mpr ⟨_, hbuilt', ?_⟩)
    have hname : ({ o with root := r', outputPath := output' } : Options σ).filename = o.filename :=
      rfl
    have hmade' := compilationOf_relocate hname (o.root.move r') built g
    rw [hmade] at hmade'
    exact hmade'.symm

end

namespace Compiler

variable {σ : Type}

/-- **It does not count where a project lives.**  When it is moved with all its files, from one
directory to another, it compiles to the same chunks and assets, and to the same modules at the new
place. -/
theorem compile_of_moved {c c₁ : Compiler σ} {r' : Path} (output' : Path) {a b : Memory}
    {parser : Parser} {made : Compilation} (hroot : c.options.root.IsHome) (hroot' : r'.IsHome)
    (hfiles : a.Moved c.options.root r' b)
    (hextensions : ∀ e ∈ c.options.extensions, '/' ∉ e.toList ∧ e.toList.head? ≠ some '\\')
    (hrules : c.options.rules = [])
    (h : c.compile (Memory.host parser) a = ((.ok made, c₁), a))
    (hentries : ∀ e ∈ c.options.entries, c.options.root.Stays c.options.root e.2)
    (hstays : made.graph.StaysBelow c.options.root) :
    ∃ made' c₂,
      compile (Memory.host parser)
          { c with options := { c.options with root := r', outputPath := output' } } b =
        ((.ok made', c₂), b) ∧
      made.MovedTo c.options.root r' made' := by
  have hs : c.options.settings.Moved r' a b := ⟨hroot, hroot', hrules, hextensions, hfiles⟩
  obtain ⟨hmade', hmoved⟩ :=
    compilation_of_moved output' hs (result_of_compile h) hentries hstays
  exact ⟨_, _, compile_memory _ b hmade', hmoved⟩

/-- files by their places below a directory -/
def placed (files : List (String × Content)) (r : Path) : Memory :=
  .ofList (files.map (fun f => (r.join f.1, f.2)))

theorem isHome_p : (⟨"/p"⟩ : Path).IsHome := by
  constructor <;> decide

def nestedFiles : List (String × Content) :=
  [("b.js", .text "1;"), ("src/lib/a.js", .text "require('../../b');"),
    ("src/main.js", .text "require('./lib/a');")]

def ofNested : Compiler Unit := .ofOptions ((Options.new ⟨"/p"⟩).entry "main" "./src/main")

/-- a project is moved to another depth -/
theorem compile_nested : ∃ made made' c₁ c₂,
    ofNested.compile (Memory.host Script.parser) (placed nestedFiles ⟨"/p"⟩) =
        ((.ok made, c₁), placed nestedFiles ⟨"/p"⟩) ∧
      compile (Memory.host Script.parser)
          { ofNested with
            options := { ofNested.options with root := ⟨"/home/q"⟩, outputPath := ⟨"/out"⟩ } }
          (placed nestedFiles ⟨"/home/q"⟩) = ((.ok made', c₂), placed nestedFiles ⟨"/home/q"⟩) ∧
      made.graph.ids = [⟨"./src/main.js"⟩, ⟨"./src/lib/a.js"⟩, ⟨"./b.js"⟩] ∧
      made.MovedTo ⟨"/p"⟩ ⟨"/home/q"⟩ made' := by
  have hr : ((compilation ofNested.options ModuleGraph.capacity).result
      ((placed nestedFiles ⟨"/p"⟩).answer Script.parser)).map
        (fun made => (made.graph.ids, decide (made.graph.StaysBelow ⟨"/p"⟩))) =
      .ok ([⟨"./src/main.js"⟩, ⟨"./src/lib/a.js"⟩, ⟨"./b.js"⟩], true) := by
    decide +kernel
  have hhome : (⟨"/home/q"⟩ : Path).IsHome := by
    constructor <;> decide
  have hfiles : (placed nestedFiles ⟨"/p"⟩).Moved ⟨"/p"⟩ ⟨"/home/q"⟩
      (placed nestedFiles ⟨"/home/q"⟩) :=
    Memory.moved_of_entries nestedFiles (by decide +kernel) (by decide +kernel)
  cases hmade : (compilation ofNested.options ModuleGraph.capacity).result
      ((placed nestedFiles ⟨"/p"⟩).answer Script.parser) with
  | error e =>
    rw [hmade] at hr
    cases hr
  | ok made =>
    rw [hmade] at hr
    obtain ⟨hids, hstays⟩ := Prod.mk.inj (Except.ok.inj hr)
    have h := compile_memory ofNested (placed nestedFiles ⟨"/p"⟩) hmade
    obtain ⟨made', c₂, h', hmoved⟩ := compile_of_moved ⟨"/out"⟩ isHome_p hhome hfiles
      (by decide) rfl h (by decide) (of_decide_eq_true hstays)
    exact ⟨made, made', _, c₂, h, h', hids, hmoved⟩

/-! ## beside the root -/

def besideFiles : List (String × Content) := [("x", .text "1;")]

/-- the path of the root is `/p`, and with the extension it is `/p\x`, which is the file `/p/x` -/
def ofBeside : Compiler Unit :=
  .ofOptions { (Options.new ⟨"/p"⟩).entry "a" "." with extensions := ["\\x"] }

theorem chunks_ofBeside : ∃ made,
    (compilation ofBeside.options ModuleGraph.capacity).result
        ((placed besideFiles ⟨"/p"⟩).answer Script.parser) = .ok made ∧
      made.graph.StaysBelow ⟨"/p"⟩ ∧
      made.chunks = [⟨"a", ⟨"./../p\\x"⟩, [⟨"./../p\\x"⟩]⟩] := by
  have hr : ((compilation ofBeside.options ModuleGraph.capacity).result
      ((placed besideFiles ⟨"/p"⟩).answer Script.parser)).map
        (fun made => (decide (made.graph.StaysBelow ⟨"/p"⟩), made.chunks)) =
      .ok (true, [⟨"a", ⟨"./../p\\x"⟩, [⟨"./../p\\x"⟩]⟩]) := by
    decide +kernel
  cases hmade : (compilation ofBeside.options ModuleGraph.capacity).result
      ((placed besideFiles ⟨"/p"⟩).answer Script.parser) with
  | error e =>
    rw [hmade] at hr
    cases hr
  | ok made =>
    rw [hmade] at hr
    obtain ⟨hstays, hchunks⟩ := Prod.mk.inj (Except.ok.inj hr)
    exact ⟨made, rfl, of_decide_eq_true hstays, hchunks⟩

/-- **An extension that begins with `\` may tell where a project lives.** -/
theorem not_moved_of_backslash : ¬ ∀ (c c₁ : Compiler Unit) (r' output' : Path) (a b : Memory)
    (made : Compilation), c.options.root.IsHome → r'.IsHome → a.Moved c.options.root r' b →
    (∀ e ∈ c.options.extensions, '/' ∉ e.toList) → c.options.rules = [] →
    c.compile (Memory.host Script.parser) a = ((.ok made, c₁), a) →
    (∀ e ∈ c.options.entries, c.options.root.Stays c.options.root e.2) →
    made.graph.StaysBelow c.options.root →
    ∃ made' c₂,
      compile (Memory.host Script.parser)
          { c with options := { c.options with root := r', outputPath := output' } } b =
        ((.ok made', c₂), b) ∧
      made'.chunks = made.chunks := by
  intro hall
  obtain ⟨made, hmade, hstays, hchunks⟩ := chunks_ofBeside
  have hhome : (⟨"/q"⟩ : Path).IsHome := by
    constructor <;> decide
  have hfiles : (placed besideFiles ⟨"/p"⟩).Moved ⟨"/p"⟩ ⟨"/q"⟩ (placed besideFiles ⟨"/q"⟩) :=
    Memory.moved_of_entries besideFiles (by decide +kernel) (by decide +kernel)
  have h := compile_memory ofBeside (placed besideFiles ⟨"/p"⟩) hmade
  obtain ⟨made', c₂, h', hsame⟩ := hall ofBeside _ ⟨"/q"⟩ ⟨"/q/dist"⟩ _ _ made isHome_p hhome hfiles
    (by decide) rfl h (by decide) hstays
  have hr : ((compilation { ofBeside.options with root := ⟨"/q"⟩, outputPath := ⟨"/q/dist"⟩ }
      ModuleGraph.capacity).result ((placed besideFiles ⟨"/q"⟩).answer Script.parser)).map
        Compilation.chunks = .ok [⟨"a", ⟨"./../q\\x"⟩, [⟨"./../q\\x"⟩]⟩] := by
    decide +kernel
  have hmade' := result_of_compile h'
  rw [hmade'] at hr
  have hchunks' := Except.ok.inj hr
  rw [hsame, hchunks] at hchunks'
  exact absurd hchunks' (by decide)

end Compiler

end Bindle
