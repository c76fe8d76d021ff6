import Bindle.Proofs.Compiler.Compilation
import Bindle.Proofs.Compiler.Lifecycle
import Bindle.Proofs.Graph.Stopping

/-!
# What an error is about

A compilation that fails names a place, and the place is to blame.

* `Settings.Needs`        a literal call of one file stands for another file;
* `Settings.IsReached`    a file that some entry comes to by such calls;
* `Options.Blames`        what has to be the case for an error, one rule for each way to fail.

Main result: `Compiler.blames_compile`, for files in memory that nothing changes.  Only a graph that is
full is nobody's fault; what it takes for this is `Compiler.full_compile`.
-/

namespace Bindle

/-! ## files that are reached -/

section

variable {s : Settings} {fits : (q : Question) → q.Answer → Prop}
  {entries : List (String × String)} {p q : Path}

/-- a literal call of the file at `p` stands for the file at `q` -/
def Settings.Needs (s : Settings) (fits : (q : Question) → q.Answer → Prop) (p q : Path) : Prop :=
  ∃ tree, s.Holds fits p tree ∧ ∃ c ∈ tree.calls, ∃ specifier, c.argument = .literal specifier ∧
    (resolve s.extensions (p.parent?.getD s.root) specifier (some (s.idOf p))).EndsIn fits (.ok q)

/-- what some entry stands for, and what that needs -/
def Settings.IsReached (s : Settings) (fits : (q : Question) → q.Answer → Prop)
    (entries : List (String × String)) (p : Path) : Prop :=
  ∃ e ∈ entries, ∃ start, (resolve s.extensions s.root e.2 none).EndsIn fits (.ok start) ∧
    Relation.ReflTransGen (s.Needs fits) start p

theorem Settings.IsReached.tail (hp : s.IsReached fits entries p) (h : s.Needs fits p q) :
    s.IsReached fits entries q := by
  obtain ⟨e, he, start, hstart, hway⟩ := hp
  exact ⟨e, he, start, hstart, hway.tail h⟩

/-- whatever is reached has been looked up -/
theorem Settings.IsReached.isFile (hp : s.IsReached fits entries p) : fits (.isFile p) true := by
  obtain ⟨e, -, start, hstart, hway⟩ := hp
  rcases Relation.ReflTransGen.cases_tail hway with rfl | ⟨_, -, _, -, _, -, _, -, hresolved⟩
  · exact isFile_of_resolve hstart
  · exact isFile_of_resolve hresolved

theorem Settings.Analysed.needs {found : List Dependency × String} (h : s.Analysed fits p found)
    {d : Dependency} (hd : d ∈ found.1) : s.Needs fits p d.path := by
  obtain ⟨raw, source, tree, x, htext, hload, hparse, hx, hok, rfl⟩ := h
  obtain ⟨pairs, hcalls, hdeps, -, hfinds⟩ := pairs_of_extract hx hok
  obtain ⟨f, hf, rfl⟩ := List.mem_map.mp (hdeps ▸ hd)
  exact ⟨tree, ⟨raw, source, htext, hload, hparse⟩, f.1, hcalls ▸ List.mem_map_of_mem hf,
    f.2.specifier, (hfinds f hf).literal, (hfinds f hf).resolved⟩

theorem Settings.handsOn_isReached : s.HandsOn fits (s.IsReached fits entries) :=
  fun _ _ hp hfound _ hd => hp.tail (hfound.needs hd)

theorem Settings.isReached_entry {entry : String × String} (hentry : entry ∈ entries) {p : Path}
    (hp : (resolve s.extensions s.root entry.2 none).EndsIn fits (.ok p)) :
    s.IsReached fits entries p := ⟨entry, hentry, p, hp, .refl⟩

end

/-! ## file names that are given twice -/

section

variable {σ : Type} {o : Options σ}

/-- a compilation fails when building does, or on two chunks with one file name -/
theorem error_cases_of_compilation {fits : (q : Question) → q.Answer → Prop} {limit : Nat}
    {e : BuildError} (h : (compilation o limit).EndsIn fits (.error e)) :
    (∃ g', (buildEntries o.settings limit o.entries {}).EndsIn fits (.error e, g')) ∨
    ∃ first second, [first, second].Sublist (o.entries.map Prod.fst) ∧
      o.filenameFor first = o.filenameFor second ∧
      e = .assetConflict (o.filenameFor second) first second := by
  obtain ⟨⟨result, g'⟩, hbuilt, hmade⟩ := endsIn_compilation.mp h
  cases result with
  | error e' =>
    cases hmade
    exact .inl ⟨g', hbuilt⟩
  | ok built =>
    obtain ⟨filename, first, second, hcollides, rfl⟩ := compilationOf_eq_error_iff.mp hmade.symm
    rw [names_of_buildEntries hbuilt.canEndIn] at hcollides
    have htwo := hcollides.sublist
    obtain ⟨-, -, -, -, -, hfirst, rfl⟩ := hcollides
    exact .inr ⟨first, second, htwo, hfirst, rfl⟩

end

/-! ## blame -/

variable {σ : Type} {parser : Parser} {m : Memory} {e : BuildError}

/-- the file at `p` is one that the entries come to -/
def Options.Reaches (o : Options σ) (m : Memory) (parser : Parser) (p : Path) : Prop :=
  o.settings.IsReached (Dialogue.Known (m.answer parser)) o.entries p

/-- what the file at `p` comes to, processed alone -/
def Options.outcome (o : Options σ) (m : Memory) (parser : Parser) (p : Path) :
    Except BuildError (List Dependency × String) :=
  ((o.settings.analyse p).result (m.answer parser)).outcome

/-- the error is about what it names -/
inductive Options.Blames (o : Options σ) (m : Memory) (parser : Parser) : BuildError → Prop where
  /-- the specifier of an entry, looked up from the root -/
  | entry {name specifier : String} (hentry : (name, specifier) ∈ o.entries)
      (hnone : ∀ q ∈ candidates o.extensions o.root specifier, m.isFile q = false) :
      Blames o m parser
        (.resolution specifier o.root none (candidates o.extensions o.root specifier))
  /-- a literal call, looked up from the directory of its file -/
  | call {p : Path} {tree : SyntaxTree} {c : Script.Call} {specifier : String}
      (hp : o.Reaches m parser p)
      (htree : o.settings.Holds (Dialogue.Known (m.answer parser)) p tree) (hc : c ∈ tree.calls)
      (hliteral : c.argument = .literal specifier)
      (hnone : ∀ q ∈ candidates o.extensions (p.parent?.getD o.root) specifier,
        m.isFile q = false) :
      Blames o m parser (.resolution specifier (p.parent?.getD o.root)
        (some (ModuleId.ofPath o.root p))
        (candidates o.extensions (p.parent?.getD o.root) specifier))
  | loader {p : Path} {rule name cause : String} (hp : o.Reaches m parser p)
      (h : o.outcome m parser p = .error (.loader rule name (ModuleId.ofPath o.root p) cause)) :
      Blames o m parser (.loader rule name (ModuleId.ofPath o.root p) cause)
  | parse {p : Path} {cause : Script.SyntaxError} (hp : o.Reaches m parser p)
      (h : o.outcome m parser p = .error (.parse (ModuleId.ofPath o.root p) cause)) :
      Blames o m parser (.parse (ModuleId.ofPath o.root p) cause)
  | unsupported {p : Path} {position : Text.Position} {written : String}
      (hp : o.Reaches m parser p)
      (h : o.outcome m parser p =
        .error (.unsupportedDependency (ModuleId.ofPath o.root p) position written)) :
      Blames o m parser (.unsupportedDependency (ModuleId.ofPath o.root p) position written)
  /-- a file that is there and has no text -/
  | text {p : Path} {bytes : List UInt8} (hp : o.Reaches m parser p)
      (hbytes : m.read p = .ok (.binary bytes)) : Blames o m parser (.io p (.invalidUtf8 p.text))
  /-- two chunks -/
  | asset {first second : String} (hnames : [first, second].Sublist (o.entries.map Prod.fst))
      (hsame : o.filenameFor first = o.filenameFor second) :
      Blames o m parser (.assetConflict (o.filenameFor second) first second)

/-- a file in memory that is there is read; all that can be wrong with it is that it has no text -/
theorem Memory.exists_bytes_of_readText {p : Path} {cause : FileError} (hp : m.isFile p = true)
    (h : m.readText p = .error cause) :
    ∃ bytes, m.read p = .ok (.binary bytes) ∧ cause = .invalidUtf8 p.text := by
  obtain ⟨content, hcontent⟩ := Option.isSome_iff_exists.mp hp
  have hread : m.read p = .ok content := by
    unfold Memory.read
    rw [hcontent]
  have htext : content.textAt p = .error cause := by
    rw [← h]
    unfold Memory.readText
    rw [hread]
    rfl
  cases content with
  | text s => cases htext
  | binary bytes =>
    cases htext
    exact ⟨bytes, hread, rfl⟩

namespace Options

variable {o : Options σ}

theorem Reaches.isFile {p : Path} (hp : o.Reaches m parser p) : m.isFile p = true :=
  (Settings.IsReached.isFile hp).symm

/-- what a file fails on is to blame -/
theorem blames_of_failsOn {p : Path} (hp : o.Reaches m parser p)
    (h : o.settings.FailsOn (Dialogue.Known (m.answer parser)) p e) : o.Blames m parser e := by
  have houtcome : o.outcome m parser p = .error e := by
    obtain ⟨a, ha, he⟩ := h.exists_analyse
    rw [← he, ← Dialogue.endsIn_known.mp ha]
    rfl
  cases h with
  | text htext =>
    obtain ⟨bytes, hbytes, rfl⟩ := Memory.exists_bytes_of_readText hp.isFile htext.symm
    exact .text hp hbytes
  | rules => exact .loader hp houtcome
  | source => exact .parse hp houtcome
  | @call tree before c after e htree hcalls hbefore hc =>
    cases hc with
    | dynamic => exact .unsupported hp houtcome
    | unresolved hliteral hnone =>
      refine .call hp htree (hcalls ▸ List.mem_append_right _ List.mem_cons_self) hliteral ?_
      exact fun q hq => (hnone q hq).symm

end Options

/-- **Errors blame the right place.**  When compiling files in memory fails, then a specifier has no file
where it was looked up, which is the root for an entry and else the directory of a file that some entry
comes to; or such a file fails in this way when it is processed alone; or two chunks have one file
name. -/
theorem Compiler.blames_compile {c c₁ : Compiler σ} {m' : Memory}
    (h : c.compile (Memory.host parser) m = ((.error e, c₁), m'))
    (hroom : ∀ l, e ≠ .tooManyModules l) : c.options.Blames m parser e := by
  have hresult := Dialogue.endsIn_known.mpr (result_of_compile h)
  rcases error_cases_of_compilation hresult with ⟨g', hbuilt⟩ | ⟨first, second, hnames, hsame, rfl⟩
  · rcases stops_of_buildEntries Settings.handsOn_isReached
      (fun _ he _ hp => Settings.isReached_entry he hp) hbuilt hroom with
      ⟨entry, hentry, hrefused⟩ | ⟨p, hp, hfails⟩
    · obtain ⟨hnone, rfl⟩ := resolve_eq_error_iff.mp hrefused
      exact .entry hentry fun q hq => (hnone q hq).symm
    · exact Options.blames_of_failsOn hp hfails
  · exact .asset hnames hsame

/-- the main file needs one in another directory, which needs one that is missing -/
def missingFiles : Memory := .ofList [(⟨"/p/main.js"⟩, .text "require('./lib/a');"),
  (⟨"/p/lib/a.js"⟩, .text "require('./gone');")]

def ofMissing : Compiler Unit := .ofOptions ((Options.new ⟨"/p"⟩).entry "main" "./main")

/-- the file in the other directory is to blame -/
theorem compile_missing : ∃ c₁,
    ofMissing.compile (Memory.host Script.parser) missingFiles =
      ((.error (.resolution "./gone" ⟨"/p/lib"⟩ (some ⟨"./lib/a.js"⟩)
        [⟨"/p/lib/gone"⟩, ⟨"/p/lib/gone.js"⟩]), c₁), missingFiles) ∧
      ofMissing.options.Blames missingFiles Script.parser
        (.resolution "./gone" ⟨"/p/lib"⟩ (some ⟨"./lib/a.js"⟩)
          [⟨"/p/lib/gone"⟩, ⟨"/p/lib/gone.js"⟩]) := by
  have hr : ((compilation ofMissing.options ModuleGraph.capacity).result
      (missingFiles.answer Script.parser)).map (fun _ => ()) =
        .error (.resolution "./gone" ⟨"/p/lib"⟩ (some ⟨"./lib/a.js"⟩)
          [⟨"/p/lib/gone"⟩, ⟨"/p/lib/gone.js"⟩]) := by
    decide +kernel
  cases hmade : (compilation ofMissing.options ModuleGraph.capacity).result
      (missingFiles.answer Script.parser) with
  | ok made =>
    rw [hmade] at hr
    cases hr
  | error e =>
    rw [hmade] at hr
    obtain rfl := Except.error.inj hr
    have h := Compiler.compile_memory ofMissing missingFiles hmade
    exact ⟨_, h, Compiler.blames_compile h fun _ => nofun⟩

/-- **A graph is full only where entries come to more files than it has room for.** -/
theorem Compiler.full_compile {c c₁ : Compiler σ} {m' : Memory} {l : Nat}
    (h : c.compile (Memory.host parser) m = ((.error (.tooManyModules l), c₁), m')) :
    ∃ paths : List Path, (paths.map (ModuleId.ofPath c.options.root)).Nodup ∧
      ModuleGraph.capacity < paths.length ∧ ∀ p ∈ paths, c.options.Reaches m parser p := by
  have hresult := Dialogue.endsIn_known.mpr (result_of_compile h)
  rcases error_cases_of_compilation hresult with ⟨g', hbuilt⟩ | ⟨_, _, -, -, he⟩
  · exact (full_of_buildEntries Settings.handsOn_isReached
      (fun _ he _ hp => Settings.isReached_entry he hp) hbuilt).2
  · cases he

end Bindle
