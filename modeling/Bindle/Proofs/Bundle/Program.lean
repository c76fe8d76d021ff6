import Bindle.Files.Host
import Bindle.Proofs.Compiler.Compilation
import Bindle.Proofs.Script.FirstWord
import Bindle.Proofs.Script.Quoting
import Bindle.Proofs.Script.Refusal
import Bindle.Script.Call

/-!
# Bundles as programs

A bundle puts the text of each module into a function, as it is.  What may be at the top of a source
only, and was accepted there, is refused inside a function; so a bundle whose first module exports is
no program.

* `lexes_quoted`, `lexes_head`, `lexes_opening`    the tokens of a bundle up to its first module;
* `stopsAt_bundle`                                 with these tokens ahead the grammar stops;
* `parse_bundle_of_exportsFirst`                   whatever files, rules and entries made the bundle.
-/

namespace Bindle.Script

open Bindle.Text

/-! ## keys -/

/-- a text in quotes is read as a string, and what is behind it stays -/
theorem lexes_quoted (cs : List Char) {rest : List Char} {ks : List Token.Kind}
    (h : Lexes rest ks) :
    ∃ raw, Lexes ("\n    ".toList ++ quotedChars cs ++ rest) (.string raw :: ks) := by
  have htext : "\n    ".toList ++ quotedChars cs ++ rest =
      '\n' :: ' ' :: ' ' :: ' ' :: ' ' :: '\x22' :: (cs.flatMap quotedChar ++ '\x22' :: rest) := by
    simp [quotedChars]
  have hscan := scan_flatMap staysOpen_quotedChar quotedChar_ne_nil {} cs rest
  have hlength : rest.length < (cs.flatMap quotedChar ++ '\x22' :: rest).length := by
    simp only [List.length_append, List.length_cons]
    omega
  rw [htext]
  generalize cs.flatMap quotedChar ++ '\x22' :: rest = body at hscan hlength
  refine ⟨String.ofList ('\x22' :: cs.flatMap quotedChar ++ ['\x22']), rest, ?_, h,
    fun offset => ?_⟩
  · simp only [List.length_cons]
    omega
  · obtain ⟨start, newline, hread, -⟩ :=
      read_cases {} false ⟨'\n' :: ' ' :: ' ' :: ' ' :: ' ' :: '\x22' :: body, offset⟩
    obtain ⟨i, hstring⟩ := hscan (offset + 5)
    have hblanks : scan {} (Token.blanks false
        ⟨'\n' :: ' ' :: ' ' :: ' ' :: ' ' :: '\x22' :: body, offset⟩).after = _ := hstring
    rw [hread, hblanks]
    exact ⟨rfl, rfl, fun hkind => Token.Kind.noConfusion hkind⟩

/-! ## the tokens before the first module -/

/-- a token at the beginning of the text `p`, which leaves the text `q` -/
theorem Lexes.step {k : Token.Kind} {ks : List Token.Kind} {rest : List Char} (p q : String)
    (hlt : q.toList.length < p.toList.length)
    (hread : ∀ offset, (Token.read {} false ⟨p.toList ++ rest, offset⟩).token.kind = k ∧
      (Token.read {} false ⟨p.toList ++ rest, offset⟩).after.rest = q.toList ++ rest ∧
      (k = .symbol .arrow →
        (Token.read {} false ⟨p.toList ++ rest, offset⟩).token.newline = false))
    (h : Lexes (q.toList ++ rest) ks) : Lexes (p.toList ++ rest) (k :: ks) := by
  refine ⟨q.toList ++ rest, ?_, h, hread⟩
  rw [List.length_append, List.length_append]
  exact Nat.add_lt_add_right hlt _

/-- the tokens from the key of a wrapper to its body -/
def headKinds (ks : List Token.Kind) : List Token.Kind :=
  .symbol .colon :: .symbol .lparen :: .word "module" :: .symbol .comma :: .word "exports" ::
    .symbol .comma :: .word "require" :: .symbol .rparen :: .symbol .arrow :: .symbol .lbrace :: ks

theorem lexes_head {rest : List Char} {ks : List Token.Kind} (h : Lexes rest ks) :
    Lexes (": (module, exports, require) => \x7b".toList ++ rest) (headKinds ks) := by
  refine .step _ " (module, exports, require) => \x7b" (by decide) (fun _ => ⟨rfl, rfl, nofun⟩) ?_
  refine .step _ "module, exports, require) => \x7b" (by decide) (fun _ => ⟨rfl, rfl, nofun⟩) ?_
  refine .step _ ", exports, require) => \x7b" (by decide) (fun _ => ⟨rfl, rfl, nofun⟩) ?_
  refine .step _ " exports, require) => \x7b" (by decide) (fun _ => ⟨rfl, rfl, nofun⟩) ?_
  refine .step _ ", require) => \x7b" (by decide) (fun _ => ⟨rfl, rfl, nofun⟩) ?_
  refine .step _ " require) => \x7b" (by decide) (fun _ => ⟨rfl, rfl, nofun⟩) ?_
  refine .step _ ") => \x7b" (by decide) (fun _ => ⟨rfl, rfl, nofun⟩) ?_
  refine .step _ " => \x7b" (by decide) (fun _ => ⟨rfl, rfl, nofun⟩) ?_
  refine .step _ " \x7b" (by decide) (fun _ => ⟨rfl, rfl, fun _ => rfl⟩) ?_
  exact .step _ "" (by decide) (fun _ => ⟨rfl, rfl, nofun⟩) h

/-- the tokens behind the first parenthesis of a bundle up to the key of the first wrapper -/
def openingKinds (ks : List Token.Kind) : List Token.Kind :=
  .symbol .lparen :: .symbol .rparen :: .symbol .arrow :: .symbol .lbrace :: .word "var" ::
    .word "modules" :: .symbol .assign :: .symbol .lbrace :: ks

theorem lexes_opening {rest : List Char} {ks : List Token.Kind} (h : Lexes rest ks) :
    Lexes ("() => \x7b\n  var modules = \x7b".toList ++ rest) (openingKinds ks) := by
  refine .step _ ") => \x7b\n  var modules = \x7b" (by decide) (fun _ => ⟨rfl, rfl, nofun⟩) ?_
  refine .step _ " => \x7b\n  var modules = \x7b" (by decide) (fun _ => ⟨rfl, rfl, nofun⟩) ?_
  refine .step _ " \x7b\n  var modules = \x7b" (by decide) (fun _ => ⟨rfl, rfl, fun _ => rfl⟩) ?_
  refine .step _ "\n  var modules = \x7b" (by decide) (fun _ => ⟨rfl, rfl, nofun⟩) ?_
  refine .step _ " modules = \x7b" (by decide) (fun _ => ⟨rfl, rfl, nofun⟩) ?_
  refine .step _ " = \x7b" (by decide) (fun _ => ⟨rfl, rfl, nofun⟩) ?_
  refine .step _ " \x7b" (by decide) (fun _ => ⟨rfl, rfl, nofun⟩) ?_
  exact .step _ "" (by decide) (fun _ => ⟨rfl, rfl, nofun⟩) h

/-! ## the first wrapper -/

open Grammar

/-- the function for a module that exports is no expression -/
theorem stopsAt_wrapper (n : Nat) :
    StopsAt (ofDepth (n + 4)).assignment (.symbol .lparen)
      (.word "module" :: .symbol .comma :: .word "exports" :: .symbol .comma ::
        .word "require" :: .symbol .rparen :: .symbol .arrow :: .symbol .lbrace ::
        [.word "export"]) := by
  intro s hs
  obtain ⟨names, t, hparen, harrow, hnames⟩ :=
    parenthesized_wrapper (g := ofDepth n) (ahead_marked hs true)
  exact stopped_assignment_arrow (by decide) hs hparen hnames harrow (stopsAt_nestedStatement true)

/-- nor is the object that begins with this function -/
theorem stopsAt_modules (n : Nat) (raw : String) :
    StopsAt (ofDepth (n + 6)).assignment (.symbol .lbrace)
      (.string raw :: headKinds [.word "export"]) := by
  intro s hs
  refine stopped_assignmentExpression (g := ofDepth (n + 4)) .brace hs ?_
  have hmarked := ahead_marked hs false
  show Stopped (primary (ofDepth (n + 4)) (marked s false))
  rw [primary_lbrace hmarked.kind]
  exact stopsAt_objectLiteral (stopsAt_wrapper n) _ hmarked

/-- the function around it has no other beginning -/
theorem stopsAt_function (n : Nat) (raw : String) :
    StopsAt (ofDepth (n + 9)).assignment (.symbol .lparen)
      (.symbol .rparen :: .symbol .arrow :: .symbol .lbrace :: .word "var" :: .word "modules" ::
        .symbol .assign :: .symbol .lbrace :: .string raw :: headKinds [.word "export"]) := by
  intro s hs
  obtain ⟨t, hparen, harrow⟩ := parenthesized_nil (g := ofDepth (n + 7)) (ahead_marked hs true)
  exact stopped_assignment_arrow (by decide) hs hparen (fun _ => rfl) harrow
    (stopsAt_nestedStatement_var (g := ofDepth (n + 5)) (stopsAt_modules n raw))

theorem stopsAt_bundle (n : Nat) (raw : String) :
    StopsAt (program (ofDepth (n + 11))) (.symbol .lparen)
      (openingKinds (.string raw :: headKinds [.word "export"])) :=
  stopsAt_program (stopsAt_assignment_parenthesis (g := ofDepth (n + 9)) (by decide)
    (stopsAt_function n raw))

/-- a program that begins like a bundle whose first module exports is refused -/
theorem parse_of_lexes {raw : String} {rest : List Char}
    (h : Lexes rest (openingKinds (.string raw :: headKinds [.word "export"]))) :
    ∃ e, parse (String.ofList ('(' :: rest)) = .error e ∧
      e.message = Complaint.importOutsideModule.text := by
  have hfirst : ∀ fs ms, Ahead
      ((State.beginning (Token.read {} true (firstCursor ('(' :: rest)))).noting fs ms)
      (.symbol .lparen) (openingKinds (.string raw :: headKinds [.word "export"])) :=
    fun _ _ => ⟨rfl, rfl, nofun, h⟩
  obtain ⟨fs, ms, hreport, -⟩ := Parse.exists_reportAll _ (State.beginning _)
  have hdepth : depthOf ('(' :: rest) = 4 * (rest.length + 1) + 5 + 11 := rfl
  obtain ⟨offset, t, hstop, -⟩ := stopsAt_bundle (4 * (rest.length + 1) + 5) raw _ (hfirst fs ms)
  have hrun : runProgram ('(' :: rest) = .error ⟨.importOutsideModule, offset⟩ t := by
    rw [runProgram_eq hreport, hdepth]
    exact hstop
  have hmark : withoutMark ('(' :: rest) = '(' :: rest := rfl
  have hparse : parse (String.ofList ('(' :: rest)) =
      .error ⟨Complaint.importOutsideModule.text, Position.ofOffset ('(' :: rest) offset⟩ := by
    rw [parse, String.toList_ofList, readTree, hmark, hrun]
  exact ⟨_, hparse, rfl⟩

/-- a source whose first word is `export` -/
def ExportsFirst (source : String) : Prop :=
  (Token.read {} true ⟨source.toList, 0⟩).token.kind = .word "export"

end Script

namespace Bundle

open Script Text

variable {c : Chunk} {g : ModuleGraph} {m : Module} {ms : List Module}

theorem exists_body (source : String) (more : List Char) :
    ∃ after, (body source).toList ++ ("    \x7d,\n".toList ++ more) = source.toList ++ after ∧
      EndsWord after := by
  rw [body]
  split
  · refine ⟨_, rfl, ?_⟩
    rintro d ⟨rfl⟩
    decide
  · refine ⟨'\n' :: ("    \x7d,\n".toList ++ more), ?_, ?_⟩
    · simp
    · rintro d ⟨rfl⟩
      decide

/-- the text of a bundle from its first parenthesis to the end of its first module -/
theorem toList_text (hfirst : modulesOf c g = m :: ms) : ∃ more, (text c g).toList =
    '(' :: ("() => \x7b\n  var modules = \x7b".toList ++ ("\n    ".toList ++
      quotedChars m.id.text.toList ++ (": (module, exports, require) => \x7b".toList ++
        '\n' :: ((body m.source).toList ++ ("    \x7d,\n".toList ++ more))))) := by
  refine ⟨(String.join (ms.map wrapper)).toList ++ requireFunction.toList ++ (start c g).toList ++
    closing.toList, ?_⟩
  have hopening : opening.toList = '(' :: ("() => \x7b\n  var modules = \x7b".toList ++ ['\n']) :=
    rfl
  have hhead : ": (module, exports, require) => \x7b\n".toList =
      ": (module, exports, require) => \x7b".toList ++ ['\n'] := rfl
  have hindent : "\n    ".toList = '\n' :: "    ".toList := rfl
  have hkey : (key m.id).toList = quotedChars m.id.text.toList := String.toList_ofList
  rw [text, hfirst, List.map_cons, String.join_cons, wrapper]
  simp only [String.toList_append, hopening, hhead, hkey, hindent, List.append_assoc,
    List.cons_append, List.nil_append]

theorem exists_lexes (hfirst : modulesOf c g = m :: ms) (h : ExportsFirst m.source) :
    ∃ rest raw, text c g = String.ofList ('(' :: rest) ∧
      Lexes rest (openingKinds (.string raw :: headKinds [.word "export"])) := by
  obtain ⟨more, htext⟩ := toList_text hfirst
  obtain ⟨after, hbody, hends⟩ := exists_body m.source more
  obtain ⟨rest, hlength, hread⟩ := read_append (by decide) h hends
  have hexport : Lexes ('\n' :: (m.source.toList ++ after)) [.word "export"] := by
    refine ⟨rest, ?_, trivial, fun offset => ⟨(hread offset).1, (hread offset).2, nofun⟩⟩
    simp only [List.length_cons, List.length_append]
    omega
  obtain ⟨raw, hkey⟩ := lexes_quoted m.id.text.toList (lexes_head hexport)
  refine ⟨_, raw, ?_, lexes_opening hkey⟩
  rw [← String.toList_inj, String.toList_ofList, htext, hbody]

/-- the text of a bundle whose first module exports is refused -/
theorem parse_text (hfirst : modulesOf c g = m :: ms) (h : ExportsFirst m.source) :
    ∃ e, parse (text c g) = .error e ∧ e.message = Complaint.importOutsideModule.text := by
  obtain ⟨rest, raw, htext, hlexes⟩ := exists_lexes hfirst h
  rw [htext]
  exact parse_of_lexes hlexes

end Bundle

/-! ## compilations -/

variable {σ : Type} {o : Options σ} {fits : (q : Question) → q.Answer → Prop} {limit : Nat}

/-- **A bundle whose first module exports is no program**, though the compilation was made: the text
of a module is put into a function as it is, and an `export` is refused there. -/
theorem parse_bundle_of_exportsFirst {made : Compilation} {c : Chunk} {m : Module} {ms : List Module}
    (h : (compilation o limit).EndsIn fits (.ok made)) (hc : c ∈ made.chunks)
    (hfirst : Bundle.modulesOf c made.graph = m :: ms) (hexports : Script.ExportsFirst m.source) :
    ∃ text e, made.assets.get? (o.filenameFor c.name) = some text ∧ Script.parse text = .error e ∧
      e.message = Script.Complaint.importOutsideModule.text := by
  obtain ⟨_, _, -, hmade⟩ := compiled_of_compilation h
  obtain ⟨e, hparse, he⟩ := Bundle.parse_text hfirst hexports
  exact ⟨_, e, hmade.bundle hc, hparse, he⟩

/-- a file that is a module -/
def exportingFiles : Memory := .ofList [(⟨"/p/a.js"⟩, .text "export default 1;\n")]

def exporting : Options Unit := (Options.new ⟨"/p"⟩).entry "a" "./a"

theorem exists_exporting : ∃ made c m,
    (compilation exporting ModuleGraph.capacity).EndsIn
      (Dialogue.Known (exportingFiles.answer Script.parser)) (.ok made) ∧ c ∈ made.chunks ∧
    Bundle.modulesOf c made.graph = [m] ∧ Script.ExportsFirst m.source := by
  have hr : ((compilation exporting ModuleGraph.capacity).result
      (exportingFiles.answer Script.parser)).toOption.map
        (fun made => made.chunks.map
          (fun c => (Bundle.modulesOf c made.graph).map Module.source)) =
      some [["export default 1;\n"]] := by
    decide +kernel
  generalize exporting = o at hr ⊢
  generalize exportingFiles.answer Script.parser = answer at hr ⊢
  cases hmade : (compilation o ModuleGraph.capacity).result answer with
  | error e =>
    rw [hmade] at hr
    cases hr
  | ok made =>
    rw [hmade] at hr
    obtain ⟨c, hc, hmodules⟩ := List.map_eq_singleton_iff.mp (Option.some.inj hr)
    obtain ⟨m, hm, hsource⟩ := List.map_eq_singleton_iff.mp hmodules
    refine ⟨made, c, m, Dialogue.endsIn_known.mpr hmade, hc ▸ List.mem_cons_self, hm, ?_⟩
    rw [hsource]
    rfl

/-- a module of one line -/
theorem parse_bundle_default : ∃ made c m,
    (compilation exporting ModuleGraph.capacity).EndsIn
      (Dialogue.Known (exportingFiles.answer Script.parser)) (.ok made) ∧ c ∈ made.chunks ∧
    Bundle.modulesOf c made.graph = [m] ∧ Script.ExportsFirst m.source ∧
    ∃ text e, made.assets.get? (exporting.filenameFor c.name) = some text ∧
      Script.parse text = .error e ∧
      e.message = Script.Complaint.importOutsideModule.text := by
  obtain ⟨made, c, m, h, hc, hm, hexports⟩ := exists_exporting
  exact ⟨made, c, m, h, hc, hm, hexports, parse_bundle_of_exportsFirst h hc hm hexports⟩

/-- so not every asset of a compilation can be read again -/
theorem not_every_bundle_parses :
    ¬ ∀ (files : Memory) (o : Options Unit) (made : Compilation) (filename text : String),
      (compilation o ModuleGraph.capacity).EndsIn
        (Dialogue.Known (files.answer Script.parser)) (.ok made) →
      made.assets.get? filename = some text → ∃ s, Script.parse text = .ok s := by
  intro hall
  obtain ⟨made, c, m, h, hc, hm, hexports⟩ := exists_exporting
  obtain ⟨_, _, -, hmade⟩ := compiled_of_compilation h
  obtain ⟨e, hparse, -⟩ := Bundle.parse_text hm hexports
  obtain ⟨s, hs⟩ := hall _ _ _ _ _ h (hmade.bundle hc)
  rw [hparse] at hs
  cases hs

end Bindle
