import Bindle.Component.Loader
import Bindle.Proofs.Script.Framed.Calls

/-!
# Comment lines keep the calls of a script

`banner` and `footer` paste a text behind `// `.  When the text has no line end in it, the script is
accepted as before, and its calls are the same ones.

* `KeepsCalls`              a loader takes a script to one with the same calls, further down;
* `keepsCalls_comments`     so do both loaders, the banner where it leaves the first line first.
-/

namespace Bindle.Loader

open Bindle.Text Bindle.Script

/-- what the loader makes of a script is a script with the same calls, `lines` lines and `bytes`
bytes further down -/
def KeepsCalls (f : Factory Transform) (options : Json) (s : Script) (lines bytes : Nat) : Prop :=
  ∃ t changed s', f.create options = .ok t ∧ t.apply s.source = .ok changed ∧
    Script.parse changed = .ok s' ∧ List.Forall₂ (Call.Moves lines bytes) s.calls s'.calls

theorem keepsCalls_commenting_iff {name description : String} {change : String → String → String}
    {options : Json} {text : String} (h : commentText options = .ok text) {s : Script}
    {lines bytes : Nat} :
    KeepsCalls (commenting name description change) options s lines bytes ↔
      ∃ s', Script.parse (change text s.source) = .ok s' ∧
        List.Forall₂ (Call.Moves lines bytes) s.calls s'.calls := by
  have hcreate : (commenting name description change).create options =
      .ok ⟨name, fun source => .ok (change text source)⟩ := by
    unfold commenting
    dsimp only
    rw [h]
  constructor
  · rintro ⟨t, changed, s', ht, happly, hparse, hcalls⟩
    obtain rfl := Except.ok.inj (hcreate.symm.trans ht)
    obtain rfl := Except.ok.inj happly
    exact ⟨s', hparse, hcalls⟩
  · rintro ⟨s', hparse, hcalls⟩
    exact ⟨_, _, s', hcreate, rfl, hparse, hcalls⟩

theorem toList_withFooter (text source : String) :
    (withFooter text source).toList = source.toList ++ '\n' :: '/' :: '/' :: ' ' :: text.toList := by
  rw [withFooter, String.toList_append, String.toList_append, List.append_assoc]
  rfl

/-- the line that a banner puts in front -/
def bannerLine (text : String) : List Char := '/' :: '/' :: (' ' :: text.toList ++ ['\n'])

theorem toList_withBanner (text source : String) :
    (withBanner text source).toList = bannerLine text ++ source.toList := by
  rw [withBanner, String.toList_append, String.toList_append, String.toList_append]
  rfl

section

variable {options : Json} {text : String} (hoptions : commentText options = .ok text)
  (hline : ∀ c ∈ text.toList, isLineEnd c = false) {source : String} {s : Script}
  (hs : Script.parse source = .ok s)
include hoptions hline hs

theorem keepsCalls_footer : KeepsCalls footer options s 0 0 := by
  obtain ⟨tree, htree, rfl⟩ := exists_tree_of_parse hs
  have hbehind : IsCommentLine ('\n' :: '/' :: '/' :: ' ' :: text.toList) := by
    refine .inr ⟨_, rfl, fun c hc => ?_⟩
    rcases List.mem_cons.mp hc with rfl | hc
    · rfl
    · exact hline c hc
  obtain ⟨tree', hi, htree', hreads⟩ := exists_readTree_behind htree hbehind
  have hcalls := (Frame.around_behind source.toList hbehind).forall₂_calls rfl htree hreads
  rw [← toList_withFooter] at htree' hcalls
  exact (keepsCalls_commenting_iff hoptions).mpr ⟨_, parse_of_readTree htree', hcalls⟩

theorem keepsCalls_banner (hmark : source.toList.head? ≠ some byteOrderMark)
    (hplain : ['#', '!'].isPrefixOf source.toList = false) :
    KeepsCalls banner options s 1 (byteLength (bannerLine text)) := by
  obtain ⟨tree, htree, rfl⟩ := exists_tree_of_parse hs
  have hfront : IsLeadingComment (bannerLine text) := by
    refine ⟨_, rfl, fun c hc => ?_⟩
    rcases List.mem_cons.mp hc with rfl | hc
    · rfl
    · exact hline c hc
  have hwithout := withoutMark_of_head? hmark
  obtain ⟨tree', hi, htree', hreads⟩ := exists_readTree_front htree hwithout hplain hfront
  have hcalls := (Frame.around_front source.toList hfront).forall₂_calls hwithout.symm
    htree hreads
  rw [← toList_withBanner] at htree' hcalls
  exact (keepsCalls_commenting_iff hoptions).mpr ⟨_, parse_of_readTree htree', hcalls⟩

/-- **A comment of one line changes no call.**  A footer leaves all calls where they are.  A banner
moves them one line down and by the bytes of that line, unless the script begins with a byte order
mark or `#!`, which count at the start of a text only. -/
theorem keepsCalls_comments : KeepsCalls footer options s 0 0 ∧
    (source.toList.head? ≠ some byteOrderMark → ['#', '!'].isPrefixOf source.toList = false →
      KeepsCalls banner options s 1 (byteLength (bannerLine text))) :=
  ⟨keepsCalls_footer hoptions hline hs, keepsCalls_banner hoptions hline hs⟩

end

/-- the text that is pasted when none is given -/
theorem keepsCalls_defaultText : commentText .null = .ok defaultText ∧
    (∀ c ∈ defaultText.toList, isLineEnd c = false) ∧
    "require('./a');".toList.head? ≠ some byteOrderMark ∧
    ['#', '!'].isPrefixOf "require('./a');".toList = false ∧
    ∃ s, Script.parse "require('./a');" = .ok s ∧ s.calls.map Call.literal? = [some "./a"] ∧
      KeepsCalls footer .null s 0 0 ∧ KeepsCalls banner .null s 1 8 := by
  have hs : (Script.parse "require('./a');").toOption.map (·.calls.map Call.literal?) =
      some [some "./a"] := by decide +kernel
  have hdefault : commentText .null = .ok defaultText := rfl
  have hall : defaultText.toList.all (fun c => !isLineEnd c) = true := by decide +kernel
  have hline : ∀ c ∈ defaultText.toList, isLineEnd c = false := fun c hc =>
    Bool.not_eq_true' _ ▸ List.all_eq_true.mp hall c hc
  have hmark : "require('./a');".toList.head? ≠ some byteOrderMark := by decide +kernel
  have hplain : ['#', '!'].isPrefixOf "require('./a');".toList = false := by decide +kernel
  have hbytes : byteLength (bannerLine defaultText) = 8 := by decide +kernel
  refine ⟨rfl, hline, hmark, hplain, ?_⟩
  generalize "require('./a');" = source at hs hmark hplain ⊢
  cases hparse : Script.parse source with
  | error e =>
    rw [hparse] at hs
    cases hs
  | ok s =>
    rw [hparse] at hs
    have hkeeps := keepsCalls_comments hdefault hline hparse
    refine ⟨s, rfl, Option.some.inj hs, hkeeps.1, ?_⟩
    rw [← hbytes]
    exact hkeeps.2 hmark hplain

/-- a text with a line end, and program text behind it -/
def twoLines : Json := .object [("text", .string "a\nrequire('./b')")]

/-- **A comment can add a call, and it can spoil a script.**  What stands behind a line end of the
text is read as a part of the script; behind a banner, `#!` is no comment. -/
theorem not_keepsCalls :
    (∃ s, Script.parse "x" = .ok s ∧ s.calls = [] ∧
      commentText twoLines = .ok "a\nrequire('./b')" ∧
      ∀ lines bytes, ¬KeepsCalls footer twoLines s lines bytes) ∧
    ∃ s, Script.parse "#!/usr/bin/env node\nx" = .ok s ∧ s.calls = [] ∧
      commentText .null = .ok defaultText ∧
      ∀ lines bytes, ¬KeepsCalls banner .null s lines bytes := by
  have htext : commentText twoLines = .ok "a\nrequire('./b')" := by decide +kernel
  have hplain : ∀ source, (Script.parse source).toOption.map (·.calls) = some [] →
      ∃ s, Script.parse source = .ok s ∧ s.source = source ∧ s.calls = [] := by
    intro source h
    cases hparse : Script.parse source with
    | error e =>
      rw [hparse] at h
      cases h
    | ok s =>
      rw [hparse] at h
      obtain ⟨tree, -, rfl⟩ := exists_tree_of_parse hparse
      exact ⟨_, rfl, rfl, Option.some.inj h⟩
  constructor
  · obtain ⟨s, hs, hsource, hcalls⟩ := hplain "x" (by decide +kernel)
    refine ⟨s, hs, hcalls, htext, fun lines bytes h => ?_⟩
    obtain ⟨s', hs', hmoves⟩ := (keepsCalls_commenting_iff htext).mp h
    have hlength : (Script.parse (withFooter "a\nrequire('./b')" "x")).toOption.map
        (·.calls.length) = some 1 := by decide +kernel
    rw [← hsource, hs'] at hlength
    have heq := hmoves.length_eq
    rw [hcalls] at heq
    exact absurd (heq.trans (Option.some.inj hlength)) (by decide)
  · obtain ⟨s, hs, hsource, hcalls⟩ := hplain "#!/usr/bin/env node\nx" (by decide +kernel)
    have hdefault : commentText .null = .ok defaultText := rfl
    refine ⟨s, hs, hcalls, hdefault, fun lines bytes h => ?_⟩
    obtain ⟨s', hs', -⟩ := (keepsCalls_commenting_iff hdefault).mp h
    have hrefused : (Script.parse (withBanner defaultText "#!/usr/bin/env node\nx")).toOption.map
        (·.calls.length) = none := by decide +kernel
    rw [← hsource, hs'] at hrefused
    cases hrefused

end Bindle.Loader
