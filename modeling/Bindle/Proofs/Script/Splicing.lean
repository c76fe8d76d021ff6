import Bindle.Proofs.Script.Render

/-!
# What a rendered source is

Rendering puts the new values in order and copies the pieces between them.  What comes out is said
without an order: every character of the source stays, unless a new value covers it; the first
character of a covered piece gives the literal, the others give nothing.

* `Range.Apart`       two pieces have no byte in common;
* `Range.On`          a piece of a source: between characters, and not empty;
* `edited`            the source with new values for some of its pieces;
* `Sliceable`         all that rendering copies from the source is a piece of it;
* `Segment`           a piece with what is kept before it; a source is cut into segments and a tail;
* `render_eq_edited`  what is rendered, if the pieces are apart.
-/

namespace Bindle.Script

open Bindle.Text

namespace Range

def covers (r : Range) (offset : Nat) : Bool := r.start ≤ offset && offset < r.stop

/-- two pieces have no byte in common -/
def Apart (r q : Range) : Prop := r.stop ≤ q.start ∨ q.stop ≤ r.start

/-- a piece of the source: it begins and ends between characters, and it is not empty -/
def On (source : List Char) (r : Range) : Prop :=
  r.start < r.stop ∧ ∃ text, slice? source r.start r.stop = some text

theorem covers_iff {r : Range} {offset : Nat} :
    r.covers offset = true ↔ r.start ≤ offset ∧ offset < r.stop := by
  simp [covers]

theorem Apart.symm {r q : Range} (h : r.Apart q) : q.Apart r := Or.symm h

theorem Apart.not_covers {r q : Range} (h : r.Apart q) {offset : Nat}
    (hr : r.covers offset = true) : ¬ q.covers offset = true := by
  rw [covers_iff] at hr ⊢
  rcases h with h | h <;> omega

end Range

/-- what stands for one character when some pieces of the source have new values -/
def editedChar (edits : List (Range × String)) (offset : Nat) (c : Char) : List Char :=
  match edits.find? (fun e => e.1.covers offset) with
  | none => [c]
  | some (r, value) => if r.start = offset then Literal.quoteChars value.toList else []

/-- the source from byte `offset` on, with new values for some of its pieces -/
def edited (edits : List (Range × String)) (offset : Nat) : List Char → List Char
  | [] => []
  | c :: cs => editedChar edits offset c ++ edited edits (offset + c.utf8Size) cs

/-! ## characters that stay and characters that go -/

section

variable {edits : List (Range × String)}

/-- what no piece covers stays -/
theorem edited_append_of_not_covers {kept rest : List Char} {offset : Nat}
    (h : ∀ e ∈ edits, e.1.stop ≤ offset ∨ offset + byteLength kept ≤ e.1.start) :
    edited edits offset (kept ++ rest) = kept ++ edited edits (offset + byteLength kept) rest := by
  induction kept generalizing offset with
  | nil => rfl
  | cons c cs ih =>
    have hc := utf8Size_pos c
    have hnone : edits.find? (fun e => e.1.covers offset) = none := by
      refine List.find?_eq_none.mpr fun e he hcovers => ?_
      rw [Range.covers_iff] at hcovers
      have := h e he
      rw [byteLength_cons] at this
      omega
    have hlater : edited edits (offset + c.utf8Size) (cs ++ rest) =
        cs ++ edited edits (offset + c.utf8Size + byteLength cs) rest := ih fun e he => by
      have := h e he
      rw [byteLength_cons] at this
      omega
    rw [List.cons_append, edited, editedChar, hnone, hlater, byteLength_cons, Nat.add_assoc]
    rfl

/-- at most one of some pieces that are apart covers a byte -/
theorem find?_covers (hapart : edits.Pairwise fun e f => e.1.Apart f.1) {e : Range × String}
    (he : e ∈ edits) {offset : Nat} (hcovers : e.1.covers offset = true) :
    edits.find? (fun e => e.1.covers offset) = some e := by
  induction edits with
  | nil => exact absurd he List.not_mem_nil
  | cons f edits ih =>
    obtain ⟨hf, hedits⟩ := List.pairwise_cons.mp hapart
    rcases List.mem_cons.mp he with rfl | he
    · exact List.find?_cons_of_pos hcovers
    · rw [List.find?_cons_of_neg]
      · exact ih hedits he
      · exact (hf e he).symm.not_covers hcovers

variable (hapart : edits.Pairwise fun e f => e.1.Apart f.1) {r : Range} {value : String}
  (hmem : (r, value) ∈ edits)

include hapart hmem

/-- of a covered piece, only the first character gives something -/
theorem edited_append_of_covers {gone rest : List Char} {offset : Nat} (hstart : r.start < offset)
    (hstop : offset + byteLength gone = r.stop) :
    edited edits offset (gone ++ rest) = edited edits r.stop rest := by
  induction gone generalizing offset with
  | nil =>
    rw [byteLength_nil, Nat.add_zero] at hstop
    rw [hstop, List.nil_append]
  | cons c cs ih =>
    have hc := utf8Size_pos c
    rw [byteLength_cons] at hstop
    have hcovers : r.covers offset = true := Range.covers_iff.mpr ⟨by omega, by omega⟩
    rw [List.cons_append, edited, editedChar, find?_covers hapart hmem hcovers]
    show (if r.start = offset then _ else []) ++ _ = _
    rw [if_neg (by omega), List.nil_append]
    exact ih (by omega) (by omega)

theorem edited_piece {text rest : List Char} (hne : r.start < r.stop)
    (htext : r.start + byteLength text = r.stop) :
    edited edits r.start (text ++ rest) =
      Literal.quoteChars value.toList ++ edited edits r.stop rest := by
  cases text with
  | nil =>
    rw [byteLength_nil] at htext
    omega
  | cons c cs =>
    have hc := utf8Size_pos c
    rw [byteLength_cons] at htext
    have hcovers : r.covers r.start = true := Range.covers_iff.mpr ⟨Nat.le_refl _, hne⟩
    rw [List.cons_append, edited, editedChar, find?_covers hapart hmem hcovers]
    show (if r.start = r.start then _ else []) ++ _ = _
    rw [if_pos rfl, edited_append_of_covers hapart hmem (by omega) (by omega)]

end

/-! ## the order of the new values -/

theorem insertSplice_sorted (s : Range × String) {splices : List (Range × String)}
    (h : splices.Pairwise fun a b => a.1.start ≤ b.1.start) :
    (insertSplice s splices).Pairwise fun a b => a.1.start ≤ b.1.start := by
  induction splices with
  | nil => exact List.pairwise_singleton _ _
  | cons t ts ih =>
    obtain ⟨ht, hts⟩ := List.pairwise_cons.mp h
    unfold insertSplice
    split
    · rename_i hlt
      refine List.pairwise_cons.mpr ⟨fun u hu => ?_, h⟩
      rcases List.mem_cons.mp hu with rfl | hu
      · omega
      · have := ht u hu
        omega
    · rename_i hge
      refine List.pairwise_cons.mpr ⟨fun u hu => ?_, ih hts⟩
      rcases List.mem_cons.mp ((insertSplice_perm s ts).mem_iff.mp hu) with rfl | hu
      · omega
      · exact ht u hu

theorem sortSplices_sorted (splices : List (Range × String)) :
    (sortSplices splices).Pairwise fun a b => a.1.start ≤ b.1.start := by
  have hfold : ∀ sorted : List (Range × String),
      sorted.Pairwise (fun a b => a.1.start ≤ b.1.start) →
      (splices.foldl (fun sorted s => insertSplice s sorted) sorted).Pairwise
        fun a b => a.1.start ≤ b.1.start := by
    induction splices with
    | nil => exact fun sorted h => h
    | cons s splices ih => exact fun sorted h => ih _ (insertSplice_sorted s h)
  exact hfold [] List.Pairwise.nil

/-- in their order, pieces that are apart follow each other -/
theorem sortSplices_consecutive {splices : List (Range × String)}
    (hapart : splices.Pairwise fun e f => e.1.Apart f.1)
    (hne : ∀ e ∈ splices, e.1.start < e.1.stop) :
    (sortSplices splices).Pairwise fun a b => a.1.stop ≤ b.1.start := by
  have hperm := sortSplices_perm splices
  have hsorted := sortSplices_sorted splices
  have hapart' := (hperm.pairwise_iff (fun h => Range.Apart.symm h)).mpr hapart
  refine (hsorted.and hapart').imp_of_mem fun {a b} _ hb h => ?_
  have := hne b (hperm.mem_iff.mp hb)
  rcases h with ⟨hle, h | h⟩ <;> omega

/-! ## rendering -/

theorem append_of_byteLength_le {a b p q : List Char} (h : a ++ b = p ++ q)
    (hle : byteLength a ≤ byteLength p) : ∃ m, p = a ++ m ∧ b = m ++ q := by
  rcases List.append_eq_append_iff.mp h with ⟨m, hp, hb⟩ | ⟨m, ha, hq⟩
  · exact ⟨m, hp, hb⟩
  · cases m with
    | nil => exact ⟨[], by rw [ha, List.append_nil, List.append_nil], by rw [hq]; rfl⟩
    | cons c m =>
      have hc := utf8Size_pos c
      rw [ha, byteLength_append, byteLength_cons] at hle
      omega

/-- all that rendering copies from byte `cursor` on is a piece of the source -/
def Sliceable (source : List Char) (cursor : Nat) : List (Range × String) → Prop
  | [] => ∃ text, dropBytes? cursor source = some text
  | (r, _) :: rest => (∃ text, slice? source cursor r.start = some text) ∧
      Sliceable source r.stop rest

/-- a piece of the source that gets a new text, and what is kept before it -/
structure Segment where
  kept : List Char
  gone : List Char
  range : Range
  value : String

namespace Segment

def edit (g : Segment) : Range × String := (g.range, g.value)

def oldText (g : Segment) : List Char := g.kept ++ g.gone

def newText (g : Segment) : List Char := g.kept ++ Literal.quoteChars g.value.toList

/-- segments that follow each other from byte `offset` on, each piece where its range says -/
def Follow (offset : Nat) : List Segment → Prop
  | [] => True
  | g :: gs => g.range.start = offset + byteLength g.kept ∧
      g.range.stop = g.range.start + byteLength g.gone ∧ Follow g.range.stop gs

theorem Follow.le_start {offset : Nat} {gs : List Segment} (h : Follow offset gs) {g : Segment}
    (hg : g ∈ gs) : offset ≤ g.range.start := by
  induction gs generalizing offset with
  | nil => exact absurd hg List.not_mem_nil
  | cons f gs ih =>
    obtain ⟨hstart, hstop, hlater⟩ := h
    rcases List.mem_cons.mp hg with rfl | hg
    · omega
    · have := ih hlater hg
      omega

end Segment

open Segment

/-- pieces that follow each other cut the source into segments -/
theorem exists_segments {source : List Char} {coming : List (Range × String)}
    (hon : ∀ e ∈ coming, e.1.On source) (hcoming : coming.Pairwise fun a b => a.1.stop ≤ b.1.start)
    {before rest : List Char} (hsource : source = before ++ rest)
    (hafter : ∀ e ∈ coming, byteLength before ≤ e.1.start) :
    ∃ segments tail, segments.map edit = coming ∧ Follow (byteLength before) segments ∧
      rest = segments.flatMap oldText ++ tail := by
  induction coming generalizing before rest with
  | nil => exact ⟨[], rest, rfl, trivial, rfl⟩
  | cons e coming ih =>
    obtain ⟨r, value⟩ := e
    obtain ⟨hfirst, hcoming⟩ := List.pairwise_cons.mp hcoming
    obtain ⟨-, text, hslice⟩ := hon _ List.mem_cons_self
    obtain ⟨p, q, hpq, hstart, hstop⟩ := slice?_eq_some_iff.mp hslice
    have hboth : before ++ rest = p ++ (text ++ q) := by rw [← hsource, hpq, List.append_assoc]
    obtain ⟨kept, hkept, hrest⟩ := append_of_byteLength_le hboth (by
      rw [hstart]
      exact hafter _ List.mem_cons_self)
    obtain ⟨segments, tail, hedits, hfollow, hq⟩ := ih
      (fun e he => hon e (List.mem_cons_of_mem _ he)) hcoming hpq
      (fun e he => by rw [hstop]; exact hfirst e he)
    rw [hstop] at hfollow
    refine ⟨⟨kept, text, r, value⟩ :: segments, tail, congrArg _ hedits, ⟨?_, ?_, hfollow⟩, ?_⟩
    · rw [← hstart, hkept, byteLength_append]
    · rw [← hstop, byteLength_append, hstart]
    · simp only [hrest, hq, List.flatMap_cons, oldText, List.append_assoc]

/-- the loop that copies what is kept and puts the new values between -/
theorem spliceFrom_segments {source before tail : List Char} {segments : List Segment}
    (hsource : source = before ++ (segments.flatMap oldText ++ tail))
    (hfollow : Follow (byteLength before) segments) :
    Sliceable source (byteLength before) (segments.map edit) ∧
      spliceFrom source (byteLength before) (segments.map edit) =
        segments.flatMap newText ++ tail := by
  induction segments generalizing before with
  | nil =>
    have hdrop : dropBytes? (byteLength before) source = some tail :=
      dropBytes?_eq_some_iff.mpr ⟨before, hsource, rfl⟩
    refine ⟨⟨tail, hdrop⟩, ?_⟩
    show (dropBytes? (byteLength before) source).getD [] = tail
    rw [hdrop, Option.getD_some]
  | cons g segments ih =>
    obtain ⟨hstart, hstop, hlater⟩ := hfollow
    have hcut : source = before ++ g.kept ++ (g.gone ++ (segments.flatMap oldText ++ tail)) := by
      simp only [hsource, List.flatMap_cons, oldText, List.append_assoc]
    have hkept : slice? source (byteLength before) g.range.start = some g.kept :=
      slice?_eq_some_iff.mpr ⟨before, _, hcut, rfl, by rw [byteLength_append, hstart]⟩
    have hreach : byteLength (before ++ g.kept ++ g.gone) = g.range.stop := by
      simp only [byteLength_append, hstop, hstart]
    have hrest : source = before ++ g.kept ++ g.gone ++ (segments.flatMap oldText ++ tail) := by
      rw [hcut, List.append_assoc _ g.gone]
    obtain ⟨hslices, hsplice⟩ := ih hrest (hreach ▸ hlater)
    rw [hreach] at hslices hsplice
    refine ⟨⟨⟨g.kept, hkept⟩, hslices⟩, ?_⟩
    rw [List.map_cons, edit, spliceFrom, hkept, Option.getD_some, hsplice, List.flatMap_cons,
      newText]
    simp only [List.append_assoc]

/-- the segments from byte `offset` on, when every other piece lies before it -/
theorem edited_segments {edits : List (Range × String)}
    (hapart : edits.Pairwise fun e f => e.1.Apart f.1) (hne : ∀ e ∈ edits, e.1.start < e.1.stop)
    {segments : List Segment} {offset : Nat} (hfollow : Follow offset segments)
    (hin : ∀ g ∈ segments, g.edit ∈ edits)
    (hsplit : ∀ e ∈ edits, e ∈ segments.map edit ∨ e.1.stop ≤ offset) (tail : List Char) :
    edited edits offset (segments.flatMap oldText ++ tail) = segments.flatMap newText ++ tail := by
  induction segments generalizing offset with
  | nil =>
    have hkeep : edited edits offset (tail ++ []) = tail ++ [] :=
      edited_append_of_not_covers fun e he => .inl ((hsplit e he).resolve_left List.not_mem_nil)
    rwa [List.append_nil] at hkeep
  | cons g segments ih =>
    obtain ⟨hstart, hstop, hlater⟩ := hfollow
    have hmem : (g.range, g.value) ∈ edits := hin g List.mem_cons_self
    have hpiece := hne _ hmem
    have hkeep : ∀ e ∈ edits, e.1.stop ≤ offset ∨ offset + byteLength g.kept ≤ e.1.start := by
      intro e he
      refine (hsplit e he).symm.imp_right fun he => ?_
      obtain ⟨f, hf, rfl⟩ := List.mem_map.mp he
      rw [← hstart]
      rcases List.mem_cons.mp hf with rfl | hf
      · exact Nat.le_refl _
      · exact Nat.le_trans (Nat.le_of_lt hpiece) (hlater.le_start hf)
    have hrest := ih hlater (fun f hf => hin f (List.mem_cons_of_mem _ hf)) fun e he => by
      rcases hsplit e he with he | he
      · rcases List.mem_cons.mp he with rfl | he
        · exact .inr (Nat.le_refl _)
        · exact .inl he
      · exact .inr (by omega)
    simp only [List.flatMap_cons, oldText, newText, List.append_assoc]
    rw [edited_append_of_not_covers hkeep, ← hstart, edited_piece hapart hmem hpiece hstop.symm,
      hrest]

/-- the segments that the new values of a script cut its source into -/
theorem exists_segments_sortSplices {source : List Char} {splices : List (Range × String)}
    (hon : ∀ e ∈ splices, e.1.On source) (hapart : splices.Pairwise fun e f => e.1.Apart f.1) :
    ∃ segments tail, segments.map edit = sortSplices splices ∧ Follow 0 segments ∧
      source = segments.flatMap oldText ++ tail := by
  have hstart : source = [] ++ source := rfl
  exact exists_segments (fun e he => hon e ((sortSplices_perm splices).mem_iff.mp he))
    (sortSplices_consecutive hapart fun e he => (hon e he).1) hstart fun _ _ => Nat.zero_le _

/-- **What is rendered is the source with the new values in place**, whatever their order; all that
is copied is there. -/
theorem render_eq_edited (s : Script)
    (hon : ∀ e ∈ s.calls.filterMap Call.splice?, e.1.On s.source.toList)
    (hapart : (s.calls.filterMap Call.splice?).Pairwise fun e f => e.1.Apart f.1) :
    Sliceable s.source.toList 0 (sortSplices (s.calls.filterMap Call.splice?)) ∧
      s.render = String.ofList (edited (s.calls.filterMap Call.splice?) 0 s.source.toList) := by
  have hperm := sortSplices_perm (s.calls.filterMap Call.splice?)
  obtain ⟨segments, tail, hedits, hfollow, hsource⟩ := exists_segments_sortSplices hon hapart
  have hstart : s.source.toList = [] ++ (segments.flatMap oldText ++ tail) := hsource
  obtain ⟨hslices, hsplice⟩ := spliceFrom_segments hstart hfollow
  have hedited := edited_segments hapart (fun e he => (hon e he).1) hfollow
    (fun g hg => hperm.mem_iff.mp (hedits ▸ List.mem_map_of_mem hg))
    (fun e he => .inl (hedits ▸ hperm.mem_iff.mpr he)) tail
  rw [hedits] at hslices hsplice
  refine ⟨hslices, congrArg String.ofList ?_⟩
  rw [hsource, hedited, ← hsource]
  exact hsplice

end Bindle.Script
