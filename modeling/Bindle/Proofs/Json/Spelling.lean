import Bindle.Proofs.Json.Reads

/-!
# How strings may be written

One string has many spellings: each of its characters may stand for itself, or be escaped by a
letter or by one or two codes.  Which text stands for what is said by the grammar, not by the reader.

* `Digits ds n`          four hexadecimal digits for a number;
* `Spells t s`           `t` between quotes stands for the characters `s`;
* `Quotes text s`        a string with its quotes;
* `reads_readString_iff` a string is read from exactly its spellings.
-/

namespace Bindle.Json

open Bindle.Text Read

/-! ## strings -/

/-- four hexadecimal digits for the number `n` -/
structure Digits (ds : List Char) (n : Nat) : Prop where
  length : ds.length = 4
  hexadecimal : ds.all isHexDigit = true
  value : hexNumber ds = n

/-- the text `t` between quotes stands for the characters `s`, each in one of its spellings -/
inductive Spells : List Char → List Char → Prop where
  | nil : Spells [] []
  | plain {c : Char} {t s : List Char} (hquote : c ≠ '\x22') (hslash : c ≠ '\\')
      (hcontrol : 0x20 ≤ c.toNat) (h : Spells t s) : Spells (c :: t) (c :: s)
  | letter {l c : Char} {t s : List Char} (hl : letterEscape? l = some c) (h : Spells t s) :
      Spells ('\\' :: l :: t) (c :: s)
  | code {n : Nat} {ds t s : List Char} (hds : Digits ds n) (hlead : isLead n = false)
      (htrail : isTrail n = false) (h : Spells t s) :
      Spells ('\\' :: 'u' :: (ds ++ t)) (Char.ofNat n :: s)
  | pair {lead trail : Nat} {ds es t s : List Char} (hds : Digits ds lead) (hes : Digits es trail)
      (hlead : isLead lead = true) (htrail : isTrail trail = true) (h : Spells t s) :
      Spells ('\\' :: 'u' :: (ds ++ '\\' :: 'u' :: (es ++ t)))
        (Char.ofNat (0x10000 + (lead - 0xD800) * 0x400 + (trail - 0xDC00)) :: s)

/-- a string with its quotes -/
def Quotes (text : List Char) (s : String) : Prop :=
  ∃ t, Spells t s.toList ∧ text = '\x22' :: (t ++ ['\x22'])

/-- a character that may stand for itself -/
def isPlain (c : Char) : Bool := c != '\x22' && c != '\\' && 0x20 ≤ c.toNat

theorem quotes_of_isPlain {t : List Char} (h : t.all isPlain = true) :
    Quotes ('\x22' :: (t ++ ['\x22'])) (String.ofList t) := by
  refine ⟨t, ?_, rfl⟩
  rw [String.toList_ofList]
  induction t with
  | nil => exact .nil
  | cons c t ih =>
    rw [List.all_cons, Bool.and_eq_true] at h
    have hc := h.1
    simp only [isPlain, Bool.and_eq_true, bne_iff_ne, decide_eq_true_eq] at hc
    exact .plain hc.1.1 hc.1.2 hc.2 (ih h.2)

theorem hexEscape_of_digits {ds : List Char} {n : Nat} (h : Digits ds n) (rest : List Char)
    (i : Nat) : hexEscape ⟨ds ++ rest, i⟩ = .ok (n, ⟨rest, i + 4⟩) := by
  obtain ⟨hlength, hhex, hvalue⟩ := h
  match ds, hlength with
  | [a, b, c, d], _ =>
    simp only [List.all_cons, List.all_nil, Bool.and_true] at hhex
    simp only [hexEscape, List.cons_append, List.nil_append, Bool.and_assoc, hhex, if_true, hvalue]

theorem exists_digits_of_hexEscape {s t : Rest} {n : Nat} (h : hexEscape s = .ok (n, t)) :
    ∃ ds, Digits ds n ∧ s.chars = ds ++ t.chars := by
  unfold hexEscape at h
  split at h
  · rename_i a b c d rest heq
    split at h
    · rename_i hhex
      simp only [Except.ok.injEq, Prod.mk.injEq] at h
      obtain ⟨rfl, rfl⟩ := h
      exact ⟨[a, b, c, d], ⟨rfl, by simpa [Bool.and_assoc] using hhex, rfl⟩, heq⟩
    · cases h
  · cases h

theorem isTrail_of_isLead {n : Nat} (h : isLead n = true) : isTrail n = false := by
  simp only [isLead, isTrail, Bool.and_eq_true, decide_eq_true_eq, Bool.and_eq_false_iff,
    decide_eq_false_iff_not] at h ⊢
  omega

/-- an escaped character is read back, whatever follows it -/
theorem escapedCharacter_letter {l c : Char} (hl : letterEscape? l = some c) (cs : List Char)
    (i : Nat) : escapedCharacter ⟨l :: cs, i⟩ = .ok (c, ⟨cs, i + 1⟩) := by
  simp only [escapedCharacter, hl]

theorem escapedCharacter_code {n : Nat} {ds : List Char} (hds : Digits ds n)
    (hlead : isLead n = false) (htrail : isTrail n = false) (cs : List Char) (i : Nat) :
    escapedCharacter ⟨'u' :: (ds ++ cs), i⟩ = .ok (Char.ofNat n, ⟨cs, i + 5⟩) := by
  have hu : letterEscape? 'u' = none := rfl
  simp only [escapedCharacter, hu, if_true, unicodeCharacter, hexEscape_of_digits hds, hlead,
    htrail, Bool.false_eq_true, if_false, Nat.add_assoc]

theorem escapedCharacter_pair {lead trail : Nat} {ds es : List Char} (hds : Digits ds lead)
    (hes : Digits es trail) (hlead : isLead lead = true) (htrail : isTrail trail = true)
    (cs : List Char) (i : Nat) :
    escapedCharacter ⟨'u' :: (ds ++ '\\' :: 'u' :: (es ++ cs)), i⟩ =
      .ok (Char.ofNat (0x10000 + (lead - 0xD800) * 0x400 + (trail - 0xDC00)), ⟨cs, i + 11⟩) := by
  have hu : letterEscape? 'u' = none := rfl
  simp only [escapedCharacter, hu, if_true, unicodeCharacter, hexEscape_of_digits hds,
    isTrail_of_isLead hlead, hlead, Bool.false_eq_true, if_false, trailEscape,
    hexEscape_of_digits hes, htrail, Nat.add_assoc]

/-- one more character, read from its spelling -/
theorem stringFrom_escape {c : Char} {cs : List Char} {after : Rest} {i : Nat}
    (h : escapedCharacter ⟨cs, i + 1⟩ = .ok (c, after)) (seen : List Char) :
    stringFrom seen i ('\\' :: cs) = stringFrom (c :: seen) after.index after.chars := by
  rw [stringFrom, if_neg (by decide), if_pos rfl]
  split
  · rename_i e he
    rw [h] at he
    cases he
  · rename_i d after' he
    rw [h] at he
    cases he
    rfl

theorem stringFrom_of_spells {t s : List Char} (h : Spells t s) (seen rest : List Char) (i : Nat) :
    ∃ j, stringFrom seen i (t ++ '\x22' :: rest) = .ok (seen.reverse ++ s, ⟨rest, j⟩) := by
  induction h generalizing seen i with
  | nil =>
    refine ⟨i + 1, ?_⟩
    rw [List.nil_append, stringFrom, if_pos rfl, List.append_nil]
  | @plain c t s hquote hslash hcontrol _ ih =>
    obtain ⟨j, hj⟩ := ih (c :: seen) (i + c.utf8Size)
    refine ⟨j, ?_⟩
    rw [List.cons_append, stringFrom, if_neg hquote, if_neg hslash, if_neg (by omega), hj,
      List.reverse_cons, List.append_assoc, List.singleton_append]
  | @letter l c t s hl _ ih =>
    obtain ⟨j, hj⟩ := ih (c :: seen) (i + 1 + 1)
    refine ⟨j, ?_⟩
    rw [List.cons_append, List.cons_append, stringFrom_escape (escapedCharacter_letter hl _ _), hj,
      List.reverse_cons, List.append_assoc, List.singleton_append]
  | @code n ds t s hds hlead htrail _ ih =>
    obtain ⟨j, hj⟩ := ih (Char.ofNat n :: seen) (i + 1 + 5)
    refine ⟨j, ?_⟩
    rw [List.cons_append, List.cons_append, List.append_assoc,
      stringFrom_escape (escapedCharacter_code hds hlead htrail _ _), hj, List.reverse_cons,
      List.append_assoc, List.singleton_append]
  | @pair lead trail ds es t s hds hes hlead htrail _ ih =>
    obtain ⟨j, hj⟩ := ih
      (Char.ofNat (0x10000 + (lead - 0xD800) * 0x400 + (trail - 0xDC00)) :: seen) (i + 1 + 11)
    refine ⟨j, ?_⟩
    simp only [List.cons_append, List.append_assoc]
    rw [stringFrom_escape (escapedCharacter_pair hds hes hlead htrail _ _), hj, List.reverse_cons,
      List.append_assoc, List.singleton_append]

theorem exists_pair_of_trailEscape {lead : Nat} {s t : Rest} {c : Char}
    (h : trailEscape lead s = .ok (c, t)) :
    ∃ es trail, Digits es trail ∧ isTrail trail = true ∧ s.chars = '\\' :: 'u' :: (es ++ t.chars) ∧
      c = Char.ofNat (0x10000 + (lead - 0xD800) * 0x400 + (trail - 0xDC00)) := by
  unfold trailEscape at h
  split at h
  · cases h
  · rename_i cs heq
    split at h
    · cases h
    · rename_i trail after hx
      split at h
      · rename_i htrail
        obtain ⟨hc, ht⟩ := Prod.mk.inj (Except.ok.inj h)
        obtain ⟨es, hes, hchars⟩ := exists_digits_of_hexEscape hx
        refine ⟨es, trail, hes, htrail, ?_, hc.symm⟩
        rw [heq, ← ht]
        exact congrArg _ (congrArg _ hchars)
      · cases h
  all_goals cases h

/-- what is read behind a backslash is one of the spellings -/
theorem exists_escape {s after : Rest} {c : Char} (h : escapedCharacter s = .ok (c, after)) :
    ∃ e, s.chars = e ++ after.chars ∧
      ∀ t cs, Spells t cs → Spells ('\\' :: (e ++ t)) (c :: cs) := by
  unfold escapedCharacter at h
  split at h
  · cases h
  rename_i l rest heq
  split at h
  · rename_i d hl
    cases h
    exact ⟨[l], heq, fun t cs => .letter hl⟩
  split at h
  · rename_i hu
    subst hu
    unfold unicodeCharacter at h
    split at h
    · cases h
    rename_i n middle hx
    obtain ⟨ds, hds, hchars⟩ := exists_digits_of_hexEscape hx
    split at h
    · cases h
    rename_i htrail
    split at h
    · rename_i hlead
      obtain ⟨es, trail, hes, htrail', hchars', hc⟩ := exists_pair_of_trailEscape h
      refine ⟨'u' :: (ds ++ '\\' :: 'u' :: es), ?_, fun t cs ht => ?_⟩
      · rw [heq, show rest = ds ++ middle.chars from hchars, hchars', List.cons_append,
          List.append_assoc]
        rfl
      · rw [hc, List.cons_append, List.append_assoc]
        exact .pair hds hes hlead htrail' ht
    · rename_i hlead
      obtain ⟨hc, rfl⟩ := Prod.mk.inj (Except.ok.inj h)
      refine ⟨'u' :: ds, ?_, fun t cs ht => ?_⟩
      · rw [heq, show rest = ds ++ middle.chars from hchars]
        rfl
      · rw [← hc]
        exact .code hds (Bool.eq_false_iff.mpr hlead) (Bool.eq_false_iff.mpr htrail) ht
  · cases h

theorem exists_spells_of_stringFrom {seen cs out : List Char} {i : Nat} {after : Rest}
    (h : stringFrom seen i cs = .ok (out, after)) :
    ∃ t s, Spells t s ∧ cs = t ++ '\x22' :: after.chars ∧ out = seen.reverse ++ s := by
  induction seen, i, cs using stringFrom.induct generalizing out after with
  | case1 seen i =>
    rw [stringFrom] at h
    cases h
  | case2 seen i cs =>
    rw [stringFrom, if_pos rfl] at h
    cases h
    exact ⟨[], [], .nil, rfl, (List.append_nil _).symm⟩
  | case3 seen i cs e he hne =>
    rw [stringFrom, if_neg hne, if_pos rfl] at h
    split at h
    · cases h
    · rename_i hd
      rw [he] at hd
      cases hd
  | case4 seen i cs d middle hd hne ih =>
    rw [stringFrom_escape hd] at h
    obtain ⟨t, s, hs, hchars, rfl⟩ := ih h
    obtain ⟨e, he, hspells⟩ := exists_escape hd
    refine ⟨'\\' :: (e ++ t), d :: s, hspells t s hs, ?_, by simp⟩
    rw [show cs = e ++ middle.chars from he, hchars, List.cons_append, List.append_assoc]
  | case5 seen i c cs hquote hslash hcontrol =>
    rw [stringFrom, if_neg hquote, if_neg hslash, if_pos hcontrol] at h
    cases h
  | case6 seen i c cs hquote hslash hcontrol ih =>
    rw [stringFrom, if_neg hquote, if_neg hslash, if_neg hcontrol] at h
    obtain ⟨t, s, hs, rfl, rfl⟩ := ih h
    exact ⟨c :: t, c :: s, .plain hquote hslash (by omega) hs, rfl, by simp⟩

/-- the reading of a string behind its opening quote -/
theorem readString_cons (c : Char) (cs : List Char) (i : Nat) :
    readString ⟨c :: cs, i⟩ =
      match stringFrom [] (i + c.utf8Size) cs with
      | .ok (out, after) => .ok (String.ofList out) after
      | .error e => .error e ⟨cs, i + c.utf8Size⟩ := by
  rw [readString, bind_of_ok (show next ⟨c :: cs, i⟩ = .ok () ⟨cs, i + c.utf8Size⟩ from rfl)]
  cases h : stringFrom [] (i + c.utf8Size) cs with
  | ok r =>
    have hread : Read.ofExcept (fun s => stringFrom [] s.index s.chars) ⟨cs, i + c.utf8Size⟩ =
        .ok r.1 r.2 := by
      rw [Read.ofExcept, h]
    rw [bind_of_ok hread]
    rfl
  | error e =>
    have hread : Read.ofExcept (fun s => stringFrom [] s.index s.chars) ⟨cs, i + c.utf8Size⟩ =
        .error e ⟨cs, i + c.utf8Size⟩ := by
      rw [Read.ofExcept, h]
    rw [bind_of_error hread]

theorem reads_readString {text : List Char} {s : String} (h : Quotes text s) (rest : List Char) :
    Reads readString (text ++ rest) s rest := fun i => by
  obtain ⟨t, ht, rfl⟩ := h
  obtain ⟨j, hj⟩ := stringFrom_of_spells ht [] rest (i + Char.utf8Size '\x22')
  refine ⟨j, ?_⟩
  rw [List.cons_append, List.append_assoc, readString_cons, List.singleton_append, hj]
  show EStateM.Result.ok (String.ofList s.toList) _ = _
  rw [String.ofList_toList]

theorem exists_quotes_of_readString {cs : List Char} {i : Nat} {s : String} {after : Rest}
    (h : readString ⟨'\x22' :: cs, i⟩ = .ok s after) :
    ∃ text, Quotes text s ∧ '\x22' :: cs = text ++ after.chars := by
  rw [readString_cons] at h
  split at h
  · rename_i out after' hok
    cases h
    obtain ⟨t, s, hs, rfl, rfl⟩ := exists_spells_of_stringFrom hok
    exact ⟨'\x22' :: (t ++ ['\x22']), ⟨t, by simpa using hs, rfl⟩, by simp⟩
  · cases h

/-- **A string is read from exactly its spellings.** -/
theorem reads_readString_iff {cs rest : List Char} {s : String} :
    Reads readString ('\x22' :: cs) s rest ↔
      ∃ text, Quotes text s ∧ '\x22' :: cs = text ++ rest := by
  constructor
  · intro h
    obtain ⟨j, hj⟩ := h 0
    exact exists_quotes_of_readString hj
  · rintro ⟨text, htext, heq⟩
    rw [heq]
    exact reads_readString htext rest

end Bindle.Json
