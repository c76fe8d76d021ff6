import Bindle.Bundle
import Bindle.Script.Literal

/-!
# Literals read back

* `decode_quote`    a literal has the text that it was written for as its value;
* `decode_quoted`   the same of a text in quotes as JSON writes it, such as a key of a bundle.

Both ways of writing differ in a few characters only.  What is shown of each is that one character,
however it is written, is read back as that character whatever comes behind it.
-/

namespace Bindle.Script.Literal

open Bindle.Text

/-! ## digits -/

theorem hexValue?_hexDigit : ∀ n < 16, hexValue? (hexDigit n) = some n := by decide

theorem hexDigit_ne_sign : ∀ n < 16, hexDigit n ≠ '+' ∧ hexDigit n ≠ '\x7b' := by decide

theorem hexNumber_hexDigits {n : Nat} (h : n < 65536) :
    hexNumber [hexDigit (n / 4096 % 16), hexDigit (n / 256 % 16), hexDigit (n / 16 % 16),
      hexDigit (n % 16)] = n := by
  have hd : ∀ k, hexValue? (hexDigit (k % 16)) = some (k % 16) :=
    fun k => hexValue?_hexDigit _ (Nat.mod_lt _ (by decide))
  simp only [hexNumber, digitsNumber, List.foldl_cons, List.foldl_nil, hd, Option.getD_some]
  omega

theorem isHexDigit_hexDigit (k : Nat) : isHexDigit (hexDigit (k % 16)) = true := by
  rw [isHexDigit, hexValue?_hexDigit _ (Nat.mod_lt _ (by decide))]
  rfl

theorem hexChar_hexDigits {c : Char} (h : c.toNat < 65536) :
    hexChar [hexDigit (c.toNat / 4096 % 16), hexDigit (c.toNat / 256 % 16),
      hexDigit (c.toNat / 16 % 16), hexDigit (c.toNat % 16)] = c := by
  have hsign := (hexDigit_ne_sign (c.toNat / 4096 % 16) (Nat.mod_lt _ (by decide))).1
  have hvalid : c.toNat.isValidChar := c.valid
  unfold hexChar
  split
  · rename_i hplus
    exact absurd (List.cons.inj hplus).1 hsign
  · simp only [hexNumber_hexDigits h, List.isEmpty_cons, List.all_cons, List.all_nil,
      isHexDigit_hexDigit, Bool.and_true, Bool.not_true, Bool.or_false, Bool.false_eq_true,
      if_false, if_pos hvalid]
    exact Char.ofNat_toNat c

/-! ## one character -/

theorem decodeChars_nil : decodeChars [] = [] := by
  rw [decodeChars]

theorem decodeChars_cons {c : Char} (h : c ≠ '\\') (cs : List Char) :
    decodeChars (c :: cs) = c :: decodeChars cs := by
  rw [decodeChars.eq_def]
  exact if_neg h

theorem decodeChars_escape {e d : Char} {cs rest : List Char}
    (h : decodeEscape e cs = ([d], rest)) : decodeChars ('\\' :: e :: cs) = d :: decodeChars rest := by
  rw [decodeChars.eq_def]
  simp only [if_true, h]
  rfl

/-- a letter after a backslash stands for a control character -/
theorem decodeChars_control {e d : Char} (h : controlChar? e = some d) (cs : List Char) :
    decodeChars ('\\' :: e :: cs) = d :: decodeChars cs := by
  refine decodeChars_escape ?_
  unfold decodeEscape
  simp only [h]

theorem decodeChars_unicodeEscape {c : Char} (h : c.toNat < 65536) (cs : List Char) :
    decodeChars (unicodeEscape c.toNat ++ cs) = c :: decodeChars cs := by
  have hbrace := (hexDigit_ne_sign (c.toNat / 4096 % 16) (Nat.mod_lt _ (by decide))).2
  refine decodeChars_escape ?_
  have hnone : controlChar? 'u' = none := rfl
  have hzero : ¬ ('u' = '0') := by decide
  have hx : ¬ ('u' = 'x') := by decide
  unfold decodeEscape
  simp only [hnone, hzero, hx, decide_false, Bool.false_and, Bool.false_eq_true, if_false, if_true]
  split
  · rename_i hb
    exact absurd (List.cons.inj hb).1 hbrace
  · have hc := hexChar_hexDigits h
    exact congrArg (fun d => ([d], cs)) hc

theorem decodeChars_quotedChar (c : Char) (cs : List Char) :
    decodeChars (quotedChar c ++ cs) = c :: decodeChars cs := by
  unfold quotedChar
  split
  · rename_i h
    rw [h]
    exact decodeChars_escape rfl
  split
  · rename_i h
    rw [h]
    exact decodeChars_escape rfl
  split
  · rename_i h
    rw [h]
    exact decodeChars_control rfl cs
  split
  · rename_i h
    rw [h]
    exact decodeChars_control rfl cs
  split
  · rename_i h
    rw [h]
    exact decodeChars_control rfl cs
  split
  · rename_i h
    have hb : controlChar? 'b' = some c := congrArg some (Char.toNat_inj.mp h.symm)
    exact decodeChars_control hb cs
  split
  · rename_i h
    have hf : controlChar? 'f' = some c := congrArg some (Char.toNat_inj.mp h.symm)
    exact decodeChars_control hf cs
  split
  · exact decodeChars_unicodeEscape (by omega) cs
  · rename_i hslash _ _ _ _ _ _
    exact decodeChars_cons hslash cs

theorem decodeChars_quoteChar (c : Char) (cs : List Char) :
    decodeChars (quoteChar c ++ cs) = c :: decodeChars cs := by
  unfold quoteChar
  split
  · exact decodeChars_unicodeEscape (by omega) cs
  · exact decodeChars_quotedChar c cs

/-! ## whole texts -/

/-- what is written so that every character is read back is read back as a whole -/
theorem decodeChars_flatMap {write : Char → List Char}
    (h : ∀ c cs, decodeChars (write c ++ cs) = c :: decodeChars cs) (cs : List Char) :
    decodeChars (cs.flatMap write) = cs := by
  induction cs with
  | nil => exact decodeChars_nil
  | cons c cs ih => rw [List.flatMap_cons, h, ih]

/-- the quotes, which take a byte each, do not belong to the value -/
theorem decode_between {quote : Char} (hquote : quote.utf8Size = 1) (body : List Char) :
    decode (quote :: body ++ [quote]) = String.ofList (decodeChars body) := by
  have hslice : slice? (quote :: body ++ [quote]) 1
      (byteLength (quote :: body ++ [quote]) - 1) = some body := by
    refine slice?_eq_some_iff.mpr ⟨[quote], [quote], rfl, ?_, ?_⟩
    · rw [byteLength_cons, hquote]
      rfl
    · rw [byteLength_append, byteLength_append, byteLength_cons, byteLength_cons, hquote]
      omega
  rw [decode, hslice]
  rfl

theorem decode_quoteChars (cs : List Char) : decode (quoteChars cs) = String.ofList cs := by
  rw [quoteChars, decode_between rfl, decodeChars_flatMap decodeChars_quoteChar]

/-- **A literal has the value that it was written for.** -/
theorem decode_quote (s : String) : decode (quote s).toList = s := by
  rw [quote, String.toList_ofList, decode_quoteChars, String.ofList_toList]

/-- **So has a text in quotes.** -/
theorem decode_quoted (s : String) : decode (quoted s).toList = s := by
  rw [quoted, String.toList_ofList, quotedChars, decode_between rfl,
    decodeChars_flatMap decodeChars_quotedChar, String.ofList_toList]

end Bindle.Script.Literal
