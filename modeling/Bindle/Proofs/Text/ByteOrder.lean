import Bindle.Text.Bytes
import Mathlib.Order.Basic
import Mathlib.Tactic.SplitIfs

/-!
# The order of bytes

Characters are ordered as their UTF-8 bytes are, and the bytes of none begin those of another.  So
texts are ordered as their bytes are (`lt_iff_bytesOf_lt`, `le_iff_bytesOf_le`), and begin with each
other as their bytes do (`bytesOf_prefix_iff`).
-/

namespace Bindle.Text

theorem bytesOf_eq (s : String) : bytesOf s = s.toList.flatMap String.utf8EncodeChar := by
  rw [bytesOf, String.toUTF8_eq_toByteArray, ← String.utf8Encode_toList, List.utf8Encode,
    List.data_toByteArray]

/-- the lower of two characters has the lower bytes, whatever comes after them -/
theorem utf8EncodeChar_append_lt {c d : Char} (h : c < d) (cs ds : List UInt8) :
    String.utf8EncodeChar c ++ cs < String.utf8EncodeChar d ++ ds := by
  have hlt : c.val.toNat < d.val.toNat := h
  have hmost : d.val.toNat ≤ 0x10ffff := by
    have hvalid : d.val.toNat.isValidChar := d.valid
    unfold Nat.isValidChar at hvalid
    omega
  unfold String.utf8EncodeChar
  generalize c.val.toNat = v at hlt ⊢
  generalize d.val.toNat = w at hlt hmost ⊢
  dsimp only
  -- one case for each pair of lengths; the first bytes alone tell two lengths apart
  split_ifs <;>
    simp (disch := omega) only [List.cons_append, List.nil_append, List.cons_lt_cons_iff,
      UInt8.lt_iff_toNat_lt, ← UInt8.toNat_inj, UInt8.toNat_ofNat', Nat.mod_eq_of_lt] <;> omega

theorem flatMap_utf8EncodeChar_lt {cs ds : List Char} (h : List.Lex (· < ·) cs ds) :
    cs.flatMap String.utf8EncodeChar < ds.flatMap String.utf8EncodeChar := by
  induction h with
  | @nil d ds =>
    have hne : (d :: ds).flatMap String.utf8EncodeChar ≠ [] := by
      rw [List.flatMap_cons]
      exact List.append_ne_nil_of_left_ne_nil String.utf8EncodeChar_ne_nil _
    obtain ⟨b, bs, hbytes⟩ := List.exists_cons_of_ne_nil hne
    rw [hbytes]
    exact .nil
  | rel h => exact utf8EncodeChar_append_lt h _ _
  | cons _ ih => exact List.append_left_lt ih

/-- **Texts are in the order of their bytes.** -/
theorem lt_iff_bytesOf_lt {s t : String} : s < t ↔ bytesOf s < bytesOf t := by
  have hmono : ∀ {s t : String}, s < t → bytesOf s < bytesOf t := by
    intro s t h
    rw [bytesOf_eq, bytesOf_eq]
    exact flatMap_utf8EncodeChar_lt h
  refine ⟨hmono, fun h => ?_⟩
  by_contra hst
  by_cases hts : t < s
  · exact List.lt_asymm h (hmono hts)
  · obtain rfl : s = t := String.le_antisymm (String.not_lt.mp hts) (String.not_lt.mp hst)
    exact List.lt_irrefl _ h

theorem le_iff_bytesOf_le {s t : String} : s ≤ t ↔ bytesOf s ≤ bytesOf t := by
  rw [← String.not_lt, lt_iff_bytesOf_lt, List.not_lt]

/-! ## beginnings -/

/-- two characters whose bytes begin alike are the same, as the lower one has the lower bytes -/
theorem eq_of_utf8EncodeChar_append {c d : Char} {cs ds : List UInt8}
    (h : String.utf8EncodeChar c ++ cs = String.utf8EncodeChar d ++ ds) : c = d := by
  refine Char.le_antisymm (Char.not_lt.mp fun hdc => ?_) (Char.not_lt.mp fun hcd => ?_)
  · have hlt := utf8EncodeChar_append_lt hdc ds cs
    rw [h] at hlt
    exact List.lt_irrefl _ hlt
  · have hlt := utf8EncodeChar_append_lt hcd cs ds
    rw [h] at hlt
    exact List.lt_irrefl _ hlt

theorem prefix_of_flatMap_utf8EncodeChar {cs ds : List Char}
    (h : cs.flatMap String.utf8EncodeChar <+: ds.flatMap String.utf8EncodeChar) : cs <+: ds := by
  induction cs generalizing ds with
  | nil => exact List.nil_prefix
  | cons c cs ih =>
    obtain ⟨more, hmore⟩ := h
    cases ds with
    | nil =>
      rw [List.flatMap_cons, List.append_assoc] at hmore
      exact absurd (List.append_eq_nil_iff.mp hmore).1 String.utf8EncodeChar_ne_nil
    | cons d ds =>
      rw [List.flatMap_cons, List.flatMap_cons, List.append_assoc] at hmore
      obtain rfl : c = d := eq_of_utf8EncodeChar_append hmore
      exact List.cons_prefix_cons.mpr ⟨rfl, ih ⟨more, List.append_cancel_left hmore⟩⟩

/-- **Texts begin with each other as their bytes do.** -/
theorem bytesOf_prefix_iff {s t : String} : bytesOf s <+: bytesOf t ↔ s.toList <+: t.toList := by
  rw [bytesOf_eq, bytesOf_eq]
  refine ⟨prefix_of_flatMap_utf8EncodeChar, ?_⟩
  rintro ⟨more, hmore⟩
  rw [← hmore, List.flatMap_append]
  exact List.prefix_append _ _

end Bindle.Text
