import Bindle.Proofs.Text.ByteOrder
import Mathlib.Algebra.Group.Nat.Defs

/-!
# What bytes are read as

* `Begun.IsSound s`   a character that has begun will be a character, and not an ASCII one.

The bytes of a text are read as the text (`readable_bytesOf`).  Of other bytes, those of ASCII
characters are read as these, and nothing else is (`eq_of_readBytes`, `mem_of_mem_readBytes`).
-/

namespace Bindle.Text

/-! ## characters that have begun -/

/-- whatever the bytes are that are owed -/
structure Begun.IsSound (s : Begun) : Prop where
  owed : 1 ≤ s.owed
  least : 0x80 ≤ s.least
  most : s.most ≤ 0xbf
  valid : ∀ v, (s.value * 0x40 + (s.least - 0x80)) * 0x40 ^ (s.owed - 1) ≤ v →
    v < (s.value * 0x40 + (s.most - 0x80) + 1) * 0x40 ^ (s.owed - 1) → 0x80 ≤ v ∧ v.isValidChar

theorem isSound_of_begun? {b : Nat} {s : Begun} (h : begun? b = some s) : s.IsSound := by
  unfold begun? at h
  split_ifs at h
  all_goals
    obtain rfl := Option.some.inj h
    refine ⟨?_, ?_, ?_, fun v hlow hhigh => ?_⟩
  -- with the numbers in place, the bounds are linear
  all_goals
    simp only [Nat.isValidChar, Nat.reduceSub, Nat.reducePow, Nat.reduceMul, Nat.reduceAdd] at *
    omega

/-- a character goes on with one more byte -/
theorem Begun.IsSound.next {s : Begun} (h : s.IsSound) {b : Nat} (hleast : s.least ≤ b)
    (hmost : b ≤ s.most) (howed : s.owed ≠ 1) :
    IsSound ⟨s.value * 0x40 + b % 0x40, s.owed - 1, 0x80, 0xbf⟩ := by
  obtain ⟨hone, hlow, hhigh, hvalid⟩ := h
  obtain ⟨k, hk⟩ : ∃ k, s.owed = k + 2 := ⟨s.owed - 2, by omega⟩
  have hdigit : b % 0x40 = b - 0x80 := by omega
  rw [hk, Nat.add_succ_sub_one, Nat.pow_succ'] at hvalid
  rw [hk, hdigit]
  refine ⟨by simp, Nat.le_refl _, Nat.le_refl _, fun v hl hu => hvalid v ?_ ?_⟩
  · simp only [Nat.add_succ_sub_one, Nat.sub_self, Nat.add_zero] at hl
    refine Nat.le_trans ?_ hl
    rw [← Nat.mul_assoc]
    exact Nat.mul_le_mul_right _ (by omega)
  · simp only [Nat.add_succ_sub_one, Nat.add_sub_cancel] at hu
    refine Nat.lt_of_lt_of_le hu ?_
    rw [← Nat.mul_assoc]
    exact Nat.mul_le_mul_right _ (by omega)

/-- and ends as one that is not ASCII -/
theorem Begun.IsSound.last {s : Begun} (h : s.IsSound) {b : Nat} (hleast : s.least ≤ b)
    (hmost : b ≤ s.most) (howed : s.owed = 1) :
    0x80 ≤ (Char.ofNat (s.value * 0x40 + b % 0x40)).toNat := by
  obtain ⟨-, hlow, hhigh, hvalid⟩ := h
  rw [howed] at hvalid
  obtain ⟨hle, hchar⟩ := hvalid (s.value * 0x40 + b % 0x40) (by omega) (by omega)
  unfold Char.ofNat
  rw [dif_pos hchar]
  exact hle

/-! ## ASCII characters -/

theorem toNat_ofNat_of_lt {n : Nat} (h : n < 0xd800) : (Char.ofNat n).toNat = n := by
  unfold Char.ofNat
  rw [dif_pos (show n.isValidChar from .inl h)]
  rfl

/-- a byte between two characters is an ASCII character, or something else begins or is missing -/
theorem readFirst_cases (b : UInt8) :
    (b.toNat < 0x80 ∧ readFirst b = ([Char.ofNat b.toNat], none)) ∨
      (∃ s, s.IsSound ∧ readFirst b = ([], some s)) ∨ readFirst b = ([replacementCharacter], none) := by
  unfold readFirst
  split
  · rename_i hb
    exact .inl ⟨hb, rfl⟩
  · split
    · rename_i s hs
      exact .inr (.inl ⟨s, isSound_of_begun? hs, rfl⟩)
    · exact .inr (.inr rfl)

theorem readNext_cases {s : Begun} (hs : s.IsSound) (b : UInt8) :
    (∃ c : Char, 0x80 ≤ c.toNat ∧ readNext s b = ([c], none)) ∨
      (∃ t, t.IsSound ∧ readNext s b = ([], some t)) ∨
      readNext s b = (replacementCharacter :: (readFirst b).1, (readFirst b).2) := by
  unfold readNext
  split
  · rename_i hb
    split
    · rename_i howed
      exact .inl ⟨_, hs.last hb.1 hb.2 howed, rfl⟩
    · rename_i howed
      exact .inr (.inl ⟨_, hs.next hb.1 hb.2 howed, rfl⟩)
  · exact .inr (.inr rfl)

theorem readBytes_none_cons (b : UInt8) (bs : List UInt8) :
    readBytes none (b :: bs) = (readFirst b).1 ++ readBytes (readFirst b).2 bs := rfl

theorem readBytes_some_cons (s : Begun) (b : UInt8) (bs : List UInt8) :
    readBytes (some s) (b :: bs) = (readNext s b).1 ++ readBytes (readNext s b).2 bs := rfl

/-- what has begun is read as a character that is not ASCII -/
theorem exists_readBytes_some {s : Begun} (hs : s.IsSound) (bs : List UInt8) :
    ∃ c cs, readBytes (some s) bs = c :: cs ∧ 0x80 ≤ c.toNat := by
  induction bs generalizing s with
  | nil => exact ⟨replacementCharacter, [], rfl, by decide⟩
  | cons b bs ih =>
    rw [readBytes_some_cons]
    rcases readNext_cases hs b with ⟨c, hc, h⟩ | ⟨t, ht, h⟩ | h
    · rw [h]
      exact ⟨c, _, rfl, hc⟩
    · rw [h]
      exact ih ht
    · rw [h]
      exact ⟨replacementCharacter, _, rfl, by decide⟩

/-- an ASCII character is read from its byte alone -/
theorem eq_of_readBytes {bs : List UInt8} {c : Char} {cs : List Char}
    (h : readBytes none bs = c :: cs) (hc : c.toNat < 0x80) :
    ∃ b more, bs = b :: more ∧ b.toNat = c.toNat ∧ readBytes none more = cs := by
  cases bs with
  | nil => cases h
  | cons b bs =>
    rw [readBytes_none_cons] at h
    rcases readFirst_cases b with ⟨hb, hfirst⟩ | ⟨s, hs, hfirst⟩ | hfirst
    · rw [hfirst] at h
      obtain ⟨rfl, hcs⟩ := List.cons.inj h
      exact ⟨b, bs, rfl, (toNat_ofNat_of_lt (by omega)).symm, hcs⟩
    · obtain ⟨d, ds, hd, hhigh⟩ := exists_readBytes_some hs bs
      rw [hfirst, List.nil_append, hd] at h
      obtain ⟨rfl, -⟩ := List.cons.inj h
      exact absurd hc (Nat.not_lt.mpr hhigh)
    · rw [hfirst] at h
      obtain ⟨rfl, -⟩ := List.cons.inj h
      exact absurd hc (by decide)

theorem readBytes_ne_nil {bs : List UInt8} (h : bs ≠ []) : readBytes none bs ≠ [] := by
  obtain ⟨b, more, rfl⟩ := List.exists_cons_of_ne_nil h
  rw [readBytes_none_cons]
  rcases readFirst_cases b with ⟨-, hfirst⟩ | ⟨s, hs, hfirst⟩ | hfirst
  · simp [hfirst]
  · obtain ⟨d, ds, hd, -⟩ := exists_readBytes_some hs more
    simp [hfirst, hd]
  · simp [hfirst]

/-- ASCII texts are read from their own bytes alone -/
theorem eq_of_readBytes_eq_ascii {cs : List Char} (hcs : ∀ c ∈ cs, c.toNat < 0x80)
    {bs : List UInt8} (h : readBytes none bs = cs) : bs.map UInt8.toNat = cs.map Char.toNat := by
  induction cs generalizing bs with
  | nil =>
    cases bs with
    | nil => rfl
    | cons b bs => exact absurd h (readBytes_ne_nil (List.cons_ne_nil b bs))
  | cons c cs ih =>
    obtain ⟨hc, hrest⟩ := List.forall_mem_cons.mp hcs
    obtain ⟨b, more, rfl, hb, hmore⟩ := eq_of_readBytes h hc
    rw [List.map_cons, List.map_cons, hb, ih hrest hmore]

theorem mem_of_mem_readFirst {b : UInt8} {c : Char} (h : c ∈ (readFirst b).1)
    (hc : c.toNat < 0x80) : b.toNat = c.toNat := by
  rcases readFirst_cases b with ⟨hb, hfirst⟩ | ⟨s, -, hfirst⟩ | hfirst
  · rw [hfirst] at h
    rw [List.mem_singleton.mp h, toNat_ofNat_of_lt (by omega)]
  · rw [hfirst] at h
    exact absurd h List.not_mem_nil
  · rw [hfirst] at h
    rw [List.mem_singleton.mp h] at hc
    exact absurd hc (by decide)

/-- an ASCII character is read nowhere but from its byte -/
theorem exists_of_mem_readBytes {s : Option Begun} (hs : ∀ t ∈ s, t.IsSound) {bs : List UInt8}
    {c : Char} (h : c ∈ readBytes s bs) (hc : c.toNat < 0x80) : ∃ b ∈ bs, b.toNat = c.toNat := by
  have hreplacement : c ≠ replacementCharacter := by
    rintro rfl
    exact absurd hc (by decide)
  have hsound : ∀ b, ∀ t ∈ (readFirst b).2, t.IsSound := by
    intro b t ht
    rcases readFirst_cases b with ⟨-, hfirst⟩ | ⟨t', ht', hfirst⟩ | hfirst
    · rw [hfirst] at ht
      cases ht
    · rw [hfirst] at ht
      exact Option.some.inj ht ▸ ht'
    · rw [hfirst] at ht
      cases ht
  induction bs generalizing s with
  | nil =>
    cases s with
    | none => cases h
    | some t => exact absurd (List.mem_singleton.mp h) hreplacement
  | cons b bs ih =>
    have hlater : ∀ {t : Option Begun}, (∀ t' ∈ t, t'.IsSound) → c ∈ readBytes t bs →
        ∃ b' ∈ b :: bs, b'.toNat = c.toNat := by
      intro t ht hmem
      obtain ⟨b', hb', heq⟩ := ih ht hmem
      exact ⟨b', List.mem_cons_of_mem _ hb', heq⟩
    cases s with
    | none =>
      rcases List.mem_append.mp h with h | h
      · exact ⟨b, List.mem_cons_self, mem_of_mem_readFirst h hc⟩
      · exact hlater (hsound b) h
    | some t =>
      rw [readBytes_some_cons] at h
      rcases readNext_cases (hs t rfl) b with ⟨d, hd, hnext⟩ | ⟨t', ht', hnext⟩ | hnext
      · rw [hnext] at h
        rcases List.mem_cons.mp h with rfl | h
        · exact absurd hc (Nat.not_lt.mpr hd)
        · exact hlater (by simp) h
      · rw [hnext] at h
        exact hlater (by simpa using ht') h
      · rw [hnext] at h
        rcases List.mem_cons.mp h with h | h
        · exact absurd h hreplacement
        · rcases List.mem_append.mp h with h | h
          · exact ⟨b, List.mem_cons_self, mem_of_mem_readFirst h hc⟩
          · exact hlater (hsound b) h

/-! ## bytes of texts -/

theorem toNat_ofNat_byte {n : Nat} (h : n < 0x100) : (UInt8.ofNat n).toNat = n := by
  rw [UInt8.toNat_ofNat', Nat.mod_eq_of_lt h]

theorem readBytes_ascii {n : Nat} (h : n < 0x80) (bs : List UInt8) :
    readBytes none (.ofNat n :: bs) = Char.ofNat n :: readBytes none bs := by
  rw [readBytes_none_cons, readFirst, toNat_ofNat_byte (by omega), if_pos h]
  rfl

theorem readBytes_begun {n : Nat} {s : Begun} (hn : 0x80 ≤ n ∧ n < 0x100) (h : begun? n = some s)
    (bs : List UInt8) : readBytes none (.ofNat n :: bs) = readBytes (some s) bs := by
  rw [readBytes_none_cons, readFirst, toNat_ofNat_byte hn.2, if_neg (by omega), h]
  rfl

/-- the bytes that begin a character of two, three and four bytes -/
theorem begun?_two : ∀ a < 0x20, 2 ≤ a → begun? (a + 0xc0) = some ⟨a, 1, 0x80, 0xbf⟩ := by
  decide

theorem begun?_three : ∀ a < 0x10, begun? (a + 0xe0) =
    some ⟨a, 2, if a = 0 then 0xa0 else 0x80, if a = 0xd then 0x9f else 0xbf⟩ := by
  decide

theorem begun?_four : ∀ a < 5, begun? (a + 0xf0) =
    some ⟨a, 3, if a = 0 then 0x90 else 0x80, if a = 4 then 0x8f else 0xbf⟩ := by
  decide

variable {value least most d : Nat}

/-- a byte that is owed brings six bits -/
theorem readBytes_digit {owed : Nat} (hd : d < 0x40) (h : least ≤ d + 0x80 ∧ d + 0x80 ≤ most)
    (howed : owed ≠ 1) (bs : List UInt8) :
    readBytes (some ⟨value, owed, least, most⟩) (.ofNat (d + 0x80) :: bs) =
      readBytes (some ⟨value * 0x40 + d, owed - 1, 0x80, 0xbf⟩) bs := by
  have hdigit : (d + 0x80) % 0x40 = d := by omega
  rw [readBytes_some_cons, readNext, toNat_ofNat_byte (by omega), if_pos h, hdigit]
  dsimp only
  rw [if_neg howed]
  rfl

theorem readBytes_lastDigit (hd : d < 0x40) (h : least ≤ d + 0x80 ∧ d + 0x80 ≤ most)
    (bs : List UInt8) :
    readBytes (some ⟨value, 1, least, most⟩) (.ofNat (d + 0x80) :: bs) =
      Char.ofNat (value * 0x40 + d) :: readBytes none bs := by
  have hdigit : (d + 0x80) % 0x40 = d := by omega
  rw [readBytes_some_cons, readNext, toNat_ofNat_byte (by omega), if_pos h, hdigit]
  rfl

/-- the bytes of a character are read as the character -/
theorem readBytes_utf8EncodeChar (c : Char) (bs : List UInt8) :
    readBytes none (String.utf8EncodeChar c ++ bs) = c :: readBytes none bs := by
  have hvalid : c.val.toNat.isValidChar := c.valid
  have hc : Char.ofNat c.val.toNat = c := Char.ofNat_toNat c
  unfold Nat.isValidChar at hvalid
  unfold String.utf8EncodeChar
  generalize c.val.toNat = v at hvalid hc ⊢
  dsimp only
  split_ifs with hone htwo hthree
  · rw [List.singleton_append, readBytes_ascii (by omega), hc]
  · have hvalue : v / 64 % 32 * 64 + v % 64 = v := by omega
    rw [List.cons_append, List.singleton_append,
      readBytes_begun (by omega) (begun?_two _ (by omega) (by omega)),
      readBytes_lastDigit (by omega) (by omega), hvalue, hc]
  · have hvalue : (v / 4096 % 16 * 64 + v / 64 % 64) * 64 + v % 64 = v := by omega
    rw [List.cons_append, List.cons_append, List.singleton_append,
      readBytes_begun (by omega) (begun?_three _ (by omega)),
      readBytes_digit (by omega) (by split_ifs <;> omega) (by decide),
      readBytes_lastDigit (by omega) (by omega), hvalue, hc]
  · have hvalue : ((v / 262144 % 8 * 64 + v / 4096 % 64) * 64 + v / 64 % 64) * 64 + v % 64 = v := by
      omega
    rw [List.cons_append, List.cons_append, List.cons_append, List.singleton_append,
      readBytes_begun (by omega) (begun?_four _ (by omega)),
      readBytes_digit (by omega) (by split_ifs <;> omega) (by decide),
      readBytes_digit (by omega) (by omega) (by decide),
      readBytes_lastDigit (by omega) (by omega), hvalue, hc]

theorem readBytes_flatMap (cs : List Char) (bs : List UInt8) :
    readBytes none (cs.flatMap String.utf8EncodeChar ++ bs) = cs ++ readBytes none bs := by
  induction cs with
  | nil => rfl
  | cons c cs ih =>
    rw [List.flatMap_cons, List.append_assoc, readBytes_utf8EncodeChar, ih, List.cons_append]

/-- **The bytes of a text are read as the text.** -/
theorem readable_bytesOf (s : String) : readable (bytesOf s) = s := by
  have h := readBytes_flatMap s.toList []
  rw [List.append_nil] at h
  rw [readable, bytesOf_eq, h]
  show String.ofList (s.toList ++ []) = s
  rw [List.append_nil, String.ofList_toList]

/-- the four bytes that are no text become three characters: a beginning that does not go on is one,
whatever its length -/
example : readable [0xe1, 0x80, 0x2f, 0xff] = "\uFFFD/\uFFFD" := by decide

end Bindle.Text
