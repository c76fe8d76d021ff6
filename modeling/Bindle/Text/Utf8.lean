/-!
# Byte offsets into text

A text is a list of characters; places in it are counted in UTF-8 bytes.

* `byteLength cs`       the bytes that `cs` takes;
* `dropBytes? n cs`     what is left after `n` bytes, if `n` bytes end between two characters;
* `takeBytes? n cs`     the first `n` bytes, under the same condition;
* `slice? cs i j`       the characters between the byte offsets `i` and `j`.

`slice?_eq_some_iff` says when a slice exists: exactly when the text splits at both offsets.
-/

namespace Bindle.Text

/-- the number of UTF-8 bytes of a text -/
def byteLength : List Char → Nat
  | [] => 0
  | c :: cs => c.utf8Size + byteLength cs

@[simp] theorem byteLength_nil : byteLength [] = 0 := rfl

@[simp] theorem byteLength_cons (c : Char) (cs : List Char) :
    byteLength (c :: cs) = c.utf8Size + byteLength cs := rfl

@[simp] theorem byteLength_append (a b : List Char) :
    byteLength (a ++ b) = byteLength a + byteLength b := by
  induction a with
  | nil => simp
  | cons c a ih => simp [ih, Nat.add_assoc]

/-- the text after its first `n` bytes -/
def dropBytes? (n : Nat) : List Char → Option (List Char)
  | [] => if n = 0 then some [] else none
  | c :: cs =>
    if n = 0 then some (c :: cs)
    else if c.utf8Size ≤ n then dropBytes? (n - c.utf8Size) cs
    else none

/-- the first `n` bytes of a text -/
def takeBytes? (n : Nat) : List Char → Option (List Char)
  | [] => if n = 0 then some [] else none
  | c :: cs =>
    if n = 0 then some []
    else if c.utf8Size ≤ n then (takeBytes? (n - c.utf8Size) cs).map (c :: ·)
    else none

/-- the text between two byte offsets, when both fall between characters -/
def slice? (cs : List Char) (start stop : Nat) : Option (List Char) :=
  if start ≤ stop then (dropBytes? start cs).bind (takeBytes? (stop - start)) else none

theorem utf8Size_pos (c : Char) : 0 < c.utf8Size := Char.utf8Size_pos c

theorem dropBytes?_eq_some_iff {n : Nat} {cs b : List Char} :
    dropBytes? n cs = some b ↔ ∃ a, cs = a ++ b ∧ byteLength a = n := by
  induction cs generalizing n with
  | nil =>
    constructor
    · intro h
      by_cases hn : n = 0
      · simp only [dropBytes?, hn, if_true, Option.some.injEq] at h
        exact ⟨[], by simp [h], by simp [hn]⟩
      · simp [dropBytes?, hn] at h
    · rintro ⟨a, h, hn⟩
      obtain ⟨rfl, rfl⟩ := List.append_eq_nil_iff.1 h.symm
      simp [dropBytes?, ← hn]
  | cons c cs ih =>
    have hc := utf8Size_pos c
    constructor
    · intro h
      by_cases hn : n = 0
      · simp only [dropBytes?, hn, if_true, Option.some.injEq] at h
        exact ⟨[], by simp [h], by simp [hn]⟩
      · by_cases hle : c.utf8Size ≤ n
        · simp only [dropBytes?, hn, hle, if_true, if_false] at h
          obtain ⟨a, rfl, ha⟩ := ih.1 h
          exact ⟨c :: a, rfl, by simp only [byteLength_cons, ha]; omega⟩
        · simp [dropBytes?, hn, hle] at h
    · rintro ⟨a, h, hn⟩
      cases a with
      | nil => simp only [List.nil_append] at h; simp [dropBytes?, ← hn, h]
      | cons d a =>
        simp only [List.cons_append, List.cons.injEq] at h
        obtain ⟨rfl, rfl⟩ := h
        simp only [byteLength_cons] at hn
        have h1 : n ≠ 0 := by omega
        have h2 : c.utf8Size ≤ n := by omega
        simp only [dropBytes?, h1, h2, if_true, if_false]
        exact ih.2 ⟨a, rfl, by omega⟩

theorem takeBytes?_eq_some_iff {n : Nat} {cs a : List Char} :
    takeBytes? n cs = some a ↔ (∃ b, cs = a ++ b) ∧ byteLength a = n := by
  induction cs generalizing n a with
  | nil =>
    constructor
    · intro h
      by_cases hn : n = 0
      · simp only [takeBytes?, hn, if_true, Option.some.injEq] at h
        subst h
        exact ⟨⟨[], rfl⟩, by simp [hn]⟩
      · simp [takeBytes?, hn] at h
    · rintro ⟨⟨b, h⟩, hn⟩
      obtain ⟨rfl, rfl⟩ := List.append_eq_nil_iff.1 h.symm
      simp [takeBytes?, ← hn]
  | cons c cs ih =>
    have hc := utf8Size_pos c
    constructor
    · intro h
      by_cases hn : n = 0
      · simp only [takeBytes?, hn, if_true, Option.some.injEq] at h
        subst h
        exact ⟨⟨c :: cs, rfl⟩, by simp [hn]⟩
      · by_cases hle : c.utf8Size ≤ n
        · simp only [takeBytes?, hn, hle, if_true, if_false, Option.map_eq_some_iff] at h
          obtain ⟨a', ha', rfl⟩ := h
          obtain ⟨⟨b, rfl⟩, hlen⟩ := ih.1 ha'
          exact ⟨⟨b, rfl⟩, by simp only [byteLength_cons, hlen]; omega⟩
        · simp [takeBytes?, hn, hle] at h
    · rintro ⟨⟨b, h⟩, hn⟩
      cases a with
      | nil => simp [takeBytes?, ← hn]
      | cons d a =>
        simp only [List.cons_append, List.cons.injEq] at h
        obtain ⟨rfl, rfl⟩ := h
        simp only [byteLength_cons] at hn
        have h1 : n ≠ 0 := by omega
        have h2 : c.utf8Size ≤ n := by omega
        simp only [takeBytes?, h1, h2, if_true, if_false, Option.map_eq_some_iff]
        exact ⟨a, ih.2 ⟨⟨b, rfl⟩, by omega⟩, rfl⟩

theorem slice?_eq_some_iff {cs m : List Char} {i j : Nat} :
    slice? cs i j = some m ↔
      ∃ a b, cs = a ++ m ++ b ∧ byteLength a = i ∧ byteLength (a ++ m) = j := by
  constructor
  · intro h
    by_cases hij : i ≤ j
    · simp only [slice?, hij, if_true, Option.bind_eq_some_iff] at h
      obtain ⟨r, hr, hm⟩ := h
      obtain ⟨a, rfl, ha⟩ := dropBytes?_eq_some_iff.1 hr
      obtain ⟨⟨b, rfl⟩, hlen⟩ := takeBytes?_eq_some_iff.1 hm
      exact ⟨a, b, by simp, ha, by simp only [byteLength_append, ha, hlen]; omega⟩
    · simp [slice?, hij] at h
  · rintro ⟨a, b, rfl, ha, hj⟩
    simp only [byteLength_append] at hj
    have hij : i ≤ j := by omega
    simp only [slice?, hij, if_true, Option.bind_eq_some_iff]
    refine ⟨m ++ b, dropBytes?_eq_some_iff.2 ⟨a, by simp, ha⟩, ?_⟩
    exact takeBytes?_eq_some_iff.2 ⟨⟨b, rfl⟩, by omega⟩

end Bindle.Text
