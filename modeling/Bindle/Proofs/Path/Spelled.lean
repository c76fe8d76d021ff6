import Bindle.Path.Bytes
import Bindle.Proofs.Path.Parts
import Bindle.Proofs.Text.Readable

/-!
# Paths with a character for each byte

* `Component.mapName f`   a component with another name; walks are the same with other names;
* `IsBytes part`          a text whose characters stand for bytes, as all parts of `p.spelled` are;
* `encode s`              the characters that stand for the UTF-8 bytes of a text;
* `Component.encoded`     a component with its name in UTF-8.

Paths of bytes are taken apart and normalized as they are spelled (`components_normalize`,
`spelled_join`).  A text in UTF-8 has the components of the text, in UTF-8 (`components_ofPath`).
-/

namespace Bindle

open Text Bindle.Path

/-! ## walks, with other names -/

namespace Path

def Component.mapName (f : String → String) : Component → Component
  | .name s => .name (f s)
  | c => c

variable {f : String → String}

theorem root_mem_map_mapName {cs : List Component} :
    .root ∈ cs.map (Component.mapName f) ↔ .root ∈ cs := by
  rw [List.mem_map]
  constructor
  · rintro ⟨c, hc, hroot⟩
    cases c with
    | root => exact hc
    | _ => cases hroot
  · exact fun h => ⟨.root, h, rfl⟩

theorem fold_mapName (done : List Component) (c : Component) :
    Component.fold (done.map (Component.mapName f)) (c.mapName f) =
      (Component.fold done c).map (Component.mapName f) := by
  cases c with
  | parent =>
    by_cases hname : ∃ s rest, done = .name s :: rest
    · obtain ⟨s, rest, rfl⟩ := hname
      rfl
    · have hdone : ∀ s rest, done ≠ .name s :: rest := fun s rest he => hname ⟨s, rest, he⟩
      have hmapped : ∀ s rest, done.map (Component.mapName f) ≠ .name s :: rest := by
        intro s rest he
        obtain ⟨c, cs, rfl, hc, -⟩ := List.map_eq_cons_iff.mp he
        cases c with
        | name t => exact hdone t cs rfl
        | _ => cases hc
      show Component.fold (done.map (Component.mapName f)) .parent = _
      rw [fold_parent_of_no_name hmapped, fold_parent_of_no_name hdone]
      simp only [root_mem_map_mapName]
      split <;> rfl
  | _ => rfl

theorem foldl_mapName (cs done : List Component) :
    (cs.map (Component.mapName f)).foldl Component.fold (done.map (Component.mapName f)) =
      (cs.foldl Component.fold done).map (Component.mapName f) := by
  induction cs generalizing done with
  | nil => rfl
  | cons c cs ih => rw [List.map_cons, List.foldl_cons, fold_mapName, ih, List.foldl_cons]

theorem withoutCommon_map {g : Component → Component} (hg : Function.Injective g)
    (as bs : List Component) :
    withoutCommon (as.map g) (bs.map g) =
      ((withoutCommon as bs).1.map g, (withoutCommon as bs).2.map g) := by
  induction as generalizing bs with
  | nil => cases bs <;> rfl
  | cons a as ih =>
    cases bs with
    | nil => rfl
    | cons b bs =>
      by_cases hab : a = b
      · rw [hab, List.map_cons, List.map_cons, withoutCommon_cons_self, withoutCommon_cons_self, ih]
      · rw [List.map_cons, List.map_cons, withoutCommon, if_neg (fun h => hab (hg h)),
          withoutCommon, if_neg hab]
        rfl

end Path

/-! ## one character for each byte -/

namespace BytePath

theorem toNat_ofNat_toNat (b : UInt8) : (Char.ofNat b.toNat).toNat = b.toNat := by
  have hlt : b.toNat < 0x100 := b.toNat_lt
  exact toNat_ofNat_of_lt (by omega)

theorem unspell_spell (bs : List UInt8) : unspell (spell bs) = bs := by
  unfold unspell spell
  rw [String.toList_ofList, List.map_map]
  refine (List.map_congr_left fun b _ => ?_).trans (List.map_id bs)
  show UInt8.ofNat (Char.ofNat b.toNat).toNat = b
  rw [toNat_ofNat_toNat, UInt8.ofNat_toNat]

/-- characters that stand for bytes -/
def IsBytes (part : List Char) : Prop := ∀ c ∈ part, c.toNat < 0x100

instance : DecidablePred IsBytes := fun part =>
  List.decidableBAll (fun c : Char => c.toNat < 0x100) part

theorem spell_unspell {s : String} (h : IsBytes s.toList) : spell (unspell s) = s := by
  unfold unspell spell
  rw [List.map_map]
  refine (congrArg String.ofList ?_).trans String.ofList_toList
  refine (List.map_congr_left fun c hc => ?_).trans (List.map_id _)
  show Char.ofNat (UInt8.ofNat c.toNat).toNat = c
  rw [toNat_ofNat_byte (h c hc), Char.ofNat_toNat]

theorem isBytes_spell (bs : List UInt8) : IsBytes (spell bs).toList := by
  intro c hc
  rw [spell, String.toList_ofList] at hc
  obtain ⟨b, -, rfl⟩ := List.mem_map.mp hc
  rw [toNat_ofNat_toNat]
  exact b.toNat_lt

theorem isKind_isBytes : IsKind IsBytes where
  empty := by simp [IsBytes]
  current := by simp [IsBytes]
  parent := by simp [IsBytes]
  append ha hb c hc := (List.mem_append.mp hc).elim (ha c) (hb c)

theorem partsAre_spelled (p : BytePath) : p.spelled.PartsAre IsBytes :=
  fun _ hpart c hc => isBytes_spell p.bytes c (subset_of_mem_pieces hpart hc)

theorem spelled_ofSpelled {p : Path} (h : p.PartsAre IsBytes) : (ofSpelled p).spelled = p := by
  refine congrArg Path.mk (spell_unspell fun c hc => ?_)
  by_cases hslash : c = '/'
  · rw [hslash]
    decide
  · obtain ⟨part, hpart, hmem⟩ := exists_part_of_mem hslash hc
    exact h part hpart c hmem

theorem spelled_normalize (p : BytePath) : p.normalize.spelled = p.spelled.normalize :=
  spelled_ofSpelled (p.partsAre_spelled.normalize isKind_isBytes)

theorem components_normalize (p : BytePath) :
    p.normalize.components = p.spelled.normalize.components := by
  rw [components, spelled_normalize]

end BytePath

/-! ## texts in UTF-8 -/

namespace Path

open BytePath

/-- a text with one character for each of its bytes -/
def encode (s : String) : String := spell (bytesOf s)

theorem readable_unspell_encode (s : String) : readable (unspell (encode s)) = s := by
  rw [encode, unspell_spell, readable_bytesOf]

theorem encode_injective : Function.Injective encode := fun s t h => by
  rw [← readable_unspell_encode s, h, readable_unspell_encode]

/-- the characters that stand for the bytes of a character -/
def encodeChar (c : Char) : List Char :=
  (String.utf8EncodeChar c).map fun b => Char.ofNat b.toNat

theorem toList_encode (s : String) : (encode s).toList = s.toList.flatMap encodeChar := by
  rw [encode, spell, String.toList_ofList, bytesOf_eq, List.map_flatMap]
  rfl

theorem flatMap_encodeChar_injective {as bs : List Char}
    (h : as.flatMap encodeChar = bs.flatMap encodeChar) : as = bs := by
  have hencode : encode (String.ofList as) = encode (String.ofList bs) := by
    rw [← String.toList_inj, toList_encode, toList_encode, String.toList_ofList,
      String.toList_ofList, h]
  exact String.ofList_injective (encode_injective hencode)

/-- no byte of another character is a slash -/
theorem slash_mem_encodeChar {c : Char} (h : '/' ∈ encodeChar c) : c = '/' := by
  obtain ⟨b, hb, hslash⟩ := List.mem_map.mp h
  have hbyte : b.toNat = 0x2f := by
    rw [← toNat_ofNat_toNat, hslash]
    rfl
  refine Char.toNat_inj.mp ?_
  show c.val.toNat = 0x2f
  unfold String.utf8EncodeChar at hb
  generalize c.val.toNat = v at hb
  dsimp only at hb
  split_ifs at hb <;>
    simp only [List.mem_cons, List.not_mem_nil, or_false, ← UInt8.toNat_inj,
      UInt8.toNat_ofNat'] at hb <;> omega

theorem pieces_flatMap_encodeChar (cs : List Char) :
    pieces (cs.flatMap encodeChar) = (pieces cs).map (·.flatMap encodeChar) := by
  induction cs with
  | nil => rfl
  | cons c cs ih =>
    rw [List.flatMap_cons]
    by_cases hc : c = '/'
    · have hslash : encodeChar '/' = ['/'] := by decide
      rw [hc, hslash, List.singleton_append, pieces_slash, pieces_slash, ih]
      rfl
    · obtain ⟨first, rest, hcs⟩ := List.exists_cons_of_ne_nil (pieces_ne_nil cs)
      have hnone : pieces (encodeChar c) = [] ++ [encodeChar c] :=
        pieces_of_not_mem fun h => hc (slash_mem_encodeChar h)
      rw [hcs, List.map_cons] at ih
      rw [pieces_append hnone ih, pieces_cons hc hcs]
      rfl

/-- a component of a text, in a path of bytes -/
def Component.encoded (c : Component) : Component := c.mapName encode

theorem component?_flatMap_encodeChar (part : List Char) :
    component? (part.flatMap encodeChar) = (component? part).map Component.encoded := by
  have hiff : ∀ t : List Char, t.flatMap encodeChar = t →
      (part.flatMap encodeChar = t ↔ part = t) := fun t ht =>
    ⟨fun h => flatMap_encodeChar_injective (h.trans ht.symm), fun h => by rw [h, ht]⟩
  have hempty := hiff [] rfl
  have hdot := hiff ['.'] (by decide)
  have hdots := hiff ['.', '.'] (by decide)
  unfold component?
  simp only [hempty, hdot, hdots]
  split
  · rfl
  · split
    · rfl
    · have hname : String.ofList (part.flatMap encodeChar) = encode (String.ofList part) := by
        rw [← String.toList_inj, toList_encode, String.toList_ofList, String.toList_ofList]
      rw [hname]
      rfl

theorem head?_flatMap_encodeChar (cs : List Char) :
    (cs.flatMap encodeChar).head? = some '/' ↔ cs.head? = some '/' := by
  cases cs with
  | nil => exact Iff.rfl
  | cons c cs =>
    have hne : encodeChar c ≠ [] := fun h =>
      String.utf8EncodeChar_ne_nil (List.map_eq_nil_iff.mp h)
    rw [List.flatMap_cons, List.head?_append_of_ne_nil _ hne, List.head?_cons]
    constructor
    · intro h
      rw [slash_mem_encodeChar (List.mem_of_mem_head? h)]
    · intro h
      obtain rfl := Option.some.inj h
      decide

theorem filterMap_encoded (ps : List (List Char)) :
    (ps.map (·.flatMap encodeChar)).filterMap component? =
      (ps.filterMap component?).map Component.encoded := by
  rw [List.filterMap_map, List.map_filterMap]
  exact List.filterMap_congr fun part _ => component?_flatMap_encodeChar part

theorem componentsOf_flatMap_encodeChar (cs : List Char) :
    componentsOf (cs.flatMap encodeChar) = (componentsOf cs).map Component.encoded := by
  obtain ⟨first, rest, hcs⟩ := List.exists_cons_of_ne_nil (pieces_ne_nil cs)
  have hpieces := pieces_flatMap_encodeChar cs
  rw [hcs, List.map_cons] at hpieces
  have hdot : first.flatMap encodeChar = ['.'] ↔ first = ['.'] :=
    ⟨fun h => flatMap_encodeChar_injective (h.trans (by decide)), fun h => by rw [h]; decide⟩
  unfold componentsOf
  rw [hpieces, hcs]
  simp only [head?_flatMap_encodeChar, hdot]
  split
  · rw [List.map_cons, filterMap_encoded]
    rfl
  · split
    · rw [List.map_cons, filterMap_encoded]
      rfl
    · exact filterMap_encoded (first :: rest)

end Path

namespace BytePath

theorem components_ofPath (p : Path) :
    (ofPath p).components = p.components.map Component.encoded := by
  show componentsOf (encode p.text).toList = _
  rw [toList_encode, componentsOf_flatMap_encodeChar]
  rfl

theorem components_normalize_ofPath (p : Path) :
    (ofPath p).normalize.components = p.normalize.components.map Component.encoded := by
  have hspelled : (ofPath p).spelled.components = p.components.map Component.encoded :=
    components_ofPath p
  rw [components_normalize, Path.components_normalize, Path.components_normalize, hspelled,
    normalComponents, normalComponents, List.map_reverse]
  exact congrArg List.reverse (foldl_mapName p.components [])

end BytePath

end Bindle
