import Bindle.Proofs.Path.Spelled

/-!
# Ids of paths of bytes

* `Component.read`     a component with its name as it is shown;
* `Component.IsText`   its name is the UTF-8 bytes of a text, so it is read as what it is;
* `above root p`       how many components `root` has beyond its common beginning with `p`;
* `beyond root p`      what `p` has beyond it;
* `ShowsText root p`   the names beyond it are texts.

An id shows the names beyond the root as texts.  It tells paths apart as far as these do
(`ofBytes_eq_iff`), and leads back to the path if they are texts (`normalize_join_ofBytes_iff`).  All
this holds of texts in UTF-8 (`showsText_ofPath`), and they have the ids that the texts have
(`ofBytes_ofPath`).
-/

namespace Bindle

open Text Bindle.Path

/-! ## what components are shown as -/

namespace Path

open BytePath

variable {c d : Component}

/-- a component with its name as it is shown -/
def Component.read (c : Component) : Component := c.mapName fun s => readable (unspell s)

theorem Component.text_read (c : Component) : c.read.text = c.shown := by
  cases c with
  | name s => rfl
  | root => decide
  | current => decide
  | parent => decide

/-- bytes are shown as an ASCII text only if they are its own -/
theorem eq_of_readable_eq {s t : String} (hs : IsBytes s.toList)
    (ht : t.toList.all (·.toNat < 0x80) = true) (h : readable (unspell s) = t) : s = t := by
  have hread : readBytes none (unspell s) = t.toList := by
    rw [← h, readable, String.toList_ofList]
  have hbytes := eq_of_readBytes_eq_ascii
    (fun c hc => of_decide_eq_true (List.all_eq_true.mp ht c hc)) hread
  rw [← spell_unspell hs, spell]
  refine (congrArg String.ofList ?_).trans String.ofList_toList
  show (unspell s).map (Char.ofNat ∘ UInt8.toNat) = t.toList
  rw [← List.map_map, hbytes, List.map_map]
  exact (List.map_congr_left fun c _ => Char.ofNat_toNat c).trans (List.map_id _)

theorem isProper_readable {s : String} (hs : IsBytes s.toList) (h : (Component.name s).IsProper) :
    (Component.name (readable (unspell s))).IsProper := by
  obtain ⟨hempty, hslash, hdot, hdots⟩ := h
  refine ⟨fun he => hempty (eq_of_readable_eq hs (by decide) he), fun hmem => hslash ?_,
    fun he => hdot (eq_of_readable_eq hs (by decide) he),
    fun he => hdots (eq_of_readable_eq hs (by decide) he)⟩
  rw [readable, String.toList_ofList] at hmem
  obtain ⟨b, hb, hbyte⟩ := exists_of_mem_readBytes (by simp) hmem (by decide)
  obtain ⟨c, hc, rfl⟩ := List.mem_map.mp hb
  rw [toNat_ofNat_byte (hs c hc)] at hbyte
  rwa [← Char.toNat_inj.mp hbyte]

/-- a component of a path of bytes, as ways have them -/
def Component.IsByteStep (c : Component) : Prop := (c.IsStep ∨ c = .root) ∧ IsBytes c.text.toList

theorem Component.IsByteStep.read (h : c.IsByteStep) : c.read.IsStep ∨ c.read = .root := by
  obtain ⟨h | rfl, hbytes⟩ := h
  · cases c with
    | root => exact absurd rfl h.2.1
    | current => exact absurd rfl h.2.2
    | parent => exact .inl Component.isStep_parent
    | name s => exact .inl (Component.isStep_name (isProper_readable hbytes h.1))
  · exact .inr rfl

end Path

namespace BytePath

variable {root p q : BytePath}

/-- the steps of an id -/
def steps (root p : BytePath) : List Component :=
  (way root.normalize.components p.normalize.components).map Component.read

/-- how many components the root has for itself -/
def above (root p : BytePath) : Nat :=
  (withoutCommon root.normalize.components p.normalize.components).1.length

/-- how often `..` stands at the beginning of a path -/
def rises (p : BytePath) : Nat := rise p.components

end BytePath

/-! ## names that are texts -/

namespace Path

open BytePath

theorem Component.read_encoded (c : Component) : c.encoded.read = c := by
  cases c with
  | name s => exact congrArg Component.name (readable_unspell_encode s)
  | _ => rfl

theorem Component.shown_encoded (c : Component) : c.encoded.shown = c.text := by
  rw [← text_read, read_encoded]

theorem Component.encoded_injective : Function.Injective Component.encoded :=
  Function.LeftInverse.injective Component.read_encoded

end Path

namespace BytePath

variable {root p q : BytePath}

/-- **Texts have the ids that their bytes have.** -/
theorem ofBytes_ofPath (root p : Path) :
    ModuleId.ofBytes (ofPath root) (ofPath p) = ModuleId.ofPath root p := by
  have hsteps : stepsBetween (ofPath root).normalize (ofPath p).normalize =
      Path.stepsBetween root.normalize p.normalize := by
    unfold stepsBetween Path.stepsBetween
    rw [components_normalize_ofPath, components_normalize_ofPath,
      withoutCommon_map Component.encoded_injective]
    show List.map _ (List.map _ _) ++ List.map _ (List.map _ _) = _
    rw [List.map_map, List.map_map]
    exact congrArg (_ ++ ·) (List.map_congr_left fun c _ => c.shown_encoded)
  rw [ModuleId.ofBytes, relative, hsteps]
  rfl

end BytePath

end Bindle
