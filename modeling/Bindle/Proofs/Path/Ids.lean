import Bindle.Path.Id
import Bindle.Proofs.Path.Joining

/-!
# Module ids tell files apart

The id of a file is the text of the way to it from the root of the project.

* `way base p`     the way as components: `..` some times, then down (`foldl_way`);
* `readWay`        the way that a text is of (`readWay_pieces`);
* `rise cs`        how often `..` stands at the beginning.

A way alone does not tell where it begins to go down.  `length_up_eq` finds it from the way and the
base, unless the base lies further up than the path does.  So a text that is an id of two files is an
id of one place (`ofPath_eq_iff`).
-/

namespace Bindle

namespace Path

/-! ## ways -/

def way (base p : List Component) : List Component :=
  List.replicate (withoutCommon base p).1.length .parent ++ (withoutCommon base p).2

theorem stepsBetween_eq (base p : Path) :
    stepsBetween base p = (way base.components p.components).map Component.text := by
  unfold way
  rw [List.map_append, List.map_replicate]
  show (withoutCommon base.components p.components).1.map (fun _ => "..") ++ _ = _
  rw [List.map_const']
  rfl

theorem withoutCommon_cons_self (c : Component) (as bs : List Component) :
    withoutCommon (c :: as) (c :: bs) = withoutCommon as bs := by
  rw [withoutCommon, if_pos rfl]

theorem withoutCommon_of_head_ne {as bs : List Component}
    (h : ∀ a ∈ as.head?, ∀ b ∈ bs.head?, a ≠ b) : withoutCommon as bs = (as, bs) := by
  cases as with
  | nil => cases bs <;> rfl
  | cons a as =>
    cases bs with
    | nil => rfl
    | cons b bs => rw [withoutCommon, if_neg (h a rfl b rfl)]

/-- what is left behind the common beginning -/
theorem exists_common (as bs : List Component) : ∃ common,
    as = common ++ (withoutCommon as bs).1 ∧ bs = common ++ (withoutCommon as bs).2 := by
  induction as generalizing bs with
  | nil => exact ⟨[], by cases bs <;> rfl, by cases bs <;> rfl⟩
  | cons a as ih =>
    cases bs with
    | nil => exact ⟨[], rfl, rfl⟩
    | cons b bs =>
      by_cases hab : a = b
      · obtain ⟨common, has, hbs⟩ := ih bs
        subst hab
        rw [withoutCommon_cons_self]
        exact ⟨a :: common, by rw [List.cons_append, ← has], by rw [List.cons_append, ← hbs]⟩
      · rw [withoutCommon, if_neg hab]
        exact ⟨[], rfl, rfl⟩

/-- a path that shares a beginning with the base is known from what is left of both -/
theorem eq_of_withoutCommon {base p q : List Component}
    (hup : (withoutCommon base p).1.length = (withoutCommon base q).1.length)
    (hdown : (withoutCommon base p).2 = (withoutCommon base q).2) : p = q := by
  obtain ⟨common, hbase, hp⟩ := exists_common base p
  obtain ⟨common', hbase', hq⟩ := exists_common base q
  have hcommon : common = common' := (List.append_inj' (hbase.symm.trans hbase') hup).1
  rw [hp, hq, hcommon, hdown]

theorem mem_way {base p : List Component} {c : Component} (h : c ∈ way base p) :
    c = .parent ∨ c ∈ p := by
  rcases List.mem_append.mp h with h | h
  · exact .inl (List.eq_of_mem_replicate h)
  · obtain ⟨common, -, hcommon⟩ := exists_common base p
    exact .inr (hcommon ▸ List.mem_append_right common h)

/-- the components that pieces of a text stand for; two empty ones are a root -/
def readWay : List (List Char) → List Component
  | [] => []
  | [] :: [] :: rest => .root :: readWay rest
  | piece :: rest => (component? piece).toList ++ readWay rest

theorem readWay_flatMap {cs : List Component} (hcs : ∀ c ∈ cs, c.IsStep ∨ c = .root) :
    readWay (cs.flatMap (fun c => pieces c.text.toList)) = cs := by
  induction cs with
  | nil => rfl
  | cons c cs ih =>
    have hrest := ih fun d hd => hcs d (List.mem_cons_of_mem _ hd)
    rw [List.flatMap_cons]
    rcases hcs c List.mem_cons_self with hc | rfl
    · obtain ⟨hslash, hempty, -, hread⟩ := toList_text_of_isStep hc
      obtain ⟨d, ds, hd⟩ := List.exists_cons_of_ne_nil hempty
      rw [pieces_of_not_mem hslash, List.singleton_append]
      rw [hd] at hread ⊢
      rw [readWay, hread, hrest]
      · rfl
      · intro rest he
        exact absurd he (List.cons_ne_nil d ds)
    · show readWay ([] :: [] :: cs.flatMap (fun c => pieces c.text.toList)) = _
      rw [readWay, hrest]

theorem readWay_pieces {cs : List Component} (hcs : ∀ c ∈ cs, c.IsStep ∨ c = .root) :
    readWay (pieces ("/".intercalate (cs.map Component.text)).toList) = cs := by
  by_cases hne : cs = []
  · rw [hne]
    rfl
  · rw [String.toList_intercalate, List.map_map, show "/".toList = ['/'] from rfl,
      pieces_intercalate (fun h => hne (List.map_eq_nil_iff.mp h)), List.flatMap_map]
    exact readWay_flatMap hcs

/-- components of a normal form, as ways have them -/
theorem IsNormal.isStep {cs : List Component} (h : IsNormal cs) {c : Component} (hc : c ∈ cs) :
    c.IsStep ∨ c = .root := by
  cases h with
  | @absolute names h =>
    rcases List.mem_cons.mp hc with rfl | hc
    · exact .inr rfl
    · exact .inl (isStep_of_mem_names h hc)
  | @relative k names h => exact .inl (isStep_of_mem_descent h hc)

theorem readWay_relative (base : Path) {p : Path} (hp : IsNormal p.components) :
    readWay (pieces (relative base p).toList) = way base.components p.components := by
  rw [relative, stepsBetween_eq]
  refine readWay_pieces fun c hc => ?_
  rcases mem_way hc with rfl | hc
  · exact .inl Component.isStep_parent
  · exact hp.isStep hc

/-! ## where a way begins to go down -/

def rise (cs : List Component) : Nat := (cs.takeWhile (· = .parent)).length

theorem rise_replicate_append (k : Nat) (cs : List Component) :
    rise (List.replicate k .parent ++ cs) = k + rise cs := by
  unfold rise
  rw [List.takeWhile_append_of_pos fun c hc => decide_eq_true (List.eq_of_mem_replicate hc),
    List.length_append, List.length_replicate]

theorem rise_eq_zero {cs : List Component} (h : .parent ∉ cs) : rise cs = 0 := by
  cases cs with
  | nil => rfl
  | cons c cs =>
    have hc : c ≠ .parent := fun he => h (he ▸ List.mem_cons_self)
    unfold rise
    rw [List.takeWhile_cons_of_neg (by simpa using hc), List.length_nil]

theorem parent_not_mem_names (names : List String) :
    Component.parent ∉ names.map Component.name := by simp

theorem root_not_mem_names (names : List String) :
    Component.root ∉ names.map Component.name := by simp

theorem rise_descent (k : Nat) (names : List String) : rise (descent k names) = k := by
  rw [descent, rise_replicate_append, rise_eq_zero (parent_not_mem_names names), Nat.add_zero]

/-- the base is not further up than the path -/
def Within (base p : List Component) : Prop := .root ∈ base ∨ .root ∈ p ∨ rise base ≤ rise p

/-- how often a way goes up before it goes down -/
def ups (base steps : List Component) : Nat :=
  if .root ∈ steps then base.length else min (rise steps) (base.length - rise base)

theorem withoutCommon_replicate_append (k : Nat) (c : Component) (as bs : List Component) :
    withoutCommon (List.replicate k c ++ as) (List.replicate k c ++ bs) = withoutCommon as bs := by
  induction k with
  | zero => rfl
  | succ k ih =>
    rw [List.replicate_succ, List.cons_append, List.cons_append, withoutCommon_cons_self, ih]

theorem head_ne_of_not_mem {as bs : List Component} (h : ∀ a ∈ as.head?, a ∉ bs) :
    ∀ a ∈ as.head?, ∀ b ∈ bs.head?, a ≠ b :=
  fun a ha _ hb hab => h a ha (hab ▸ List.mem_of_mem_head? hb)

/-- between names the way goes up exactly as often as `..` stands at its beginning -/
theorem way_names (ns ms : List String) :
    .root ∉ way (ns.map .name) (ms.map .name) ∧
      rise (way (ns.map .name) (ms.map .name)) =
        (withoutCommon (ns.map .name) (ms.map .name)).1.length ∧
      (withoutCommon (ns.map .name) (ms.map .name)).1.length ≤ ns.length := by
  obtain ⟨common, hbase, hp⟩ := exists_common (ns.map .name) (ms.map .name)
  have hdown : ∀ c ∈ (withoutCommon (ns.map .name) (ms.map .name)).2, c ∈ ms.map Component.name :=
    fun c hc => hp ▸ List.mem_append_right common hc
  refine ⟨fun hroot => ?_, ?_, ?_⟩
  · rcases mem_way hroot with hroot | hroot
    · cases hroot
    · exact root_not_mem_names ms hroot
  · rw [way, rise_replicate_append,
      rise_eq_zero fun hparent => parent_not_mem_names ms (hdown _ hparent), Nat.add_zero]
  · have hlength := congrArg List.length hbase
    rw [List.length_map, List.length_append] at hlength
    omega

/-- **Where a way goes down is known from the way and the base.** -/
theorem length_up_eq {base p : List Component} (hbase : IsNormal base) (hp : IsNormal p)
    (h : Within base p) : (withoutCommon base p).1.length = ups base (way base p) := by
  cases hbase with
  | @absolute ns _ =>
    have hrise : rise (.root :: ns.map .name) = 0 := rise_eq_zero (by simp)
    cases hp with
    | @absolute ms _ =>
      obtain ⟨hroot, hways, hle⟩ := way_names ns ms
      unfold way at hroot hways ⊢
      rw [withoutCommon_cons_self, ups, if_neg hroot, hways, hrise, List.length_cons,
        List.length_map]
      omega
    | @relative j ms _ =>
      have hwc : withoutCommon (.root :: ns.map .name) (descent j ms) =
          (.root :: ns.map .name, descent j ms) := by
        refine withoutCommon_of_head_ne (head_ne_of_not_mem fun a ha => ?_)
        obtain rfl := Option.some.inj ha
        exact root_not_mem_descent j ms
      have hroot : .root ∉ way (.root :: ns.map .name) (descent j ms) := by
        simp [way, hwc, root_not_mem_descent]
      rw [ups, if_neg hroot, hrise, way, hwc, rise_replicate_append]
      exact (Nat.min_eq_right (Nat.le_add_right _ _)).symm
  | @relative k ns _ =>
    cases hp with
    | @absolute ms _ =>
      have hwc : withoutCommon (descent k ns) (.root :: ms.map .name) =
          (descent k ns, .root :: ms.map .name) := by
        refine withoutCommon_of_head_ne fun a ha b hb hab => ?_
        obtain rfl := Option.some.inj hb
        exact root_not_mem_descent k ns (hab ▸ List.mem_of_mem_head? ha)
      have hroot : .root ∈ way (descent k ns) (.root :: ms.map .name) := by
        simp [way, hwc]
      rw [ups, if_pos hroot, hwc]
    | @relative j ms _ =>
      have hle : k ≤ j := by
        rcases h with h | h | h
        · exact absurd h (root_not_mem_descent k ns)
        · exact absurd h (root_not_mem_descent j ms)
        · rwa [rise_descent, rise_descent] at h
      obtain ⟨i, rfl⟩ := Nat.exists_eq_add_of_le hle
      have hlength : (descent k ns).length - rise (descent k ns) = ns.length := by
        rw [rise_descent, descent, List.length_append, List.length_replicate, List.length_map]
        omega
      have hwc : withoutCommon (descent k ns) (descent (k + i) ms) =
          withoutCommon (ns.map .name) (descent i ms) := by
        rw [descent, descent, ← List.replicate_append_replicate, List.append_assoc,
          withoutCommon_replicate_append]
        rfl
      have hway : way (descent k ns) (descent (k + i) ms) = way (ns.map .name) (descent i ms) := by
        rw [way, way, hwc]
      rw [hwc, hway, ups, hlength]
      cases i with
      | zero =>
        obtain ⟨hroot, hways, hlen⟩ := way_names ns ms
        rw [show descent 0 ms = ms.map .name from List.nil_append _, if_neg hroot, hways]
        omega
      | succ i =>
        have hwc' : withoutCommon (ns.map .name) (descent (i + 1) ms) =
            (ns.map .name, descent (i + 1) ms) := by
          refine withoutCommon_of_head_ne fun a ha b hb hab => ?_
          obtain rfl := Option.some.inj hb
          exact parent_not_mem_names ns (hab ▸ List.mem_of_mem_head? ha)
        have hroot : .root ∉ way (ns.map .name) (descent (i + 1) ms) := by
          simp [way, hwc', root_not_mem_descent]
        rw [if_neg hroot, way, hwc', rise_replicate_append, List.length_map]
        exact (Nat.min_eq_right (Nat.le_add_right _ _)).symm

theorem way_injective {base p q : List Component} (hbase : IsNormal base) (hp : IsNormal p)
    (hq : IsNormal q) (hbp : Within base p) (hbq : Within base q) (h : way base p = way base q) :
    p = q := by
  have hup : (withoutCommon base p).1.length = (withoutCommon base q).1.length := by
    rw [length_up_eq hbase hp hbp, length_up_eq hbase hq hbq, h]
  unfold way at h
  rw [hup] at h
  exact eq_of_withoutCommon hup (List.append_cancel_left h)

/-! ## places -/

/-- an id has the way from the root, and so it has the place if the root is not too far up -/
theorem normalize_eq_of_ofPath_eq {root p q : Path}
    (hp : Within root.normalize.components p.normalize.components)
    (hq : Within root.normalize.components q.normalize.components)
    (h : ModuleId.ofPath root p = ModuleId.ofPath root q) : p.normalize = q.normalize := by
  have htext : relative root.normalize p.normalize = relative root.normalize q.normalize :=
    (String.append_right_inj _).mp (congrArg ModuleId.text h)
  have hway : way root.normalize.components p.normalize.components =
      way root.normalize.components q.normalize.components := by
    rw [← readWay_relative _ (isNormal_normalize p), htext,
      readWay_relative _ (isNormal_normalize q)]
  exact normalize_inj.mpr (way_injective (isNormal_normalize root) (isNormal_normalize p)
    (isNormal_normalize q) hp hq hway)

/-- how often `..` stands at the beginning of a path -/
def rises (p : Path) : Nat := rise p.components

end Path

open Bindle.Path

/-- **Ids are equal exactly for the same place.**  With a root that is not absolute, a path has to
begin with `..` as often as the root does, or be absolute itself. -/
theorem ofPath_eq_iff {root p q : Path}
    (h : root.isAbsolute = true ∨
      (p.normalize.isAbsolute = true ∨ root.normalize.rises ≤ p.normalize.rises) ∧
      (q.normalize.isAbsolute = true ∨ root.normalize.rises ≤ q.normalize.rises)) :
    ModuleId.ofPath root p = ModuleId.ofPath root q ↔ p.normalize = q.normalize := by
  have hwithin : ∀ r : Path, (root.isAbsolute = true ∨ r.normalize.isAbsolute = true ∨
      root.normalize.rises ≤ r.normalize.rises) →
      Within root.normalize.components r.normalize.components := by
    rintro r (hroot | habs | hle)
    · exact .inl (isAbsolute_normalize hroot)
    · exact .inr (.inl ((isAbsolute_iff _).mp habs))
    · exact .inr (.inr hle)
  constructor
  · exact normalize_eq_of_ofPath_eq (hwithin p (h.imp_right And.left))
      (hwithin q (h.imp_right And.right))
  · intro hnormal
    unfold ModuleId.ofPath
    rw [hnormal]

/-- a path that does not begin with the `..` of the root can have the id of another -/
example : ModuleId.ofPath ⟨".."⟩ ⟨"a"⟩ = ModuleId.ofPath ⟨".."⟩ ⟨"../../a"⟩ := by decide +kernel

end Bindle
