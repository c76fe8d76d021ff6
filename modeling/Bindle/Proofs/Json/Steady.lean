import Bindle.Proofs.Json.Objects
import Mathlib.Data.List.TakeWhile

/-!
# What stands behind a value does not matter

A reader stops where its value ends, so that what is read from a text alone is read from it wherever
it stands.  Only a number could go on, with what `Stops` keeps away from it.

* `Keeps p cs`        what the reader `p` reads from `cs` it reads whatever follows;
* `Steady p`          it does so from every text;
* `steady_value`      values;
* `steady_record`     structures whose fields are steady.
-/

namespace Bindle.Json.Read

open Bindle.Text

variable {α β σ : Type}

/-- what the reader reads from `cs` it reads from it whatever stands behind `cs` -/
def Keeps (p : Read α) (cs : List Char) : Prop :=
  ∀ i a s, p ⟨cs, i⟩ = .ok a s → ∀ more, Stops more → Reads p (cs ++ more) a (s.chars ++ more)

def Steady (p : Read α) : Prop := ∀ cs, Keeps p cs

variable {p : Read α} {cs : List Char}

theorem Refuses.keeps (h : Refuses p cs) : Keeps p cs := fun i a s ha => by
  obtain ⟨e, t, he⟩ := h i
  rw [he] at ha
  cases ha

/-! ## combinators -/

theorem steady_pure (a : α) : Steady (pure a : Read α) := fun cs i b s h more _ => by
  cases h
  exact .pure _ _

theorem Keeps.bind {f : α → Read β} (hp : Keeps p cs) (hf : ∀ a, Steady (f a)) :
    Keeps (p >>= f) cs := fun i b s h more hmore => by
  obtain ⟨a, t, ha, hb⟩ := bind_eq_ok.mp h
  exact (hp i a t ha more hmore).bind (hf a t.chars t.index b s hb more hmore)

theorem Steady.bind {f : α → Read β} (hp : Steady p) (hf : ∀ a, Steady (f a)) :
    Steady (p >>= f) := fun cs => (hp cs).bind hf

theorem Keeps.settle (h : Keeps p cs) : Keeps (settle p) cs := fun i a s ha more hmore => by
  unfold Read.settle at ha
  split at ha
  · rename_i b t hb
    cases ha
    exact (h i _ _ hb more hmore).settle
  · cases ha

theorem Steady.closedBy {close : Read Unit} (hp : Steady p) (hclose : Steady close) :
    Steady (closedBy p close) := fun cs i a s h more hmore => by
  unfold Read.closedBy at h
  split at h
  · rename_i b t hb
    split at h
    · rename_i u v hu
      cases h
      exact (hp cs i _ _ hb more hmore).closedBy (hclose t.chars t.index _ _ hu more hmore)
    · cases h
  · split at h <;> cases h

theorem steady_fail (e : Problem) : Steady (fail e : Read α) := fun _ _ _ _ h => nomatch h

theorem steady_failAt (e : Problem) (i : Nat) : Steady (failAt e i : Read α) :=
  fun _ _ _ _ h => nomatch h

theorem steady_failNext (e : Problem) : Steady (failNext e : Read α) := fun _ _ _ _ h => nomatch h

theorem steady_raise (e : Problem) : Steady (raise e : Read α) := fun _ _ _ _ h => nomatch h

/-! ## single characters -/

theorem keeps_next_bind {f : Unit → Read β} (hf : Steady (f ())) (c : Char) (cs : List Char) :
    Keeps (next >>= f) (c :: cs) := fun i b s h more hmore => by
  obtain ⟨_, t, ha, hb⟩ := bind_eq_ok.mp h
  cases ha
  exact (reads_next c _).bind (hf _ _ b s hb more hmore)

theorem keeps_next (c : Char) (cs : List Char) : Keeps next (c :: cs) := fun i a s h more _ => by
  cases h
  exact reads_next c _

theorem keeps_peek {f : Option Char → Read β} {c : Char} (h : Keeps (f (some c)) (c :: cs)) :
    Keeps (peek >>= f) (c :: cs) := fun i b s hb more hmore => by
  obtain ⟨_, t, ha, hb⟩ := bind_eq_ok.mp hb
  cases ha
  exact fun j => h i b s hb more hmore j

/-- a reader that looks at the next character may take the end of the text for any character that
no value goes on with -/
theorem steady_peek {f : Option Char → Read β} (hsome : ∀ c cs, Keeps (f (some c)) (c :: cs))
    (hnone : Steady (f none))
    (hstop : ∀ c more, Stops (c :: more) → f (some c) = f none) :
    Steady (peek >>= f) := fun cs => by
  cases cs with
  | cons c cs => exact keeps_peek (hsome c cs)
  | nil =>
    intro i b s hb more hmore
    have hread := hnone [] i b s hb more hmore
    cases more with
    | nil => exact hread
    | cons c more =>
      intro j
      obtain ⟨k, hk⟩ := hread j
      exact ⟨k, (congrFun (hstop c more hmore) _).trans hk⟩

theorem steady_peek_of_refuses {f : Option Char → Read β}
    (hsome : ∀ c cs, Keeps (f (some c)) (c :: cs)) (hnone : Refuses (f none) []) :
    Steady (peek >>= f) := fun cs => by
  cases cs with
  | cons c cs => exact keeps_peek (hsome c cs)
  | nil => exact Refuses.keeps fun i => hnone i

theorem steady_skipSpace {f : Option Char → Read β}
    (hsome : ∀ c cs, Keeps (f (some c)) (c :: cs)) (hnone : Refuses (f none) []) :
    Steady (skipSpace >>= f) := fun cs i b s hb more hmore => by
  obtain ⟨_, t, ha, hb⟩ := bind_eq_ok.mp hb
  cases ha
  have hsplit := List.takeWhile_append_dropWhile (p := isJsonSpace) (l := cs)
  have hblank : IsBlank (cs.takeWhile isJsonSpace) := fun c hc => List.mem_takeWhile_imp hc
  cases hdrop : cs.dropWhile isJsonSpace with
  | nil =>
    rw [hdrop] at hb
    obtain ⟨e, t, he⟩ := hnone (i + spaceLength cs)
    exact nomatch hb.symm.trans he
  | cons c rest =>
    rw [hdrop] at hb hsplit
    have hc : isJsonSpace c = false := by
      have := List.head?_dropWhile_not isJsonSpace cs
      rw [hdrop] at this
      simpa using this
    rw [← hsplit, List.append_assoc, List.cons_append]
    exact (reads_skipSpace hblank hc _).bind (hsome c rest _ b s hb more hmore)

/-- where a reader stands does not matter if only failures tell of it -/
theorem steady_rest {f : Rest → Read β} (hf : ∀ here, Steady (f here))
    (hsame : ∀ here there s b t, f here s = .ok b t → f there s = .ok b t) :
    Steady (rest >>= f) := fun cs i b s h more hmore j =>
  hf _ cs i b s (hsame _ ⟨cs ++ more, j⟩ _ _ _ h) more hmore j

/-! ## loops -/

theorem iterateN_steady {step : σ → Read (Option σ)} (hstep : ∀ a, Steady (step a)) {n m : Nat}
    (hm : n ≤ m) {a b : σ} {cs : List Char} {i : Nat} {s : Rest}
    (h : iterateN n step a ⟨cs, i⟩ = .ok b s) {more : List Char} (hmore : Stops more) :
    Reads (iterateN m step a) (cs ++ more) b (s.chars ++ more) := by
  induction n generalizing a cs i m with
  | zero => exact nomatch h
  | succ n ih =>
    obtain ⟨m, rfl⟩ := Nat.exists_eq_add_of_le' hm
    obtain ⟨o, t, ho, hb⟩ := bind_eq_ok.mp h
    refine (hstep a cs i o t ho more hmore).bind ?_
    cases o with
    | none =>
      cases hb
      exact .pure _ _
    | some a' => exact ih (Nat.le_add_left n m) hb

theorem steady_iterate {step : σ → Read (Option σ)} (hstep : ∀ a, Steady (step a)) (a : σ) :
    Steady (iterate step a) := fun cs i b s h more hmore j => by
  have hbound : 2 * cs.length + 2 ≤ 2 * (cs ++ more).length + 2 := by
    rw [List.length_append]
    omega
  exact iterateN_steady hstep hbound h hmore j

/-! ## words, strings and numbers -/

theorem steady_restOfWord (word : List Char) : Steady (restOfWord word) := by
  induction word with
  | nil => exact steady_pure ()
  | cons d word ih =>
    refine steady_peek_of_refuses (fun c cs => ?_) (fun i => ⟨_, _, rfl⟩)
    dsimp only
    split
    · exact keeps_next_bind ih c cs
    · exact steady_failNext _ _

theorem steady_readString : Steady readString := fun cs i s after h more _ j => by
  cases cs with
  | nil =>
    obtain ⟨_, t, ht, h⟩ := bind_eq_ok.mp h
    obtain ⟨out, u, hout, -⟩ := bind_eq_ok.mp h
    cases ht
    simp [ofExcept, stringFrom] at hout
  | cons c cs =>
    rw [readString_cons] at h
    split at h
    · rename_i out middle hout
      cases h
      obtain ⟨t, s, hs, rfl, rfl⟩ := exists_spells_of_stringFrom hout
      obtain ⟨k, hk⟩ := stringFrom_of_spells hs [] (after.chars ++ more) (j + c.utf8Size)
      refine ⟨k, ?_⟩
      rw [List.cons_append, List.append_assoc, List.cons_append, readString_cons, hk]
      rfl
    · cases h

theorem steady_digits : Steady digits := fun cs i ds s h more hmore j => by
  cases h
  have hnone : more.takeWhile isDecimalDigit = [] ∧ more.dropWhile isDecimalDigit = more := by
    cases more with
    | nil => exact ⟨rfl, rfl⟩
    | cons c more =>
      have hc := (hmore c rfl).1
      simp [hc]
  have htake : (cs ++ more).takeWhile isDecimalDigit = cs.takeWhile isDecimalDigit := by
    rw [List.takeWhile_append, hnone.1, List.append_nil]
    split
    · rename_i hall
      exact (List.takeWhile_prefix _).eq_of_length hall |>.symm
    · rfl
  have hdrop : (cs ++ more).dropWhile isDecimalDigit = cs.dropWhile isDecimalDigit ++ more := by
    rw [List.dropWhile_append, hnone.2]
    split
    · rename_i hempty
      rw [List.isEmpty_iff.mp hempty, List.nil_append]
    · rfl
  exact ⟨_, by rw [digits, htake, hdrop]⟩

theorem steady_floatNumber (minus : Bool) (significand : Nat) (e : Int) :
    Steady (floatNumber minus significand e) := by
  unfold floatNumber
  split
  · exact steady_pure _
  · exact steady_fail _

/-- the digits of an exponent and the number they make -/
def exponentDigits (minus : Bool) (significand : Nat) (e : Int) (sign : Option Char) :
    Read Number := do
  match ← peek with
  | none => fail .endInValue
  | some d =>
    if !isDecimalDigit d then failNext .invalidNumber
    else
      let start ← rest
      let ds ← digits
      let n := digitsNumber 10 ds
      if n > largestExponent then
        if significand ≠ 0 ∧ sign ≠ some '-' then
          let fitting := (exponent.accumulateUpTo largestExponent 0 0 ds).2
          failAt .numberOutOfRange (start.index + fitting + 1)
        else return .float minus .zero
      else floatNumber minus significand (if sign = some '-' then e - n else e + n)

theorem steady_exponentDigits (minus : Bool) (significand : Nat) (e : Int) (sign : Option Char) :
    Steady (exponentDigits minus significand e sign) := by
  refine steady_peek_of_refuses (fun d cs => ?_) (fun i => ⟨_, _, rfl⟩)
  dsimp only
  split
  · exact steady_failNext _ _
  · refine steady_rest (fun here => steady_digits.bind fun ds => ?_) ?_ _
    · split
      · split
        · exact steady_failAt _ _
        · exact steady_pure _
      · exact steady_floatNumber _ _ _
    · intro here there s b t h
      obtain ⟨ds, u, hds, h⟩ := bind_eq_ok.mp h
      refine bind_eq_ok.mpr ⟨ds, u, hds, ?_⟩
      split at h
      · rename_i hlarge
        rw [if_pos hlarge]
        split at h
        · cases h
        · rename_i hzero
          rwa [if_neg hzero]
      · rename_i hsmall
        rwa [if_neg hsmall]

theorem exponent_eq (minus : Bool) (significand : Nat) (e : Int) :
    exponent minus significand e = (do
      next
      let sign ← peek
      if sign = some '+' ∨ sign = some '-' then
        next
        exponentDigits minus significand e sign
      else exponentDigits minus significand e sign) := rfl

theorem keeps_exponent (minus : Bool) (significand : Nat) (e : Int) (c : Char) (cs : List Char) :
    Keeps (exponent minus significand e) (c :: cs) := by
  rw [exponent_eq]
  refine keeps_next_bind (steady_peek_of_refuses (fun d ds => ?_) (fun i => ⟨_, _, rfl⟩)) c cs
  split
  · exact keeps_next_bind (steady_exponentDigits _ _ _ _) d ds
  · exact steady_exponentDigits _ _ _ _ _

theorem isExponentMark_stop {c : Char} {more : List Char} (h : Stops (c :: more)) :
    isExponentMark (some c) = false := by
  obtain ⟨-, -, he, hE⟩ := h c rfl
  simp [isExponentMark, he, hE]

theorem keeps_fraction (minus : Bool) (significand : Nat) (e : Int) (c : Char) (cs : List Char) :
    Keeps (fraction minus significand e) (c :: cs) := by
  unfold fraction
  refine keeps_next_bind (steady_digits.bind fun ds => ?_) c cs
  split
  · refine steady_peek_of_refuses (fun c cs => steady_failNext _ _) (fun i => ⟨_, _, rfl⟩)
  · refine steady_peek (fun c cs => ?_) (steady_floatNumber _ _ _) (fun c more h => ?_)
    · split
      · exact keeps_exponent _ _ _ c cs
      · exact steady_floatNumber _ _ _ _
    · rw [isExponentMark_stop h]
      rfl

theorem steady_afterInteger (minus : Bool) (significand : Nat) (e : Int) (whole : Bool) :
    Steady (afterInteger minus significand e whole) := by
  -- the number that has neither a fraction nor an exponent
  have hplain : Steady (if !whole then floatNumber minus significand e
      else if !minus then return .natural significand
      else if 0 < significand ∧ significand ≤ largestNegative then return .negative significand
      else floatNumber minus significand 0 : Read Number) := by
    split
    · exact steady_floatNumber _ _ _
    split
    · exact steady_pure _
    split
    · exact steady_pure _
    · exact steady_floatNumber _ _ _
  refine steady_peek (fun c cs => ?_) hplain (fun c more h => ?_)
  · split
    · exact keeps_fraction _ _ _ c cs
    split
    · exact keeps_exponent _ _ _ c cs
    · exact hplain _
  · have hpoint : some c ≠ some '.' := fun heq => (h c rfl).2.1 (Option.some.inj heq)
    rw [if_neg hpoint, isExponentMark_stop h]
    rfl

theorem steady_unsigned (minus : Bool) : Steady (unsigned minus) := by
  refine steady_peek_of_refuses (fun c cs => ?_) (fun i => ⟨_, _, rfl⟩)
  dsimp only
  split
  · contradiction
  · refine keeps_next_bind (steady_peek (fun d ds => ?_) (steady_afterInteger _ _ _ _) ?_) _ cs
    · split
      · exact steady_failNext _ _
      · exact steady_afterInteger _ _ _ _ _
    · intro d more h
      rw [Option.any_some, (h d rfl).1]
      rfl
  · split
    · exact steady_failNext _ _
    · exact steady_digits.bind (fun ds => steady_afterInteger _ _ _ _) _

theorem steady_readNumber : Steady readNumber := by
  refine steady_peek_of_refuses (fun c cs => ?_) (fun i => ⟨_, _, rfl⟩)
  split
  · exact keeps_next_bind (steady_unsigned true) c cs
  · exact steady_unsigned false _

/-! ## values -/

theorem keeps_scalar (d c : Char) (cs : List Char) : Keeps (scalar d) (c :: cs) := by
  have hword (word : List Char) (v : Json) :
      Keeps (do next; restOfWord word; return v : Read Json) (c :: cs) :=
    keeps_next_bind ((steady_restOfWord word).bind fun _ => steady_pure v) c cs
  unfold scalar
  split
  · exact hword _ _
  split
  · exact hword _ _
  split
  · exact hword _ _
  split
  · exact steady_readString.bind (fun _ => steady_pure _) _
  split
  · exact steady_readNumber.bind (fun _ => steady_pure _) _
  · exact steady_failNext _ _

theorem steady_hasItem (first : Bool) : Steady (hasItem first) := by
  refine steady_skipSpace (fun c cs => ?_) (fun i => ⟨_, _, rfl⟩)
  split
  · contradiction
  · exact steady_pure _ _
  split
  · exact steady_pure _ _
  split
  · refine keeps_next_bind (steady_skipSpace (fun d ds => ?_) (fun i => ⟨_, _, rfl⟩)) _ cs
    split
    · exact steady_failNext _ _
    · exact steady_pure _ _
    · exact steady_failNext _ _
  · exact steady_failNext _ _

theorem steady_hasField (first : Bool) : Steady (hasField first) := by
  refine steady_skipSpace (fun c cs => ?_) (fun i => ⟨_, _, rfl⟩)
  split
  · contradiction
  · exact steady_pure _ _
  split
  · split
    · exact steady_pure _ _
    · exact steady_failNext _ _
  split
  · refine keeps_next_bind (steady_skipSpace (fun d ds => ?_) (fun i => ⟨_, _, rfl⟩)) _ cs
    split
    · exact steady_pure _ _
    · exact steady_failNext _ _
    · exact steady_failNext _ _
    · exact steady_failNext _ _
  · exact steady_failNext _ _

theorem steady_closeList : Steady closeList := by
  refine steady_skipSpace (fun c cs => ?_) (fun i => ⟨_, _, rfl⟩)
  split
  · exact keeps_next _ cs
  · refine keeps_next_bind (steady_skipSpace (fun d ds => ?_) (fun i => ⟨_, _, rfl⟩)) _ cs
    split
    · exact steady_failNext _ _
    · exact steady_failNext _ _
  · exact steady_failNext _ _
  · contradiction

theorem steady_closeObject : Steady closeObject := by
  refine steady_skipSpace (fun c cs => ?_) (fun i => ⟨_, _, rfl⟩)
  split
  · exact keeps_next _ cs
  · exact steady_failNext _ _
  · exact steady_failNext _ _
  · contradiction

theorem steady_colon : Steady colon := by
  refine steady_skipSpace (fun c cs => ?_) (fun i => ⟨_, _, rfl⟩)
  split
  · exact keeps_next _ cs
  · exact steady_failNext _ _
  · contradiction

theorem steady_items {item : Read α} (h : Steady item) : Steady (items item) := by
  refine (steady_iterate (fun acc => ?_) _).bind (fun _ => steady_pure _)
  split
  · exact steady_pure _
  refine (steady_hasItem _).bind fun more => ?_
  split
  · exact h.bind fun _ => steady_pure _
  · exact steady_pure _

theorem steady_fields {value : Read α} (h : Steady value) : Steady (fields value) := by
  refine (steady_iterate (fun acc => ?_) _).bind (fun _ => steady_pure _)
  split
  · exact steady_pure _
  refine (steady_hasField _).bind fun more => ?_
  split
  · refine steady_readString.bind fun key => steady_colon.bind fun _ => ?_
    exact h.bind fun _ => steady_pure _
  · exact steady_pure _

/-- **A value is read alike whatever stands behind it.** -/
theorem steady_value (depth : Nat) : Steady (value depth) := by
  induction depth with
  | zero =>
    refine steady_skipSpace (fun c cs => ?_) (fun i => ⟨_, _, rfl⟩)
    dsimp only
    split
    · exact steady_failNext _ _
    · exact keeps_scalar c c cs
  | succ depth ih =>
    refine steady_skipSpace (fun c cs => ?_) (fun i => ⟨_, _, rfl⟩)
    dsimp only
    split
    · have hlist := (steady_items ih).closedBy steady_closeList
      exact keeps_next_bind (hlist.bind fun _ => steady_pure _) c cs
    split
    · have hobject := (steady_fields ih).closedBy steady_closeObject
      exact keeps_next_bind (hobject.bind fun _ => steady_pure _) c cs
    · exact keeps_scalar c c cs

theorem keeps_refuse (wanted : String) (d c : Char) (cs : List Char) :
    Keeps (refuse wanted d : Read α) (c :: cs) := by
  refine Keeps.settle ?_
  split
  · exact steady_raise _ _
  split
  · exact steady_raise _ _
  · exact (keeps_scalar d c cs).bind fun _ => steady_raise _

theorem steady_text : Steady text := by
  refine steady_skipSpace (fun c cs => ?_) (fun i => ⟨_, _, rfl⟩)
  dsimp only
  split
  · exact steady_readString _
  · exact keeps_refuse _ c c cs

theorem steady_list {item : Nat → Read α} (h : ∀ depth, Steady (item depth)) (depth : Nat) :
    Steady (list depth item) := by
  refine steady_skipSpace (fun c cs => ?_) (fun i => ⟨_, _, rfl⟩)
  dsimp only
  split
  · cases depth with
    | zero => exact steady_failNext _ _
    | succ depth =>
      exact (keeps_next_bind ((steady_items (h depth)).closedBy steady_closeList) c cs).settle
  · exact keeps_refuse _ c c cs

/-! ## structures -/

section

variable {shape : Shape σ} (h : ∀ depth field record, Steady (shape.read depth field record))

include h

theorem steady_byName (depth : Nat) : Steady (shape.byName depth) := by
  refine Steady.bind (steady_iterate (fun acc => ?_) _) (fun acc => ?_)
  · obtain ⟨seen, record, done⟩ := acc
    dsimp only
    split
    · exact steady_pure _
    refine (steady_hasField _).bind fun more => ?_
    split
    · have hfield (key : String) : Steady (do
          colon
          return some (key :: seen, ← shape.read depth key record, false) :
            Read (Option (List String × σ × Bool))) :=
        steady_colon.bind fun _ => (h depth key record).bind fun _ => steady_pure _
      have hnew (key : String) : Steady (do
          if seen.contains key then raise (.repeatedField key)
          colon
          return some (key :: seen, ← shape.read depth key record, false) :
            Read (Option (List String × σ × Bool))) := by
        dsimp only
        split
        · exact (steady_raise _).bind fun _ => hfield key
        · exact hfield key
      refine steady_readString.bind fun key => ?_
      split
      · exact (steady_raise _).bind fun _ => hnew key
      · exact hnew key
    · exact steady_pure _
  · split
    · exact steady_raise _
    · exact steady_pure _

theorem steady_inOrder (depth : Nat) (names : List String) (i : Nat) (record : σ) :
    Steady (shape.inOrder depth i names record) := by
  induction names generalizing i record with
  | nil => exact steady_pure _
  | cons name names ih =>
    refine (steady_hasItem _).bind fun more => ?_
    split
    · exact (h depth name record).bind fun _ => ih _ _
    split
    · exact steady_raise _
    · exact ih _ _

/-- **A structure is read alike whatever stands behind it.** -/
theorem steady_record (depth : Nat) : Steady (record shape depth) := by
  refine steady_skipSpace (fun c cs => ?_) (fun i => ⟨_, _, rfl⟩)
  dsimp only
  split
  · cases depth with
    | zero => exact steady_failNext _ _
    | succ depth =>
      refine (keeps_next_bind ?_ c cs).settle
      split
      · exact (steady_inOrder h depth _ _ _).closedBy steady_closeList
      · exact (steady_byName h depth).closedBy steady_closeObject
  · exact keeps_refuse _ c c cs

end

end Bindle.Json.Read
