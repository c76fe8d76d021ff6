import Bindle.Proofs.Script.Taking

/-!
# Tokens ahead

What a rule of the grammar does is mostly decided by the next few tokens.  In sloppy code these do
not depend on anything but the text.

* `Lexes`      the tokens that a text begins with;
* `Ahead`      a state of sloppy code with its token and those behind it;
* `Stopped`    an outcome that is the fault of an `export` which is not at the top.

The steps that look at the current token are computed (`bind_token`, `bind_atSymbol` and the like),
and those that take it lead to the next one (`Ahead.advance`, `Ahead.expect`).
-/

namespace Bindle.Script

open Parse

/-- the kinds of the tokens that a text begins with; no line ends before an arrow -/
def Lexes : List Char → List Token.Kind → Prop
  | _, [] => True
  | text, k :: ks => ∃ rest, rest.length < text.length ∧ Lexes rest ks ∧ ∀ offset,
      (Token.read {} false ⟨text, offset⟩).token.kind = k ∧
      (Token.read {} false ⟨text, offset⟩).after.rest = rest ∧
      (k = .symbol .arrow → (Token.read {} false ⟨text, offset⟩).token.newline = false)

theorem Lexes.length_le {text : List Char} {ks : List Token.Kind} (h : Lexes text ks) :
    ks.length ≤ text.length := by
  induction ks generalizing text with
  | nil => exact Nat.zero_le _
  | cons k ks ih =>
    obtain ⟨rest, hlt, hks, -⟩ := h
    exact Nat.succ_le_of_lt (Nat.lt_of_le_of_lt (ih hks) hlt)

/-- a state of sloppy code at a token of kind `k`, with tokens of the kinds `ks` behind it -/
structure Ahead (s : State) (k : Token.Kind) (ks : List Token.Kind) : Prop where
  sloppy : s.scope.toReserving = {}
  kind : s.token.kind = k
  sameLine : k = .symbol .arrow → s.token.newline = false
  lexes : Lexes s.cursor.rest ks

/-- an outcome that is the fault of an `export` which is not at the top -/
def Stopped {α : Type} (r : EStateM.Result Fault State α) : Prop :=
  ∃ offset t, r = .error ⟨.importOutsideModule, offset⟩ t ∧ t.token.kind = .word "export"

variable {α β : Type} {s : State} {k : Token.Kind} {ks : List Token.Kind}

/-! ## steps that look -/

theorem bind_token (q : Token → Parse β) (s : State) : (token >>= q) s = q s.token s := rfl

theorem bind_scope (q : Scope → Parse β) (s : State) : (scope >>= q) s = q s.scope s := rfl

theorem bind_get (q : State → Parse β) (s : State) :
    ((MonadState.get : Parse State) >>= q) s = q s s := rfl

theorem bind_atSymbol (x : Symbol) (q : Bool → Parse β) (s : State) :
    (atSymbol x >>= q) s = q (s.token.kind == .symbol x) s := rfl

theorem bind_atWord (w : String) (q : Bool → Parse β) (s : State) :
    (atWord w >>= q) s = q (s.token.kind == .word w) s := rfl

theorem bind_afterNewline (q : Bool → Parse β) (s : State) :
    (afterNewline >>= q) s = q s.token.newline s := rfl

theorem bind_eat_of_ne {x : Symbol} (h : s.token.kind ≠ .symbol x) (q : Bool → Parse β) :
    (eat x >>= q) s = q false s := by
  refine bind_of_ok ?_
  show (if (s.token.kind == .symbol x) = true then _ else Pure.pure false : Parse Bool) s = _
  rw [if_neg (by rwa [beq_iff_eq])]
  rfl

theorem bind_eatWord_of_ne {w : String} (h : s.token.kind ≠ .word w) (q : Bool → Parse β) :
    (eatWord w >>= q) s = q false s := by
  refine bind_of_ok ?_
  show (if (s.token.kind == .word w) = true then _ else Pure.pure false : Parse Bool) s = _
  rw [if_neg (by rwa [beq_iff_eq])]
  rfl

theorem bind_refuseInvalid (h : ∀ fault, s.token.kind ≠ .invalid fault) (q : Unit → Parse β) :
    (refuseInvalid >>= q) s = q () s := by
  refine bind_of_ok ?_
  rw [refuseInvalid, bind_token]
  cases hkind : s.token.kind with
  | invalid fault => exact absurd hkind (h fault)
  | _ => rfl

theorem attempt_of_ok {p : Parse α} {t : State} {a : α} (h : p s = .ok a t) :
    attempt p s = .ok (.ok a) t := by
  rw [attempt, h]

theorem attempt_of_error {p : Parse α} {t : State} {fault : Fault} (h : p s = .error fault t) :
    attempt p s = .ok (.error fault) t := by
  rw [attempt, h]

theorem within_of_ok {change : Scope → Scope} {p : Parse α} {t : State} {a : α}
    (h : p { s with scope := change s.scope } = .ok a t) :
    within change p s = .ok a { t with scope := s.scope } := by
  rw [within, h]

theorem iterateN_of_some {n : Nat} {step : α → Parse (Option α)} {t : State} {a b : α}
    (h : step a s = .ok (some b) t) : iterateN (n + 1) step a s = iterateN n step b t := by
  rw [iterateN, bind_of_ok h]

theorem iterateN_of_none {n : Nat} {step : α → Parse (Option α)} {t : State} {a : α}
    (h : step a s = .ok none t) : iterateN (n + 1) step a s = .ok a t := by
  rw [iterateN, bind_of_ok h]
  rfl

/-! ## steps that take the token -/

namespace Ahead

/-- what counts is the token, the text behind it and that the code is sloppy -/
theorem congr {t : State} (h : Ahead s k ks) (htoken : t.token = s.token)
    (hcursor : t.cursor = s.cursor) (hscope : t.scope.toReserving = {}) : Ahead t k ks where
  sloppy := hscope
  kind := (congrArg Token.kind htoken).trans h.kind
  sameLine := htoken ▸ h.sameLine
  lexes := hcursor ▸ h.lexes

variable {k' : Token.Kind}

theorem advance (h : Ahead s k (k' :: ks)) :
    ∃ t, Parse.advance s = .ok s.token t ∧ Ahead t k' ks := by
  obtain ⟨fs, ms, hadvance⟩ := exists_advance s
  obtain ⟨rest, -, hks, hread⟩ := h.lexes
  obtain ⟨hkind, hrest, hline⟩ := hread s.cursor.offset
  have hnext : s.next = Token.read {} false ⟨s.cursor.rest, s.cursor.offset⟩ := by
    rw [State.next, h.sloppy]
  rw [← hnext] at hkind hrest hline
  exact ⟨_, hadvance, h.sloppy, hkind, hline, hrest ▸ hks⟩

theorem eat {x : Symbol} (h : Ahead s (.symbol x) (k' :: ks)) :
    ∃ t, Parse.eat x s = .ok true t ∧ Ahead t k' ks := by
  obtain ⟨t, ht, hahead⟩ := h.advance
  refine ⟨t, ?_, hahead⟩
  have hat : (s.token.kind == .symbol x) = true := beq_iff_eq.mpr h.kind
  show (if (s.token.kind == .symbol x) = true then _ else _ : Parse Bool) s = _
  rw [if_pos hat, bind_of_ok ht]
  rfl

theorem expect {x : Symbol} (h : Ahead s (.symbol x) (k' :: ks)) :
    ∃ t, Parse.expect x s = .ok () t ∧ Ahead t k' ks := by
  obtain ⟨t, ht, hahead⟩ := h.eat
  refine ⟨t, ?_, hahead⟩
  rw [Parse.expect, bind_of_ok ht]
  rfl

/-- there is a character for each token, so no repetition ends before the tokens do -/
theorem le_remaining (h : Ahead s k ks) : ks.length + 2 ≤ s.cursor.rest.length + 2 :=
  Nat.add_le_add_right h.lexes.length_le 2

end Ahead

/-! ## stopping -/

namespace Stopped

theorem bind {p : Parse α} {q : α → Parse β} (h : Stopped (p s)) : Stopped ((p >>= q) s) := by
  obtain ⟨offset, t, hp, ht⟩ := h
  exact ⟨offset, t, bind_of_error hp, ht⟩

theorem after {p : Parse α} {q : α → Parse β} {t : State} {a : α} (h : p s = .ok a t)
    (hq : Stopped (q a t)) : Stopped ((p >>= q) s) := by
  rwa [bind_of_ok h]

theorem within {change : Scope → Scope} {p : Parse α}
    (h : Stopped (p { s with scope := change s.scope })) : Stopped (within change p s) := by
  obtain ⟨offset, t, hp, ht⟩ := h
  refine ⟨offset, { t with scope := s.scope }, ?_, ht⟩
  rw [Parse.within, hp]

theorem apart {p : Parse α} (h : Stopped (p { s with labels := [] })) : Stopped (apart p s) := by
  obtain ⟨offset, t, hp, ht⟩ := h
  refine ⟨offset, { t with labels := s.labels, isModule := s.isModule }, ?_, ht⟩
  rw [Parse.apart, hp]

/-- a repetition stops in its first round -/
theorem iterate {step : α → Parse (Option α)} {a : α} (h : Stopped (step a s)) :
    Stopped (iterate step a s) :=
  h.bind

theorem fail {offset : Nat} (h : s.token.kind = .word "export") :
    Stopped ((fail .importOutsideModule offset : Parse α) s) := by
  refine ⟨offset, s, ?_, h⟩
  rw [Parse.fail, h]

end Stopped

end Bindle.Script
