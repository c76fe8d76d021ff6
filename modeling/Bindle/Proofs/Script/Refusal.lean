import Bindle.Proofs.Script.Ahead
import Bindle.Script.Grammar.Module

/-!
# Exports inside a function

An `export` may be at the top of a source only.  Here is what the grammar does with one that is the
first statement of a function `(module, exports, require) => { … }`, where this function is the first
value of an object, which is the value of a variable in an arrow function in parentheses: it stops.

* `ReadsName p name s k ks`    the step `p` reads a parameter, and no more;
* `parenthesized_wrapper`      so the list of parameters is read;
* `StopsAt p k ks`             the step `p` stops at the `export`, whatever state has these tokens;
* `stopsAt_program`            and so does each step around it, up to the whole program.

Every rule hands on the fault of its first part that stops.  The one exception is the operand of a
binary operator, which is noted and replaced if an operator comes next; no `export` is an operator.
-/

namespace Bindle.Script.Grammar

open Parse

variable {g : Grammar} {s : State} {k : Token.Kind} {ks : List Token.Kind}

/-! ## operands -/

/-- the state with a note whether an arrow function may begin at the token -/
def marked (s : State) (canBeArrow : Bool) : State :=
  { s with arrowStart := if canBeArrow then some s.token.start else none }

theorem ahead_marked (h : Ahead s k ks) (canBeArrow : Bool) : Ahead (marked s canBeArrow) k ks :=
  h.congr rfl rfl h.sloppy

/-- the parameters of the functions in a bundle -/
def isWrapperName (name : String) : Prop := name = "module" ∨ name = "exports" ∨ name = "require"

/-- what the operands in a bundle begin with -/
inductive BeginsOperand : Token.Kind → Prop
  | name {name : String} (h : isWrapperName name) : BeginsOperand (.word name)
  | paren : BeginsOperand (.symbol .lparen)
  | brace : BeginsOperand (.symbol .lbrace)

theorem BeginsOperand.ne_word (h : BeginsOperand k) {w : String}
    (hw : w ∈ ["new", "super", "import"]) : k ≠ .word w := by
  cases h with
  | name hname =>
    rintro hword
    obtain rfl := Token.Kind.word.inj hword
    rcases hname with rfl | rfl | rfl <;> exact absurd hw (by decide)
  | paren => exact nofun
  | brace => exact nofun

/-- what may be behind a primary, behind a callee, behind an operand and behind a target -/
def memberRest (g : Grammar) (object : Node) : Parse Node := do
  if isArrow object then return object else subscripts g true object

def callRest (g : Grammar) (start : Nat) (callee : Node) : Parse Node := do
  if isArrow callee || callee.kind = .new false then return callee
  else if ← atSymbol .lparen then
    let args ← arguments g
    let kind := if callee.kind = .optional then .optional else .call
    subscripts g false (← node kind start (callee :: args))
  else return callee

def updateRest (e : Node) : Parse Node := do
  if isArrow e || (← afterNewline) then return e
  else if (← atSymbol .increment) || (← atSymbol .decrement) then
    checkTarget e
    let _ ← advance
    node .update e.start [e]
  else return e

def assignmentRest (g : Grammar) (left : Node) : Parse Node := do
  if isArrow left || isOperatorExpression left then return left
  else match (← token).kind with
    | .symbol x =>
      if x.isAssignment then
        let target ← assignmentTarget left (x == .assign)
        let _ ← advance
        let right ← g.assignment
        node (.assignment (x == .assign)) left.start [target, right]
      else return left
    | _ => return left

theorem memberOrNew_eq (h : BeginsOperand s.token.kind) :
    memberOrNew g s = (primary g >>= memberRest g) s := by
  rw [memberOrNew, bind_token, bind_eatWord_of_ne (h.ne_word (by decide)),
    if_neg Bool.false_ne_true, bind_eatWord_of_ne (h.ne_word (by decide)),
    if_neg Bool.false_ne_true, bind_eatWord_of_ne (h.ne_word (by decide)),
    if_neg Bool.false_ne_true]
  rfl

theorem leftHandSide_eq (h : BeginsOperand s.token.kind) :
    leftHandSide g s = (memberOrNew g >>= callRest g s.token.start) s := by
  rw [leftHandSide, bind_token, bind_eatWord_of_ne (h.ne_word (by decide)),
    if_neg Bool.false_ne_true, bind_eatWord_of_ne (h.ne_word (by decide)),
    if_neg Bool.false_ne_true]
  rfl

theorem unaryExpression_eq (h : BeginsOperand s.token.kind) :
    unaryExpression g s = (leftHandSide g >>= updateRest) s := by
  obtain ⟨_, ⟨kind⟩⟩ := s
  cases h with
  | name hname => rcases hname with rfl | rfl | rfl <;> rfl
  | paren => rfl
  | brace => rfl

theorem assignmentExpression_eq (h : BeginsOperand s.token.kind)
    (hsloppy : s.scope.toReserving = {}) :
    assignmentExpression g s =
      (conditional g >>= assignmentRest g) (marked s (s.token.kind ≠ .symbol .lbrace)) := by
  obtain ⟨_, ⟨kind⟩, _, _, _, _, ⟨reserving⟩⟩ := s
  obtain rfl : reserving = {} := hsloppy
  cases h with
  | name hname => rcases hname with rfl | rfl | rfl <;> rfl
  | paren => rfl
  | brace => rfl

/-! ## names -/

def isDelimiter (x : Symbol) : Prop := x = .comma ∨ x = .rparen

/-- a step reads a name and comes to the token behind it -/
def ReadsName (p : Parse Node) (name : String) (s : State) (k : Token.Kind)
    (ks : List Token.Kind) : Prop :=
  ∃ start stop t, p s = .ok (.mk (.identifier name) start stop []) t ∧ Ahead t k ks

/-- a name is all that is read if nothing belongs to it that comes behind -/
theorem ReadsName.bind {p : Parse Node} {q : Node → Parse Node} {name : String} {x : Symbol}
    (h : ReadsName p name s (.symbol x) ks)
    (hq : ∀ start stop t, t.token.kind = .symbol x →
      q (.mk (.identifier name) start stop []) t = .ok (.mk (.identifier name) start stop []) t) :
    ReadsName (p >>= q) name s (.symbol x) ks := by
  obtain ⟨start, stop, t, ht, hahead⟩ := h
  exact ⟨start, stop, t, by rw [bind_of_ok ht, hq start stop t hahead.kind], hahead⟩

theorem ReadsName.congr {p q : Parse Node} {name : String} {s' : State}
    (h : ReadsName p name s' k ks) (heq : q s = p s') : ReadsName q name s k ks := by
  obtain ⟨start, stop, t, ht, hahead⟩ := h
  exact ⟨start, stop, t, heq.trans ht, hahead⟩

theorem reference_name {name : String} (hname : isWrapperName name)
    (h : Ahead s (.word name) (k :: ks)) : ReadsName reference name s k ks := by
  obtain ⟨t, ht, hahead⟩ := h.advance
  refine ⟨s.token.start, t.lastStop, t, ?_, hahead⟩
  unfold reference identifier
  rw [bind_scope, bind_token]
  simp only [bind_token, h.kind, bind_of_ok ht]
  rcases hname with rfl | rfl | rfl <;> rfl

section

variable {name : String} (hname : isWrapperName name) {x : Symbol} (hx : isDelimiter x)

include hx

/-- a delimiter ends whatever was read -/
theorem subscripts_delimiter (noCall : Bool) (start stop : Nat) (h : s.token.kind = .symbol x) :
    subscripts g noCall (.mk (.identifier name) start stop []) s =
      .ok (.mk (.identifier name) start stop []) s := by
  obtain ⟨_, ⟨kind, _, _, newline⟩⟩ := s
  obtain rfl : kind = .symbol x := h
  rcases hx with rfl | rfl <;> rfl

theorem binaryFrom_delimiter (start stop : Nat) (h : s.token.kind = .symbol x) :
    binaryFrom g (.mk (.identifier name) start stop []) 0 s =
      .ok (.mk (.identifier name) start stop []) s := by
  obtain ⟨_, ⟨kind, _, _, newline⟩⟩ := s
  obtain rfl : kind = .symbol x := h
  rcases hx with rfl | rfl <;> rfl

variable (h : Ahead s (.word name) (.symbol x :: ks))

include hname h

theorem nameOrArrow_name (canBeArrow : Bool) :
    ReadsName (nameOrArrow g canBeArrow) name s (.symbol x) ks := by
  refine (reference_name hname h).bind fun start stop t ht => ?_
  obtain ⟨_, ⟨kind, _, _, newline⟩⟩ := t
  obtain rfl : kind = .symbol x := ht
  rcases hx with rfl | rfl <;> rcases hname with rfl | rfl | rfl <;>
    cases canBeArrow <;> cases newline <;> rfl

theorem primary_name : ReadsName (primary g) name s (.symbol x) ks := by
  refine (nameOrArrow_name (g := g) hname hx h (s.arrowStart = some s.token.start)).congr ?_
  rw [primary, bind_refuseInvalid (by rw [h.kind]; exact nofun), bind_token, bind_get]
  dsimp only
  generalize decide (s.arrowStart = some s.token.start) = canBeArrow
  obtain ⟨_, ⟨kind⟩, _, _, _, _, ⟨reserving⟩⟩ := s
  obtain rfl : kind = .word name := h.kind
  obtain rfl : reserving = {} := h.sloppy
  rcases hname with rfl | rfl | rfl <;> cases canBeArrow <;> rfl

theorem unaryExpression_name : ReadsName (unaryExpression g) name s (.symbol x) ks := by
  have hbegins : BeginsOperand s.token.kind := h.kind ▸ .name hname
  have hmember : ReadsName (memberOrNew g) name s (.symbol x) ks :=
    ((primary_name hname hx h).bind (q := memberRest g) fun start stop _ ht =>
      subscripts_delimiter hx true start stop ht).congr (memberOrNew_eq hbegins)
  have hleft : ReadsName (leftHandSide g) name s (.symbol x) ks := by
    refine (hmember.bind fun start stop t ht => ?_).congr (leftHandSide_eq hbegins)
    obtain ⟨_, ⟨kind⟩⟩ := t
    obtain rfl : kind = .symbol x := ht
    rcases hx with rfl | rfl <;> rfl
  refine (hleft.bind fun start stop t ht => ?_).congr (unaryExpression_eq hbegins)
  obtain ⟨_, ⟨kind, _, _, newline⟩⟩ := t
  obtain rfl : kind = .symbol x := ht
  rcases hx with rfl | rfl <;> cases newline <;> rfl

theorem binaryExpression_name : ReadsName (binaryExpression (deeper g)) name s (.symbol x) ks := by
  obtain ⟨start, stop, t, ht, hahead⟩ := unaryExpression_name (g := g) hname hx h
  refine ⟨start, stop, t, ?_, hahead⟩
  have hattempt : attempt (deeper g).unary s = .ok (.ok (.mk (.identifier name) start stop [])) t :=
    attempt_of_ok ht
  rw [binaryExpression, bind_of_ok hattempt]
  exact binaryFrom_delimiter hx start stop hahead.kind

/-- a name before a delimiter is read as an expression -/
theorem assignmentExpression_name :
    ReadsName (assignmentExpression (deeper g)) name s (.symbol x) ks := by
  have hbegins : BeginsOperand s.token.kind := h.kind ▸ .name hname
  refine ReadsName.congr ?_ (assignmentExpression_eq hbegins h.sloppy)
  refine ((binaryExpression_name hname hx (ahead_marked h _)).bind fun _ _ t ht => ?_).bind
    fun _ _ t ht => ?_
  all_goals
    obtain ⟨_, ⟨kind⟩⟩ := t
    obtain rfl : kind = .symbol x := ht
    rcases hx with rfl | rfl <;> rfl

end

/-! ## the export -/

/-- a step stops at the word `export`, whatever state has these tokens ahead -/
def StopsAt {α : Type} (p : Parse α) (k : Token.Kind) (ks : List Token.Kind) : Prop :=
  ∀ s, Ahead s k ks → Stopped (p s)

theorem stopsAt_nestedStatement (declarations : Bool) :
    StopsAt (nestedStatement g declarations) (.word "export") ks := by
  intro s h
  have hstep : nestedStatement g declarations s =
      fail .importOutsideModule s.token.start s := by
    obtain ⟨_, ⟨kind⟩⟩ := s
    obtain rfl : kind = .word "export" := h.kind
    rfl
  rw [hstep]
  exact .fail h.kind

/-! ## statements -/

theorem stopsAt_blockBody {item : Parse Node} {x : Symbol} {directives : Bool}
    (hk : k ≠ .symbol x ∧ k ≠ .eof) (h : StopsAt item k ks) :
    StopsAt (blockBody item (some x) directives) k ks := by
  intro s hs
  rw [blockBody]
  refine .within (.bind (.iterate ?_))
  have hx : (k == .symbol x) = false := beq_eq_false_iff_ne.mpr hk.1
  have heof : (k == .eof) = false := beq_eq_false_iff_ne.mpr hk.2
  simp only [bind_token, hs.kind, hx, heof]
  exact .bind (h s hs)

theorem stopsAt_block {directives : Bool} (hk : k ≠ .symbol .rbrace ∧ k ≠ .eof)
    (h : StopsAt (g.statement true) k ks) :
    StopsAt (block g directives) (.symbol .lbrace) (k :: ks) := by
  intro s hs
  obtain ⟨t, ht, hahead⟩ := hs.expect
  rw [block, bind_token]
  exact .after ht (.bind (stopsAt_blockBody hk h t hahead))

theorem sloppy_bodyScope {c : Scope} (h : c.toReserving = {}) (ownThis : Bool) :
    (bodyScope false false ownThis c).toReserving = {} := by
  show { c.toReserving with inStaticBlock := false, inAsync := false, inGenerator := false } = _
  rw [h]

theorem stopsAt_arrowBody {params : List Node} (hk : k ≠ .symbol .rbrace ∧ k ≠ .eof)
    (h : StopsAt (g.statement true) k ks) :
    StopsAt (arrowBody g false params) (.symbol .lbrace) (k :: ks) := by
  intro s hs
  rw [arrowBody]
  refine .apart (.within ?_)
  rw [bind_atSymbol, if_pos (beq_iff_eq.mpr hs.kind)]
  exact .bind (stopsAt_block hk h _ (hs.congr rfl rfl (sloppy_bodyScope hs.sloppy _)))

/-! ## expressions -/

theorem stopsAt_includingIn {p : Parse Node} {yes : Bool} (h : StopsAt p k ks) :
    StopsAt (includingIn yes p) k ks :=
  fun _ hs => .within (h _ (hs.congr rfl rfl hs.sloppy))

theorem stopsAt_expression (h : StopsAt g.assignment k ks) : StopsAt (expression g) k ks :=
  fun s hs => .bind (h s hs)

/-- one round of a list in parentheses -/
def parenthesizedStep (g : Grammar) (acc : List Node × Option Nat) :
    Parse (Option (List Node × Option Nat)) := do
  if ← atSymbol .rparen then return none
  let e ← includingIn true (spreadOrExpression g)
  if ← atSymbol .rparen then return some (e :: acc.1, none)
  expect .comma
  if ← atSymbol .rparen then return some (e :: acc.1, some (← lastStart))
  return some (e :: acc.1, none)

theorem parenthesized_eq (g : Grammar) : parenthesized g = (do
    expect .lparen
    let found ← iterate (parenthesizedStep g) ([], none)
    expect .rparen
    return (found.1.reverse, found.2)) :=
  rfl

theorem spreadOrExpression_of_ne (h : s.token.kind ≠ .symbol .ellipsis) :
    spreadOrExpression g s = g.assignment s := by
  rw [spreadOrExpression, bind_token, bind_eat_of_ne h]
  rfl

/-- a parenthesis whose first item stops -/
theorem stopsAt_parenthesized (hk : k ≠ .symbol .rparen ∧ k ≠ .symbol .ellipsis)
    (h : StopsAt g.assignment k ks) : StopsAt (parenthesized g) (.symbol .lparen) (k :: ks) := by
  intro s hs
  obtain ⟨t, ht, hahead⟩ := hs.expect
  rw [parenthesized_eq]
  refine .after ht (.bind (.iterate ?_))
  have hrparen : (k == .symbol .rparen) = false := beq_eq_false_iff_ne.mpr hk.1
  rw [parenthesizedStep, bind_atSymbol, hahead.kind, hrparen, if_neg Bool.false_ne_true]
  refine .bind (.within ?_)
  have hmarked := hahead.congr (t := { t with scope := { t.scope with includeIn := true } }) rfl rfl
    hahead.sloppy
  rw [spreadOrExpression_of_ne (by rw [hmarked.kind]; exact hk.2)]
  exact h _ hmarked

/-- from a primary up to an expression -/
theorem stopped_assignmentExpression (hbegins : BeginsOperand k) (hs : Ahead s k ks)
    (h : Stopped (primary g (marked s (k ≠ .symbol .lbrace)))) :
    Stopped (assignmentExpression (deeper g) s) := by
  obtain rfl : s.token.kind = k := hs.kind
  rw [assignmentExpression_eq hbegins hs.sloppy]
  generalize hmarked : marked s (s.token.kind ≠ .symbol .lbrace) = t at h ⊢
  have ht : BeginsOperand t.token.kind := by
    rw [← hmarked]
    exact hbegins
  have hunary : Stopped (unaryExpression g t) := by
    obtain ⟨offset, u, hfault, hu⟩ := h
    refine ⟨offset, u, ?_, hu⟩
    rw [unaryExpression_eq ht, bind_of_error]
    rw [leftHandSide_eq ht, bind_of_error]
    rw [memberOrNew_eq ht, bind_of_error hfault]
  -- the fault is at no operator, so it is not read on from
  have hbinary : Stopped (binaryExpression (deeper g) t) := by
    obtain ⟨offset, u, hfault, hu⟩ := hunary
    refine ⟨offset, u, ?_, hu⟩
    have hattempt : attempt (deeper g).unary t = .ok (.error _) u := attempt_of_error hfault
    rw [binaryExpression, bind_of_ok hattempt]
    obtain ⟨_, ⟨kind⟩⟩ := u
    obtain rfl : kind = .word "export" := hu
    rfl
  exact .bind (.bind hbinary)

theorem primary_lparen (hs : s.token.kind = .symbol .lparen) :
    primary g s = parenthesesOrArrow g (s.arrowStart = some s.token.start) none s := by
  obtain ⟨_, ⟨kind⟩⟩ := s
  obtain rfl : kind = .symbol .lparen := hs
  rfl

theorem primary_lbrace (hs : s.token.kind = .symbol .lbrace) :
    primary g s = objectLiteral g s := by
  obtain ⟨_, ⟨kind⟩⟩ := s
  obtain rfl : kind = .symbol .lbrace := hs
  rfl

/-- an expression that begins with a parenthesis whose first item stops -/
theorem stopsAt_assignment_parenthesis (hk : k ≠ .symbol .rparen ∧ k ≠ .symbol .ellipsis)
    (h : StopsAt g.assignment k ks) :
    StopsAt (deeper (deeper g)).assignment (.symbol .lparen) (k :: ks) := by
  intro s hs
  refine stopped_assignmentExpression .paren hs ?_
  have hmarked := ahead_marked hs true
  show Stopped (primary g (marked s true))
  rw [primary_lparen hmarked.kind, parenthesesOrArrow, bind_token]
  exact .bind (stopsAt_parenthesized hk h _ hmarked)

/-- an expression that begins with an arrow function whose body stops -/
theorem stopped_assignment_arrow {names : List Node} {t : State} {ks' : List Token.Kind}
    (hk : k ≠ .symbol .rbrace ∧ k ≠ .eof) (hs : Ahead s (.symbol .lparen) ks')
    (hparen : parenthesized g (marked s true) = .ok (names, none) t)
    (hnames : ∀ u, asParameters none names u = .ok names u)
    (ht : Ahead t (.symbol .arrow) (.symbol .lbrace :: k :: ks))
    (h : StopsAt (g.statement true) k ks) :
    Stopped ((deeper (deeper g)).assignment s) := by
  refine stopped_assignmentExpression .paren hs ?_
  show Stopped (primary g (marked s true))
  obtain ⟨u, hu, hahead⟩ := ht.expect
  have hstrict : u.scope.strict = false := congrArg Reserving.strict hahead.sloppy
  have hcan : (decide ((marked s true).arrowStart = some (marked s true).token.start)) = true :=
    decide_eq_true rfl
  rw [primary_lparen (ahead_marked hs true).kind, hcan, parenthesesOrArrow, bind_token]
  refine .after hparen ?_
  dsimp only
  rw [bind_atSymbol, if_pos (beq_iff_eq.mpr ht.kind), parenthesizedArrow, bind_afterNewline,
    ht.sameLine rfl, if_neg Bool.false_ne_true, if_neg (show ¬ (!true) = true by decide)]
  refine .after hu (.after (hnames u) ?_)
  rw [bind_scope, hstrict, if_neg Bool.false_ne_true]
  exact .bind (.bind (stopsAt_arrowBody hk h u hahead))

/-! ## lists of parameters -/

theorem parenthesized_nil (h : Ahead s (.symbol .lparen) (.symbol .rparen :: k :: ks)) :
    ∃ t, parenthesized g s = .ok ([], none) t ∧ Ahead t k ks := by
  obtain ⟨t, ht, hahead⟩ := h.expect
  obtain ⟨u, hu, hahead'⟩ := hahead.expect
  refine ⟨u, ?_, hahead'⟩
  have hstep : iterate (parenthesizedStep g) ([], none) t = .ok ([], none) t := by
    obtain ⟨_, ⟨kind⟩⟩ := t
    obtain rfl : kind = .symbol .rparen := hahead.kind
    rfl
  rw [parenthesized_eq, bind_of_ok ht, bind_of_ok hstep, bind_of_ok hu]
  rfl

/-- a name as an item of a list -/
theorem includingIn_name {name : String} (hname : isWrapperName name) {x : Symbol}
    (hx : isDelimiter x) (h : Ahead s (.word name) (.symbol x :: ks)) :
    ReadsName (includingIn true (spreadOrExpression (deeper (deeper g)))) name s (.symbol x) ks := by
  have hinside : Ahead { s with scope := { s.scope with includeIn := true } } (.word name)
      (.symbol x :: ks) := h.congr rfl rfl h.sloppy
  obtain ⟨start, stop, t, ht, hahead⟩ := assignmentExpression_name (g := g) hname hx hinside
  have hitem := (spreadOrExpression_of_ne (g := deeper (deeper g))
    (by rw [hinside.kind]; exact nofun)).trans ht
  exact ⟨start, stop, _, within_of_ok hitem, hahead.congr rfl rfl h.sloppy⟩

/-- a round that reads a name and the comma behind it -/
theorem parenthesizedStep_comma {name next : String} (hname : isWrapperName name)
    (items : List Node) (h : Ahead s (.word name) (.symbol .comma :: .word next :: ks)) :
    ∃ start stop t, parenthesizedStep (deeper (deeper g)) (items, none) s =
        .ok (some (.mk (.identifier name) start stop [] :: items, none)) t ∧
      Ahead t (.word next) ks := by
  obtain ⟨start, stop, t, ht, hahead⟩ := includingIn_name (g := g) hname (.inl rfl) h
  obtain ⟨u, hu, hnext⟩ := hahead.expect
  refine ⟨start, stop, u, ?_, hnext⟩
  have hfirst : (s.token.kind == .symbol .rparen) = false := by rw [h.kind]; rfl
  have hbehind : (t.token.kind == .symbol .rparen) = false := by rw [hahead.kind]; rfl
  have hlast : (u.token.kind == .symbol .rparen) = false := by rw [hnext.kind]; rfl
  rw [parenthesizedStep, bind_atSymbol, hfirst, if_neg Bool.false_ne_true, bind_of_ok ht,
    bind_atSymbol, hbehind, if_neg Bool.false_ne_true, bind_of_ok hu, bind_atSymbol, hlast]
  rfl

theorem parenthesizedStep_last {name : String} (hname : isWrapperName name)
    (items : List Node) (h : Ahead s (.word name) (.symbol .rparen :: ks)) :
    ∃ start stop t, parenthesizedStep (deeper (deeper g)) (items, none) s =
        .ok (some (.mk (.identifier name) start stop [] :: items, none)) t ∧
      Ahead t (.symbol .rparen) ks := by
  obtain ⟨start, stop, t, ht, hahead⟩ := includingIn_name (g := g) hname (.inr rfl) h
  refine ⟨start, stop, t, ?_, hahead⟩
  have hfirst : (s.token.kind == .symbol .rparen) = false := by rw [h.kind]; rfl
  have hbehind : (t.token.kind == .symbol .rparen) = true := by rw [hahead.kind]; rfl
  rw [parenthesizedStep, bind_atSymbol, hfirst, if_neg Bool.false_ne_true, bind_of_ok ht,
    bind_atSymbol, hbehind]
  rfl

/-- the list of the parameters of a wrapper -/
theorem parenthesized_wrapper
    (h : Ahead s (.symbol .lparen) (.word "module" :: .symbol .comma :: .word "exports" ::
      .symbol .comma :: .word "require" :: .symbol .rparen :: k :: ks)) :
    ∃ names t, parenthesized (deeper (deeper g)) s = .ok (names, none) t ∧ Ahead t k ks ∧
      ∀ u, asParameters none names u = .ok names u := by
  obtain ⟨t, ht, hmodule⟩ := h.expect
  obtain ⟨i₁, j₁, t₁, ht₁, hexports⟩ := parenthesizedStep_comma (g := g) (.inl rfl) [] hmodule
  obtain ⟨i₂, j₂, t₂, ht₂, hrequire⟩ := parenthesizedStep_comma (g := g) (.inr (.inl rfl))
    [.mk (.identifier "module") i₁ j₁ []] hexports
  obtain ⟨i₃, j₃, t₃, ht₃, hrparen⟩ := parenthesizedStep_last (g := g) (.inr (.inr rfl))
    [.mk (.identifier "exports") i₂ j₂ [], .mk (.identifier "module") i₁ j₁ []] hrequire
  have hend : ∀ items, parenthesizedStep (deeper (deeper g)) (items, none) t₃ = .ok none t₃ := by
    intro items
    rw [parenthesizedStep, bind_atSymbol, if_pos (beq_iff_eq.mpr hrparen.kind)]
    rfl
  obtain ⟨u, hu, hahead⟩ := hrparen.expect
  obtain ⟨n, hn⟩ : ∃ n, t.cursor.rest.length + 2 = n + 4 := by
    have hle := hmodule.le_remaining
    simp only [List.length_cons] at hle
    exact ⟨t.cursor.rest.length - 2, by omega⟩
  refine ⟨[.mk (.identifier "module") i₁ j₁ [], .mk (.identifier "exports") i₂ j₂ [],
    .mk (.identifier "require") i₃ j₃ []], u, ?_, hahead, fun _ => rfl⟩
  have hloop : iterate (parenthesizedStep (deeper (deeper g))) ([], none) t =
      .ok ([.mk (.identifier "require") i₃ j₃ [], .mk (.identifier "exports") i₂ j₂ [],
        .mk (.identifier "module") i₁ j₁ []], none) t₃ := by
    show iterateN (t.cursor.rest.length + 2) _ _ t = _
    rw [hn, iterateN_of_some ht₁, iterateN_of_some ht₂, iterateN_of_some ht₃,
      iterateN_of_none (hend _)]
  rw [parenthesized_eq, bind_of_ok ht, bind_of_ok hloop, bind_of_ok hu]
  rfl

/-! ## the way to the first wrapper -/

theorem stopsAt_objectLiteral {raw : String} (h : StopsAt g.assignment k ks) :
    StopsAt (objectLiteral g) (.symbol .lbrace) (.string raw :: .symbol .colon :: k :: ks) := by
  intro s hs
  obtain ⟨t, ht, hstring⟩ := hs.expect
  obtain ⟨u, hu, hcolon⟩ := hstring.advance
  obtain ⟨w, hw, hahead⟩ := hcolon.eat
  have hne : ∀ x, t.token.kind ≠ .symbol x := fun x => by rw [hstring.kind]; exact nofun
  have hkey : propertyName g t = .ok (.mk (.string raw) t.token.start u.lastStop []) u := by
    rw [propertyName, bind_refuseInvalid (by rw [hstring.kind]; exact nofun), bind_token,
      hstring.kind]
    show (advance >>= fun _ => node (.string raw) t.token.start []) t = _
    rw [bind_of_ok hu]
    rfl
  have hmember : Stopped (objectMember g t) := by
    rw [objectMember, bind_token, bind_eat_of_ne (hne _), if_neg Bool.false_ne_true,
      bind_eat_of_ne (hne _), if_neg Bool.false_ne_true]
    refine .after hkey ?_
    rw [bind_eat_of_ne (by rw [hcolon.kind]; decide), if_neg Bool.false_ne_true]
    refine .after hw ?_
    exact .bind (stopsAt_includingIn h w hahead)
  rw [objectLiteral, bind_token]
  refine .bind (.after ht (.bind (.iterate ?_)))
  rw [bind_eat_of_ne (hne _), if_neg Bool.false_ne_true]
  exact .bind hmember

theorem bindingPattern_modules (h : Ahead s (.word "modules") (k :: ks)) :
    ∃ n t, bindingPattern g false s = .ok n t ∧ Ahead t k ks := by
  obtain ⟨t, ht, hahead⟩ := h.advance
  refine ⟨.mk (.identifier "modules") s.token.start t.lastStop [], t, ?_, hahead⟩
  rw [bindingPattern, bind_refuseInvalid (by rw [h.kind]; exact nofun), bind_token, h.kind]
  have hidentifier : identifier true true s =
      .ok (.mk (.identifier "modules") s.token.start t.lastStop []) t := by
    unfold identifier
    simp only [bind_token, h.kind, bind_of_ok ht]
    rfl
  show bindingIdentifier false s = _
  rw [bindingIdentifier, bind_atWord, Bool.false_and, if_neg Bool.false_ne_true,
    bind_of_ok hidentifier, bind_scope]
  obtain ⟨_, _, _, _, _, _, ⟨reserving⟩⟩ := t
  obtain rfl : reserving = {} := hahead.sloppy
  rfl

/-- a declaration whose value stops -/
theorem stopsAt_variableList (h : StopsAt (deeper g).assignment k ks) :
    StopsAt (variableList (deeper g) false) (.word "var")
      (.word "modules" :: .symbol .assign :: k :: ks) := by
  intro s hs
  obtain ⟨t, ht, hname⟩ := hs.advance
  have hword : propertyWord s = .ok "var" t := by
    rw [propertyWord, bind_token, hs.kind]
    show (advance >>= fun _ => Pure.pure "var") s = _
    rw [bind_of_ok ht]
    rfl
  have hdeclarator : StopsAt (declarator (deeper g) false "var") (.word "modules")
      (.symbol .assign :: k :: ks) := by
    intro u hu
    obtain ⟨n, v, hv, hassign⟩ := bindingPattern_modules (g := g) hu
    obtain ⟨w, hw, hahead⟩ := hassign.eat
    rw [declarator, bind_token]
    refine .after hv ?_
    rw [bind_atWord, bind_atWord, Bool.false_and, if_neg Bool.false_ne_true]
    exact .after hw (.bind (h w hahead))
  rw [variableList, bind_token]
  refine .after hword (.bind (.iterate ?_))
  rw [if_neg Bool.false_ne_true, bind_atSymbol, hname.kind]
  refine .bind (.within (hdeclarator _ (hname.congr rfl rfl hname.sloppy)))

/-! ## statements at the top -/

theorem stopsAt_nestedStatement_var (h : StopsAt (deeper g).assignment k ks) :
    StopsAt (nestedStatement (deeper g) true) (.word "var")
      (.word "modules" :: .symbol .assign :: k :: ks) := by
  intro s hs
  have hstep : nestedStatement (deeper g) true s = variableList (deeper g) false s := by
    obtain ⟨_, ⟨kind⟩⟩ := s
    obtain rfl : kind = .word "var" := hs.kind
    rfl
  rw [hstep]
  exact stopsAt_variableList h s hs

theorem stopsAt_moduleItem (h : StopsAt g.assignment (.symbol .lparen) ks) :
    StopsAt (moduleItem g) (.symbol .lparen) ks := by
  intro s hs
  have hstep : moduleItem g s = expressionStatement g s.token.start s := by
    obtain ⟨_, ⟨kind⟩⟩ := s
    obtain rfl : kind = .symbol .lparen := hs.kind
    rfl
  rw [hstep, expressionStatement]
  exact .bind (stopsAt_includingIn (stopsAt_expression h) s hs)

theorem stopsAt_program (h : StopsAt g.assignment (.symbol .lparen) ks) :
    StopsAt (program g) (.symbol .lparen) ks := by
  intro s hs
  refine .bind (.within (.bind (.iterate ?_)))
  simp only [bind_token, hs.kind]
  exact .bind (stopsAt_moduleItem h s hs)

end Bindle.Script.Grammar
