import Bindle.Script.Grammar.Function

/-!
# Expressions

From the inside out: primaries, calls and members, unary and binary operators, the conditional,
assignments, sequences.

A list in parentheses may be the head of an arrow function, which shows only behind it; it is read
as expressions, which become patterns when an arrow follows (`parenthesesOrArrow`).
-/

namespace Bindle.Script.Grammar

open Parse

def expression (g : Grammar) : Parse Node := do
  let first ← g.assignment
  if ← atSymbol .comma then
    let all ← iterate (fun (acc : List Node) => do
      if ← eat .comma then return some ((← g.assignment) :: acc) else return none) [first]
    node .sequence first.start all.reverse
  else return first

def spreadOrExpression (g : Grammar) : Parse Node := do
  let start := (← token).start
  if ← eat .ellipsis then
    let inner ← includingIn true g.assignment
    node .spread start [inner]
  else g.assignment

def arguments (g : Grammar) : Parse (List Node) := do
  expect .lparen
  let found ← iterate (fun (acc : List Node) => do
    if ← atSymbol .rparen then return none
    if !acc.isEmpty then
      expect .comma
      if ← atSymbol .rparen then return none
    return some ((← includingIn true (spreadOrExpression g)) :: acc)) []
  expect .rparen
  return found.reverse

/-! ## primaries -/

/-- puts the characters of the current token back, for it to be read in another way -/
def rescan (text : String) (read : Cursor → Scan) : Parse Unit := do
  let s ← get
  let back : Cursor :=
    ⟨text.toList ++ s.cursor.rest, s.cursor.offset - text.toList.length⟩
  let scanned := read back
  place (scanned.toReading s.token.start s.token.newline [])

def checkFlags (flags : List Char) (start : Nat) : Parse Unit := do
  if flags.any (fun f => !("gimsuydv".toList.contains f)) then report .unknownRegexFlags start
  match flags.find? (fun f => flags.count f > 1) with
  | some f => report (.duplicateRegexFlag f) start
  | none => pure ()

/-- the current token is a slash, alone or with an equals sign -/
def regularExpression (opening : Symbol) : Parse Node := do
  rescan opening.text readRegex
  refuseInvalid
  let t ← advance
  match t.kind with
  | .regex flags => checkFlags flags.toList t.start
  | _ => pure ()
  node .regex t.start []

/-- the substitutions of a template whose first token is the current one -/
def templateParts (g : Grammar) (tagged : Bool) : Parse (List Node) := do
  let check (bad : Option Fault) : Parse Unit :=
    match bad with
    | some fault => if tagged then pure () else throw fault
    | none => pure ()
  let step (acc : List Node × Bool) : Parse (Option (List Node × Bool)) := do
    if acc.2 then return none
    refuseInvalid
    match (← token).kind with
    | .template part bad => do
      check bad
      let _ ← advance
      if part = .whole || part = .tail then return some (acc.1, true)
      let e ← includingIn true (expression g)
      if !(← atSymbol .rbrace) then unexpected "`\x7d`"
      rescan "\x7d" (readTemplate · false)
      return some (e :: acc.1, false)
    | _ => unexpected "`\x7d`"
  let found ← iterate step ([], false)
  return found.1.reverse

def template (g : Grammar) (start : Nat) : Parse Node := do
  let parts ← templateParts g false
  node .template start parts

def arrayLiteral (g : Grammar) : Parse Node := do
  let start := (← token).start
  expect .lbracket
  let found ← iterate (fun (acc : List Node) => do
    if ← atSymbol .rbracket then return none
    if ← atSymbol .comma then
      let t ← advance
      return some (.mk .hole t.start t.start [] :: acc)
    let e ← includingIn true (spreadOrExpression g)
    if !(← atSymbol .rbracket) then
      expect .comma
      if ← atSymbol .rbracket then
        let comma ← lastStart
        modify (fun s => { s with trailingCommas := (start, comma) :: s.trailingCommas })
    return some (e :: acc)) []
  expect .rbracket
  node .array start found.reverse

/-- the items of a list in parentheses, and the place of a comma after the last one -/
def parenthesized (g : Grammar) : Parse (List Node × Option Nat) := do
  expect .lparen
  let found ← iterate (fun (acc : List Node × Option Nat) => do
    if ← atSymbol .rparen then return none
    let e ← includingIn true (spreadOrExpression g)
    if ← atSymbol .rparen then return some (e :: acc.1, none)
    expect .comma
    if ← atSymbol .rparen then return some (e :: acc.1, some (← lastStart))
    return some (e :: acc.1, none)) ([], none)
  expect .rparen
  return (found.1.reverse, found.2)

/-- the items as parameters of an arrow function -/
def asParameters (comma : Option Nat) : List Node → Parse (List Node)
  | [] => pure []
  | n :: ns => do
    match n.kind, n.parts, ns.isEmpty with
    | .spread, [_], false => do
      report .restParameterNotLast n.start
      asParameters comma ns
    | .spread, [inner], true => do
      match inner.kind with
      | .assignment _ => report .restInitializer n.start
      | _ => pure ()
      match comma with
      | some offset => report .commaAfterRest offset
      | none => pure ()
      let p ← asPattern .binding inner
      return [.mk .rest n.start n.stop [p]]
    | _, _, _ => do
      let p ← asPattern .binding n
      return p :: (← asParameters comma ns)

/-- `name = value` directly in an object in parentheses needs an arrow behind them -/
def checkInitializers : List Node → Parse Unit
  | [] => pure ()
  | n :: ns => do
    if n.kind = .object then
      for p in n.parts do
        match p.kind with
        | .initialized _ => report .initializerInObject p.start
        | _ => pure ()
    checkInitializers ns

/-- an operator between two operands other than `in` and `instanceof` -/
def atBinarySymbol : Parse Bool := do
  match (← token).kind with
  | .symbol x => return x.precedence?.isSome
  | _ => return false

/-- from the arrow on -/
def arrowFrom (g : Grammar) (start : Nat) (isAsync : Bool) (params : List Node) : Parse Node := do
  let body ← arrowBody g isAsync params
  node (.arrow (body.kind = .block)) start (params ++ [body])

/-- an arrow function behind the items of its parameters -/
def parenthesizedArrow (g : Grammar) (canBeArrow : Bool) (start : Nat) (isAsync : Bool)
    (items : List Node) (comma : Option Nat) : Parse Node := do
  if ← afterNewline then fail .lineBreakBeforeArrow start
  if !canBeArrow then fail .arrowNotAllowed start
  expect .arrow
  let params ← asParameters comma items
  if (← scope).strict then checkNamesOf params
  let arrow ← arrowFrom g start isAsync params
  if arrow.kind = .arrow true && (← atBinarySymbol) then
    report .missingSemicolon (← token).start
    let e ← g.binary arrow 0
    if !(← atEnd) then report .missingSemicolon (← token).start
    return e
  else return arrow

/-- items in parentheses as an expression: one, or a sequence -/
def grouping (start : Nat) (items : List Node) (comma : Option Nat) : Parse Node :=
  match items with
  | [] => fail .emptyParentheses start
  | [only] =>
    match only.kind, only.parts with
    | .spread, inner :: _ => fail .spreadInParentheses inner.start
    | _, _ => do
      match comma with
      | some offset => report .trailingComma offset
      | none => pure ()
      node .parenthesized start [only]
  | _ =>
    match items.find? (·.kind = .spread) with
    | some spread => fail .spreadInParentheses ((spread.parts.head?.map Node.start).getD start)
    | none => do
      match comma with
      | some offset => report .trailingComma offset
      | none => pure ()
      let inner := Node.mk .sequence ((items.head?.map Node.start).getD start)
        ((items.getLast?.map Node.stop).getD start) items
      node .parenthesized start [inner]

/-- a list in parentheses: grouping, arguments of a call to `async`, or the head of an arrow -/
def parenthesesOrArrow (g : Grammar) (canBeArrow : Bool) (asyncStart : Option Nat) :
    Parse Node := do
  let start := asyncStart.getD (← token).start
  let (items, comma) ← parenthesized g
  if ← atSymbol .arrow then
    parenthesizedArrow g canBeArrow start asyncStart.isSome items comma
  else
    checkInitializers items
    if asyncStart.isSome then
      node .call start (.mk (.identifier "async") start (start + 5) [] :: items)
    else grouping start items comma

/-- a variable, or an arrow function with one parameter in no parentheses -/
def nameOrArrow (g : Grammar) (canBeArrow : Bool) : Parse Node := do
  let id ← reference
  if canBeArrow && id.kind = .identifier "async" && !(← afterNewline) && (← atName) then
    let c ← scope
    if c.inForHead && (← atWord "of") && (← peek).kind ≠ .symbol .arrow then
      if !c.inForAwaitHead then report .asyncInForHead (← lastStart)
      return id
    let param ← bindingIdentifier false
    expect .arrow
    arrowFrom g id.start true [param]
  else if canBeArrow && !(← afterNewline) && (← atSymbol .arrow) then
    let _ ← advance
    if (← scope).strict then checkNames id
    arrowFrom g id.start false [id]
  else return id

def primary (g : Grammar) : Parse Node := do
  refuseInvalid
  let t ← token
  let canBeArrow := (← get).arrowStart = some t.start
  match t.kind with
  | .string raw => do
    let _ ← advance
    node (.string raw) t.start []
  | .number _ | .bigint _ => do
    let _ ← advance
    node .number t.start []
  | .template _ _ => template g t.start
  | .symbol .lbracket => arrayLiteral g
  | .symbol .lbrace => objectLiteral g
  | .symbol .lparen => parenthesesOrArrow g canBeArrow none
  | .symbol .slash => regularExpression .slash
  | .symbol .slashAssign => regularExpression .slashAssign
  | .symbol .hash => privateName
  | .word "this" => do
    let _ ← advance
    node .this t.start []
  | .word "null" | .word "true" | .word "false" => do
    let _ ← advance
    node .constant t.start []
  | .word "function" => functionFrom g t.start false true false
  | .word "class" => classFrom g t.start false
  | .word name => do
    let next ← if name == "async" then some <$> peek else pure none
    let following := next.filter (!·.newline) |>.map Token.kind
    if following == some (.word "function") then
      let _ ← advance
      functionFrom g t.start true true false
    else if canBeArrow && following == some (.symbol .lparen) then
      let _ ← advance
      parenthesesOrArrow g canBeArrow (some t.start)
    else if name == "let" || !(← scope).reserves name then nameOrArrow g canBeArrow
    else failHere .expectedExpression
  | _ => failHere .expectedExpression

/-! ## calls and members -/

def isSuperOrImport (n : Node) : Bool := n.kind = .superReference || n.kind = .importReference

/-- a member of an object whose property has just been read -/
def memberOf (object prop : Node) (dotted : Bool) (noCall : Bool) : Parse Node := do
  if object.kind = .superReference then
    if !(← scope).superAllowed then fail .superOutside object.start
    else if dotted then fail (if noCall then .superCall else .superOutside) object.start
    else match prop.kind with
      | .privateName _ => failHere .superCall
      | _ => node .superMember object.start [object, prop]
  else if dotted || object.kind = .optional then
    let inner ← node .member object.start [object, prop]
    node .optional object.start [inner]
  else node .member object.start [object, prop]

/-- one step behind an operand: a member, a call or a template; none if no such step follows -/
def subscript (g : Grammar) (noCall : Bool) (object : Node) : Parse (Option Node) := do
  let dotted ← eat .optionalChain
  if ← eat .lbracket then
    let start ← lastStart
    let inner ← includingIn true (expression g)
    expect .rbracket
    let prop ← node .computed start [inner]
    return some (← memberOf object prop dotted noCall)
  else if (← atSymbol .lparen) && (dotted || !noCall) then
    let args ← arguments g
    if dotted || object.kind = .optional then
      if isSuperOrImport object then failHere .superOptionalCall
      return some (← node .optional object.start (object :: args))
    else return some (← node .call object.start (object :: args))
  else
    let named ← if dotted then pure true else eat .dot
    if named then
      let prop ← memberName
      return some (← memberOf object prop dotted noCall)
    else if object.kind = .superReference then
      failHere (if noCall then .superCall else .superOutside)
    else if object.kind = .importReference then failHere .importExpression
    else match (← token).kind with
      | .template _ _ => do
        let parts ← templateParts g true
        if object.kind = .optional then report .templateInOptionalChain object.start
        return some (← node .taggedTemplate object.start (object :: parts))
      | _ => return none

def subscripts (g : Grammar) (noCall : Bool) (object : Node) : Parse Node :=
  iterate (subscript g noCall) object

/-- after the word `import` in an expression -/
def importExpression (g : Grammar) (start : Nat) (noCall : Bool) : Parse Node := do
  if ← eat .dot then
    sawModule
    let name ← propertyWord
    if name == "meta" then subscripts g noCall (← node .metaProperty start [])
    else if name == "defer" || name == "source" then
      subscripts g noCall (← node .importReference start [])
    else unexpected "meta"
  else subscripts g noCall (← node .importReference start [])

/-- after the word `new` -/
def newExpression (g : Grammar) (start : Nat) : Parse Node := do
  if ← eat .dot then
    if ← eatWord "target" then
      let c ← scope
      if !c.ownThis && !c.inParameters && !c.inClass then report .newTargetOutside start
      subscripts g true (← node .metaProperty start [])
    else unexpected "target"
  else
    let callee ← g.member
    if callee.kind = .arrow true || callee.kind = .arrow false then return callee
    if callee.kind = .optional then fail .optionalChainInNew callee.start
    if callee.kind = .member && callee.parts.head?.any (·.kind = .optional) then
      fail .optionalChainInNew callee.start
    if ← atSymbol .lparen then
      let args ← arguments g
      subscripts g true (← node (.new true) start (callee :: args))
    else node (.new false) start [callee]

def isArrow (n : Node) : Bool := n.kind = .arrow true || n.kind = .arrow false

/-- a primary with members behind it, or `new` -/
def memberOrNew (g : Grammar) : Parse Node := do
  let start := (← token).start
  if ← eatWord "new" then newExpression g start
  else if ← eatWord "super" then subscripts g true (← node .superReference start [])
  else if ← eatWord "import" then importExpression g start true
  else
    let object ← primary g
    if isArrow object then return object else subscripts g true object

def leftHandSide (g : Grammar) : Parse Node := do
  let start := (← token).start
  if ← eatWord "super" then subscripts g false (← node .superReference start [])
  else if ← eatWord "import" then importExpression g start false
  else
    let callee ← memberOrNew g
    if isArrow callee || callee.kind = .new false then return callee
    else if ← atSymbol .lparen then
      let args ← arguments g
      let kind := if callee.kind = .optional then .optional else .call
      subscripts g false (← node kind start (callee :: args))
    else return callee

/-! ## operators -/

/-- after the word `await` -/
def awaitFrom (g : Grammar) (start : Nat) : Parse Node := do
  if ← atSymbol .star then failHere .awaitStar
  let c ← scope
  if ((← atSymbol .rparen) || (← atSymbol .rbracket)) && !c.inAsync then
    if c.inModule then report .awaitAsIdentifier start
    node (.identifier "await") start []
  else
    if c.inFunction && !c.inAsync then report .awaitInFunction start
    if c.inParameters && !c.inFunction then report .awaitInParameters start
    if !c.inFunction then sawModule
    let inner ← g.unary
    node .await start [inner]

/-- an operand that is missing is noted, and a stand-in takes its place -/
def operandOrInvalid (g : Grammar) (start : Nat) : Parse Node := do
  match ← attempt g.unary with
  | .ok n => return n
  | .error fault => do
    report fault.complaint fault.offset
    return .mk .invalid start start []

def unaryOperator? (k : Token.Kind) : Option Bool :=
  match k with
  | .word "delete" => some true
  | .word "void" | .word "typeof" => some false
  | .symbol .plus | .symbol .minus | .symbol .tilde | .symbol .bang => some false
  | _ => none

def unaryExpression (g : Grammar) : Parse Node := do
  let t ← token
  if t.kind == .symbol .increment || t.kind == .symbol .decrement then
    let _ ← advance
    let operand ← g.unary
    checkTarget operand
    node .update t.start [operand]
  else match unaryOperator? t.kind with
    | some isDelete => do
      let _ ← advance
      let operand ← operandOrInvalid g ((← token).start - 1)
      if isDelete && operand.isIdentifier then reportStrict .strictDelete operand.start
      node (.unary isDelete) t.start [operand]
    | none =>
      if ← eatWord "await" then awaitFrom g t.start
      else
        let e ← leftHandSide g
        if isArrow e || (← afterNewline) then return e
        else if (← atSymbol .increment) || (← atSymbol .decrement) then
          checkTarget e
          let _ ← advance
          node .update e.start [e]
        else return e

def isLogical (n : Node) : Bool :=
  n.kind = .binary (some .logicalAnd) || n.kind = .binary (some .logicalOr)

/-- the operator at the current token, as far as it is one here, and its precedence -/
def operator? : Parse (Option (Option Symbol × Nat)) := do
  match (← token).kind with
  | .symbol x => return x.precedence?.map (fun p => (some x, p))
  | .word "instanceof" => return some (none, Symbol.relationalPrecedence)
  | .word "in" =>
    if (← scope).includeIn then return some (none, Symbol.relationalPrecedence) else return none
  | _ => return none

/-- `??` does not mix with `&&` and `||` unless parentheses part them -/
def checkNullish (op : Option Symbol) (left right : Node) : Parse Unit := do
  if op = some .nullish then
    if isLogical left then report .mixedNullish left.start
    if isLogical right then report .mixedNullish right.start
  if (op = some .logicalAnd || op = some .logicalOr) && left.kind = .binary (some .nullish) then
    report .mixedNullish left.start

/-- one operator that binds tighter than `least`, with its right operand -/
def binaryStep (g : Grammar) (least : Nat) (left : Node) : Parse (Option Node) := do
  match ← operator? with
  | none => return none
  | some (op, precedence) =>
    if precedence ≤ least then return none
    else
      let _ ← advance
      let isUnary := left.kind = .unary true || left.kind = .unary false || left.kind = .await
      if isUnary && op = some .power then failHere .powerOfUnary
      let operand ← g.unary
      let right ← g.binary operand (if op = some .power then precedence - 1 else precedence)
      checkNullish op left right
      return some (.mk (.binary op) left.start right.stop [left, right])

def binaryFrom (g : Grammar) (left : Node) (least : Nat) : Parse Node :=
  iterate (binaryStep g least) left

/-- an operator without a left operand is noted and read on from -/
def binaryExpression (g : Grammar) : Parse Node := do
  let left ← match ← attempt g.unary with
    | .ok n => pure n
    | .error fault => do
      if (← operator?).isSome then
        report .expectedExpression (← token).start
        pure (.mk .invalid fault.offset fault.offset [])
      else throw fault
  if isArrow left then return left else g.binary left 0

def conditional (g : Grammar) : Parse Node := do
  let test ← binaryExpression g
  if isArrow test then return test
  else if ← eat .question then
    let yes ← includingIn true g.assignment
    expect .colon
    let no ← g.assignment
    node .conditional test.start [test, yes, no]
  else return test

/-- a token that can begin the operand of `yield` -/
def beginsOperand (k : Token.Kind) : Bool :=
  match k with
  | .word name =>
    ["await", "class", "delete", "function", "import", "new", "null", "super", "this", "true",
     "false", "typeof", "void", "let", "yield"].contains name || !keywords.contains name
  | .string _ | .number _ | .bigint _ | .template _ _ => true
  | .symbol x =>
    [.lparen, .lbracket, .lbrace, .bang, .tilde, .plus, .minus, .increment, .decrement, .hash,
     .slash, .slashAssign, .star].contains x
  | _ => false

def yieldExpression (g : Grammar) : Parse Node := do
  let start := (← token).start
  let _ ← advance
  let c ← scope
  if c.inParameters && !c.inFunction then fail .yieldInParameters start
  if (← atEnd) || !beginsOperand (← token).kind then node .yield start []
  else
    let _ ← eat .star
    let inner ← g.assignment
    node .yield start [inner]

/-- the left side of an assignment -/
def assignmentTarget (left : Node) (plain : Bool) : Parse Node := do
  let target ← if plain then asPattern .assignment left else do
      let c ← scope
      if !left.isTarget c.strict then report .notSimpleTarget left.start
      match left.kind with
      | .identifier name =>
        if Node.isRestrictedName name then reportStrict .strictArguments left.start
      | _ => pure ()
      pure left
  if !target.fitsAssignment then fail .invalidAssignmentTarget target.start
  return target

def isOperatorExpression (n : Node) : Bool :=
  match n.kind with
  | .conditional | .binary _ | .unary _ | .update => true
  | _ => false

/-- a word that is a plain name everywhere -/
def isPlainWord (name : String) : Bool :=
  !(keywords.contains name || name == "let" || name == "await")

def assignmentExpression (g : Grammar) : Parse Node := do
  refuseInvalid
  let t ← token
  if (← scope).inGenerator && t.kind == .word "yield" then yieldExpression g
  else
    let mayBeArrow := match t.kind with
      | .word name => isPlainWord name
      | .symbol .lparen => true
      | _ => false
    modify (fun s => { s with arrowStart := if mayBeArrow then some t.start else none })
    let left ← conditional g
    if isArrow left || isOperatorExpression left then return left
    else match (← token).kind with
      | .symbol x =>
        if x.isAssignment then
          let target ← assignmentTarget left (x == .assign)
          let _ ← advance
          let right ← g.assignment
          node (.assignment (x == .assign)) left.start [target, right]
        else return left
      | _ => return left

end Bindle.Script.Grammar
