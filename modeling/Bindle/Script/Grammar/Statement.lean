import Bindle.Script.Grammar.Expression

/-!
# Statements

`nestedStatement` reads one statement.  Where declarations are not allowed, a function or a class is
noted as a fault and read all the same.
-/

namespace Bindle.Script.Grammar

open Parse

/-- object literals with initializers are noted when their expression is complete -/
def checkExpression (n : Node) : Parse Unit := do
  for offset in n.strayInitializers do
    report .initializerInObject offset

def loopScope (c : Scope) : Scope := { c with breakAllowed := true, continueAllowed := true }

/-- an expression between parentheses -/
def condition (g : Grammar) : Parse Node := do
  expect .lparen
  let e ← includingIn true (expression g)
  expect .rparen
  return e

/-! ## declarations -/

/-- a token after which `let` is a declaration -/
def followsLet (k : Token.Kind) : Bool :=
  match k with
  | .word name => name == "let" || name == "yield" || name == "await" || !keywords.contains name
  | .symbol .lbracket | .symbol .lbrace => true
  | _ => false

def declarator (g : Grammar) (forHead : Bool) (word : String) : Parse Node := do
  let start := (← token).start
  let name ← g.binding (word != "var")
  if forHead && ((← atWord "in") || (← atWord "of")) then node .declarator start [name]
  else if ← eat .assign then
    let value ← g.assignment
    checkExpression value
    node .declarator start [name, value]
  else
    if word == "const" then report .constWithoutValue start
    else if !name.isIdentifier then report .patternWithoutValue start
    node .declarator start [name]

/-- skips what cannot belong to a declaration, up to a place where a statement may end -/
def skipToEnd : Parse Unit := do
  let n ← remaining
  let _ ← iterateN n (fun (_ : Unit) => do
    if ← eatEnd then return none
    let _ ← advance
    match (← token).kind with
    | .invalid _ => return none
    | _ => return some ()) ()

def variableList (g : Grammar) (forHead : Bool) : Parse Node := do
  let start := (← token).start
  let word ← propertyWord
  let widen : Scope → Scope := fun c => if word == "var" && forHead then c
    else { c with includeIn := true }
  let found ← iterate (fun (acc : List Node × Bool) => do
    if acc.2 then return none
    if ← atSymbol .semicolon then
      report .trailingComma (← lastStart)
      return none
    let d ← within widen (declarator g forHead word)
    return some (d :: acc.1, !(← eat .comma))) ([], false)
  if !forHead then
    if !(← eatEnd) then
      report .missingSemicolon (← token).start
      let _ ← attempt (expression g)
      skipToEnd
  node .variableList start found.1.reverse

/-- `using` declarations are read, and noted as not available -/
def usingDeclaration (g : Grammar) (start : Nat) : Parse Node := do
  let _ ← advance
  let found ← iterate (fun (acc : List Node × Bool) => do
    if acc.2 then return none
    let d ← declarator g false "var"
    return some (d :: acc.1, !(← eat .comma))) ([], false)
  report .usingDeclaration start
  node .variableList start found.1.reverse

/-! ## single statements -/

def jump (start : Nat) (isBreak : Bool) : Parse Node := do
  let _ ← advance
  let label ← if ← eatEnd then pure none else do
      let id ← reference
      expectEnd
      pure (some id)
  let s ← get
  let known := match label.map Node.kind with
    | some (.identifier name) => s.labels.contains name
    | _ => true
  if isBreak then
    if !known then report .breakWithoutLabel start
    else if !s.scope.breakAllowed then report .breakOutside start
  else if !s.scope.continueAllowed then report .continueOutside start
  else if !known then report .continueAcrossFunction start
  node .jump start []

def returnStatement (g : Grammar) (start : Nat) : Parse Node := do
  let _ ← advance
  let value ← if ← atEnd then pure [] else do pure [← includingIn true (expression g)]
  expectEnd
  if !(← scope).inFunction then report .returnOutside start
  node .jump start value

def throwStatement (g : Grammar) (start : Nat) : Parse Node := do
  let _ ← advance
  if ← afterNewline then failHere .lineBreakAfterThrow
  let value ← includingIn true (expression g)
  expectEnd
  node .jump start [value]

def ifStatement (g : Grammar) (start : Nat) : Parse Node := do
  let _ ← advance
  let test ← condition g
  let yes ← g.statement false
  let no ← if ← eatWord "else" then do pure [← g.statement false] else pure []
  node .conditionalStatement start (test :: yes :: no)

/-- the walk visits the test of this loop before its body -/
def doStatement (g : Grammar) (start : Nat) : Parse Node := do
  let _ ← advance
  let body ← within loopScope (g.statement false)
  expectWord "while"
  let test ← condition g
  let _ ← eatEnd
  node .loop start [test, body]

def whileStatement (g : Grammar) (start : Nat) : Parse Node := do
  let _ ← advance
  let test ← condition g
  let body ← within loopScope (g.statement false)
  node .loop start [test, body]

def withStatement (g : Grammar) (start : Nat) : Parse Node := do
  reportStrict .withInStrict start
  let _ ← advance
  let object ← condition g
  let body ← within (fun c => { c with inFunction := true }) (g.statement false)
  node .withStatement start [object, body]

def switchStatement (g : Grammar) (start : Nat) : Parse Node := do
  let _ ← advance
  let value ← condition g
  expect .lbrace
  let cases ← within (fun c => { c with breakAllowed := true }) do
    iterate (fun (acc : List Node × Bool) => do
      let t ← token
      let isCase := t.kind == .word "case"
      if !isCase && t.kind != .word "default" then return none
      let _ ← advance
      let test ← if isCase then do pure [← includingIn true (expression g)]
        else do
          if acc.2 then failHere .severalDefaults
          pure []
      expect .colon
      let items ← iterate (fun (items : List Node) => do
        if (← atWord "case") || (← atWord "default") || (← atSymbol .rbrace) then return none
        return some ((← g.statement true) :: items)) []
      return some ((← node .case t.start (test ++ items.reverse)) :: acc.1, acc.2 || !isCase))
      ([], false)
  expect .rbrace
  node .switch start (value :: cases.1.reverse)

def catchClause (g : Grammar) : Parse (List Node) := do
  let start := (← token).start
  if ← eatWord "catch" then
    let param ← if ← eat .lparen then do
        let p ← g.binding false
        expect .rparen
        pure [p]
      else pure []
    let body ← block g false
    return [← node .catchClause start (param ++ [body])]
  else return []

def finallyBlock (g : Grammar) : Parse (List Node) := do
  if ← eatWord "finally" then return [← block g false] else return []

def tryStatement (g : Grammar) (start : Nat) : Parse Node := do
  let _ ← advance
  let body ← block g false
  let after := (← token).start
  let handler ← catchClause g
  let finalizer ← finallyBlock g
  if handler.isEmpty && finalizer.isEmpty then report .missingSemicolon after
  node .tryStatement start (body :: handler ++ finalizer)

/-- a handler without a `try` is noted and read -/
def strayHandler (g : Grammar) (start : Nat) : Parse Node := do
  report .missingSemicolon start
  let _ ← attempt (catchClause g)
  let _ ← attempt (finallyBlock g)
  node .empty start []

/-! ## `for` -/

inductive ForHead where
  | plain (parts : List Node)
  | each (isOf : Bool) (left right : Node)

/-- from the word `of` or `in` on -/
def eachHead (g : Grammar) (left : Node) : Parse ForHead := do
  let word ← propertyWord
  if word == "of" then return .each true left (← includingIn true g.assignment)
  else return .each false left (← includingIn true (expression g))

/-- test and update of a loop that counts -/
def plainHead (g : Grammar) (init : List Node) : Parse ForHead := do
  let test ← if ← eat .semicolon then pure [] else do
      let e ← includingIn true (expression g)
      expect .semicolon
      pure [e]
  let update ← if ← atSymbol .rparen then pure []
    else do pure [← includingIn true (expression g)]
  return .plain (init ++ test ++ update)

def atEach : Parse Bool := do return (← atWord "of") || (← atWord "in")

def checkEach (declaration : Node) : Parse Unit := do
  match declaration.parts with
  | [only] =>
    match only.parts with
    | name :: _ :: _ =>
      if (← scope).strict || (← atWord "of") then report .valueInForHead name.start
    | _ => pure ()
  | _ =>
    for d in declaration.parts.drop 1 do
      report .severalInForHead ((d.parts.head?.map Node.start).getD d.start)

def forHead (g : Grammar) (isAwait : Bool) : Parse ForHead := do
  let letFollows ← if ← atWord "let" then do pure (followsLet (← peek).kind) else pure false
  if (← atWord "const") || (← atWord "var") || letFollows then
    let declaration ← variableList g true
    if ← atEach then
      checkEach declaration
      eachHead g declaration
    else
      expect .semicolon
      plainHead g [declaration]
  else if ← eat .semicolon then plainHead g []
  else
    let init ← within (fun c => { c with includeIn := false, inForHead := true,
                                         inForAwaitHead := isAwait }) (expression g)
    if ← atEach then
      let left ← asPattern .assignment init
      eachHead g left
    else
      expect .semicolon
      checkExpression init
      plainHead g [init]

def forStatement (g : Grammar) (start : Nat) : Parse Node := do
  let _ ← advance
  let awaitStart := (← token).start
  let isAwait ← eatWord "await"
  expect .lparen
  let head ← forHead g isAwait
  expect .rparen
  let body ← within loopScope (g.statement false)
  match head with
  | .plain parts => do
    if isAwait then fail .forAwait awaitStart
    node .loop start (parts ++ [body])
  | .each isOf left right => do
    if isAwait && !isOf then fail .forAwait awaitStart
    node .loop start [left, right, body]

/-! ## statements that begin with an expression -/

def dropFirst (name : String) : List String → List String
  | [] => []
  | l :: ls => if l == name then ls else l :: dropFirst name ls

/-- after the colon of a label -/
def labelled (g : Grammar) (name : String) (start : Nat) : Parse Node :=
  within (fun c => { c with breakAllowed := true }) do
    let duplicates := (← get).labels.filter (· == name)
    modify (fun s => { s with labels := name :: s.labels })
    let bodyStart := (← token).start
    let body ← if ← atWord "function" then do
        let f ← functionFrom g bodyStart false false true
        if (← scope).strict then report .labelledFunctionInStrict f.start
        if f.kind = .function true then report .labelledGenerator f.start
        pure f
      else g.statement false
    for _ in duplicates do
      report (.duplicateLabel name) start
    modify (fun s => { s with labels := dropFirst name s.labels })
    node .labelled start [body]

def expressionStatement (g : Grammar) (start : Nat) : Parse Node := do
  let e ← includingIn true (expression g)
  match e.kind with
  | .identifier name =>
    if ← eat .colon then return ← labelled g name start
  | _ => checkExpression e
  if ← eatEnd then node .expression start [e]
  else if ← atBinarySymbol then
    report .missingSemicolon (← token).start
    let e ← g.binary e 0
    node .expression start [e]
  else failHere .expectedSemicolon

/-- the token after the current one is a name on the same line, as `using` needs it -/
def nameFollows : Parse Bool := do
  let next ← peek
  match next.kind with
  | .word name => return !next.newline && !(← scope).reserves name
  | _ => return false

/-- an asynchronous function begins at the current token -/
def atAsyncFunction : Parse Bool := do
  if ← atWord "async" then
    let next ← peek
    return next.kind == .word "function" && !next.newline
  else return false

def functionDeclaration (g : Grammar) (start : Nat) (nameNeeded : Bool) : Parse Node := do
  let isAsync ← eatWord "async"
  functionFrom g start isAsync false nameNeeded

/-- a statement that is no import or export -/
def plainStatement (g : Grammar) (declarations : Bool) : Parse Node := do
  refuseInvalid
  let t ← token
  let start := t.start
  let general : Parse Node := do
    if ← atAsyncFunction then functionDeclaration g start true else expressionStatement g start
  match t.kind with
  | .symbol .lbrace => block g false
  | .symbol .semicolon => do
    let _ ← advance
    node .empty start []
  | .word word =>
    match word with
    | "break" => jump start true
    | "continue" => jump start false
    | "debugger" => do
      let _ ← advance
      expectEnd
      node .jump start []
    | "do" => doStatement g start
    | "for" => forStatement g start
    | "function" => do
      if !declarations then report .declarationNotAllowed start
      functionFrom g start false false true
    | "class" => do
      if !declarations then report .declarationNotAllowed start
      classFrom g start true
    | "if" => ifStatement g start
    | "return" => returnStatement g start
    | "switch" => switchStatement g start
    | "throw" => throwStatement g start
    | "catch" => strayHandler g start
    | "finally" => strayHandler g start
    | "try" => tryStatement g start
    | "with" => withStatement g start
    | "while" => whileStatement g start
    | "var" => variableList g false
    | "const" => if declarations then variableList g false else general
    | "let" => do
      if declarations && followsLet (← peek).kind then variableList g false else general
    | "using" => do
      if declarations && (← nameFollows) then usingDeclaration g start else general
    | _ => general
  | _ => general

/-- a statement inside another one, where modules neither import nor export -/
def nestedStatement (g : Grammar) (declarations : Bool) : Parse Node := do
  let start := (← token).start
  if ← atWord "import" then
    let next := (← peek).kind
    if next == .symbol .lparen || next == .symbol .dot then
      let e ← includingIn true (expression g)
      let _ ← eatEnd
      node .expression start [e]
    else failHere .importOutsideModule
  else if ← atWord "export" then failHere .importOutsideModule
  else plainStatement g declarations

end Bindle.Script.Grammar
