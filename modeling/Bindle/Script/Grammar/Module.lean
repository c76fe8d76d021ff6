import Bindle.Script.Grammar.Statement

/-!
# Modules, and the whole grammar

* `importDeclaration`, `exportDeclaration`   what only modules hold;
* `ofDepth n`                                the grammar for scripts nested up to `n` deep;
* `program`                                  a script or module as a whole.
-/

namespace Bindle.Script.Grammar

open Parse

/-- names on both sides of `as`; `true` for a string -/
def exportName : Parse (Node × Bool) := do
  let t ← token
  match t.kind with
  | .string raw => do
    let _ ← advance
    return (← node (.string raw) t.start [], true)
  | .word name => do
    let _ ← advance
    return (← node (.key name) t.start [], false)
  | _ => unexpected "identifier or string"

def importedBinding : Parse Node :=
  within (fun c => { c with inAsync := false, inGenerator := false }) (bindingIdentifier false)

/-- the text between the quotes of a string -/
def quotedText (raw : String) : String := String.ofList (raw.toList.tail.dropLast)

def importSpecifier : Parse Node := do
  let (name, _) ← exportName
  if ← eatWord "as" then importedBinding
  else match name.kind with
    | .string raw => fail (.importedString (quotedText raw)) name.start
    | .key word => do
      if (← scope).reservesShorthand word then fail .reservedImport name.start
      if Node.isRestrictedName word then reportStrict .strictBinding name.start
      return name
    | _ => return name

/-- a list between braces whose items commas part -/
def specifiers (item : Parse Node) : Parse (List Node) := do
  let found ← iterate (fun (acc : List Node) => do
    if ← atSymbol .rbrace then return none
    let n ← item
    if !(← atSymbol .rbrace) then expect .comma
    return some (n :: acc)) []
  expect .rbrace
  return found.reverse

/-- the attributes that may follow the name of a module, and the end of the statement -/
def attributesAndEnd (g : Grammar) : Parse (List Node) := do
  let attributes ←
    if !(← afterNewline) && ((← atWord "with") || (← atWord "assert")) then do
      let _ ← advance
      pure [← objectLiteral g]
    else pure []
  expectEnd
  return attributes

def fromClause (g : Grammar) : Parse (List Node) := do
  expectWord "from"
  refuseInvalid
  if ← atString then
    let _ ← advance
    attributesAndEnd g
  else unexpected "a string literal"

/-- a default import, or the phase of an import before it -/
def defaultImport : Parse (List Node × Bool) := do
  let name ← importedBinding
  let isPhase := name.kind = .identifier "source" || name.kind = .identifier "defer"
  if isPhase && (← atSymbol .star) then return ([], true)
  let name ←
    if isPhase && (← atWord "from") && (← peek).kind == .word "from" then importedBinding
    else if isPhase && (← atName) && !(← atWord "from") then importedBinding
    else pure name
  if ← atWord "from" then return ([name], false)
  else
    expect .comma
    return ([name], true)

def importDeclaration (g : Grammar) (start : Nat) : Parse Node := do
  becomeModule
  expectWord "import"
  if ← atString then
    let _ ← advance
    let attributes ← attributesAndEnd g
    node .importDeclaration start attributes
  else
    let (first, more) ← if ← atName then defaultImport else pure ([], true)
    let others ← if !more then pure [] else do
        if ← eat .star then
          expectWord "as"
          pure [← importedBinding]
        else if ← eat .lbrace then specifiers importSpecifier
        else pure []
    let attributes ← fromClause g
    node .importDeclaration start (first ++ others ++ attributes)

/-- an exported name, and whether it is a string -/
def exportSpecifier : Parse Node := do
  let (name, _) ← exportName
  if ← eatWord "as" then
    let (other, _) ← exportName
    node .keyed name.start [name, other]
  else return name

def exportedStrings (n : Node) : List Nat :=
  match n.kind, n.parts with
  | .string _, _ => [n.start]
  | .keyed, name :: _ =>
    match name.kind with
    | .string _ => [name.start]
    | _ => []
  | _, _ => []

def exportDefault (g : Grammar) (start : Nat) : Parse Node := do
  let valueStart := (← token).start
  if ← atWord "class" then
    let c ← classFrom g valueStart false
    node .exportDeclaration start [c]
  else if (← atWord "function") || (← atAsyncFunction) then
    let f ← functionDeclaration g valueStart false
    node .exportDeclaration start [f]
  else
    let e ← includingIn true g.assignment
    expectEnd
    node .exportDeclaration start [e]

def exportList (g : Grammar) (start : Nat) : Parse Node := do
  expect .lbrace
  let names ← specifiers exportSpecifier
  let attributes ← if ← atWord "from" then fromClause g else do
      for offset in names.flatMap exportedStrings do
        report .exportedString offset
      expectEnd
      pure []
  node .exportDeclaration start (names ++ attributes)

def exportDeclaration (g : Grammar) (start : Nat) : Parse Node := do
  becomeModule
  expectWord "export"
  refuseInvalid
  let t ← token
  if t.kind == .eof then failHere .unexpectedEnd
  if ← eat .star then
    if ← eatWord "as" then
      let _ ← exportName
    let attributes ← fromClause g
    node .exportDeclaration start attributes
  else if ← eatWord "default" then exportDefault g start
  else if ← atWord "class" then
    let c ← classFrom g t.start true
    node .exportDeclaration start [c]
  else if (← atWord "function") || (← atAsyncFunction) then
    let f ← functionDeclaration g t.start true
    node .exportDeclaration start [f]
  else
    let letFollows ← if ← atWord "let" then do pure (followsLet (← peek).kind) else pure false
    if (← atWord "var") || (← atWord "const") || letFollows then
      let v ← variableList g false
      node .exportDeclaration start [v]
    else exportList g start

/-- a statement, import or export at the outermost level -/
def moduleItem (g : Grammar) : Parse Node := do
  let t ← token
  match t.kind with
  | .word "import" => do
    let next := (← peek).kind
    if next == .symbol .lparen || next == .symbol .dot then
      let e ← includingIn true (expression g)
      let _ ← eatEnd
      node .expression t.start [e]
    else importDeclaration g t.start
  | .word "export" => exportDeclaration g t.start
  | .word "await" => do
    sawModule
    plainStatement g true
  | _ => plainStatement g true

/-! ## the whole grammar -/

/-- the grammar of nothing -/
def stuck : Grammar where
  assignment := failHere .nestedTooDeep
  unary := failHere .nestedTooDeep
  member := failHere .nestedTooDeep
  leftHand := failHere .nestedTooDeep
  binary := fun _ _ => failHere .nestedTooDeep
  binding := fun _ => failHere .nestedTooDeep
  statement := fun _ => failHere .nestedTooDeep

/-- one more level of nesting -/
def deeper (g : Grammar) : Grammar where
  assignment := assignmentExpression g
  unary := unaryExpression g
  member := memberOrNew g
  leftHand := leftHandSide g
  binary := binaryFrom g
  binding := bindingPattern g
  statement := nestedStatement g

def ofDepth : Nat → Grammar
  | 0 => stuck
  | n + 1 => deeper (ofDepth n)

/-- at the end it is known whether the script is a module, and what counts in modules counts -/
def program (g : Grammar) : Parse Node := do
  let items ← blockBody (moduleItem g) none true
  let isModule := (← get).isModule ||
    items.any (fun n => n.kind = .importDeclaration || n.kind = .exportDeclaration)
  if isModule then becomeModule
  node .program 0 items

end Bindle.Script.Grammar
