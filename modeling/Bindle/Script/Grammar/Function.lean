import Bindle.Script.Grammar.Pattern

/-!
# Blocks, functions, objects and classes

* `blockBody`, `block`             statements up to a closing brace or the end of the text;
* `parameters`, `functionRest`     what follows the name of a function or method;
* `objectLiteral`, `classRest`     members with their keys, values, methods and accessors.
-/

namespace Bindle.Script.Grammar

open Parse

/-- statements up to the closing symbol; a text that ends before it is noted and read as closed -/
def blockBody (item : Parse Node) (closing : Option Symbol) (directives : Bool) :
    Parse (List Node) :=
  within (fun c => c) do
    let items ← iterate (fun (acc : List Node) => do
      let t ← token
      match closing with
      | some x => do
        if t.kind == .symbol x then return none
        if t.kind == .eof then
          report (.expected x.text t.shown) t.start
          return none
      | none => do
        if t.kind == .eof then return none
      let n ← item
      if directives && acc.isEmpty && n.isUseStrict then becomeStrict
      return some (n :: acc)) []
    return items.reverse

def block (g : Grammar) (directives : Bool) : Parse Node := do
  let start := (← token).start
  expect .lbrace
  let items ← blockBody (g.statement true) (some .rbrace) directives
  let _ ← eat .rbrace
  node .block start items

/-! ## functions -/

def parameter (g : Grammar) : Parse Node := do
  let start := (← token).start
  if ← eat .ellipsis then
    let inner ← g.binding false
    if ← eat .assign then
      let _ ← g.assignment
      report .restInitializer inner.start
    node .rest start [inner]
  else bindingElement g

/-- the parameters up to the closing parenthesis, which stays -/
def parameters (g : Grammar) : Parse (List Node) := do
  let found ← iterate (fun (acc : Elements) => do
    if ← atSymbol .rparen then return none
    match acc.2 with
    | some offset => report .restParameterNotLast offset
    | none => pure ()
    let p ← parameter g
    let isRest := p.kind = .rest
    if !(← atSymbol .rparen) then
      expect .comma
      if isRest && (← atSymbol .rparen) then report .commaAfterRest (← lastStart)
    return some (p :: acc.1, if isRest then some p.start else acc.2)) ([], none)
  return found.1.reverse

def isSimple (params : List Node) : Bool := params.all Node.isIdentifier

/-- `use strict` among the directives that begin a body -/
def strictDirective? (body : Node) : Option Node :=
  (body.parts.takeWhile Node.isDirective).find? Node.isUseStrict

def checkDirective (params : List Node) (body : Node) : Parse Unit := do
  if !isSimple params then
    match strictDirective? body with
    | some n => report .directiveNotAllowed n.start
    | none => pure ()

def bodyScope (isAsync isGenerator : Bool) (ownThis : Bool) (c : Scope) : Scope :=
  { c with
    inStaticBlock := false, breakAllowed := false, continueAllowed := false,
    inAsync := isAsync, inGenerator := isGenerator, inFunction := true, inForHead := false,
    ownThis := ownThis || c.ownThis }

def functionBody (g : Grammar) (isAsync isGenerator : Bool) (params : List Node) : Parse Node :=
  apart <| within (bodyScope isAsync isGenerator true) do
    let body ← block g true
    checkDirective params body
    return body

/-- parameters and body; `check` looks at the parameters -/
def functionRest (g : Grammar) (isAsync isGenerator : Bool) (check : List Node → Parse Unit) :
    Parse (List Node) :=
  within (fun c => { c with inAsync := isAsync, inGenerator := isGenerator }) do
    expect .lparen
    let params ← within (fun c => { c with inParameters := true, inFunction := false }) do
      let ps ← parameters g
      check ps
      return ps
    expect .rparen
    let body ← functionBody g isAsync isGenerator params
    return params ++ [body]

/-- from the word `function` on; `start` is where `async` stands, if it does -/
def functionFrom (g : Grammar) (start : Nat) (isAsync isExpression nameNeeded : Bool) :
    Parse Node := do
  expectWord "function"
  let isGenerator ← eat .star
  let naming : Parse (List Node) := do
    if nameNeeded || (← atName) then return [← bindingIdentifier false] else return []
  let name ←
    if isExpression then
      within (fun c => { c with inAsync := isAsync, inGenerator := isGenerator }) naming
    else naming
  let rest ← within (fun c => { c with superAllowed := false, inField := false })
    (functionRest g isAsync isGenerator (fun _ => pure ()))
  node (.function (isAsync || isGenerator)) start (name ++ rest)

/-- the body of an arrow function: a block or an expression -/
def arrowBody (g : Grammar) (isAsync : Bool) (params : List Node) : Parse Node :=
  apart <| within (bodyScope isAsync false false) do
    if ← atSymbol .lbrace then
      let body ← block g false
      checkDirective params body
      return body
    else g.assignment

/-! ## members -/

def checkGetter (key : Nat) (params : List Node) : Parse Unit := do
  if !params.isEmpty then report .getterParameters key

def checkSetter (key : Nat) (params : List Node) : Parse Unit := do
  if params.length ≠ 1 then report .setterParameters key
  match params.head? with
  | some p => if p.kind = .rest then report .restInSetter p.start
  | none => pure ()

def methodScope (c : Scope) : Scope := { c with superAllowed := true, inField := false }

/-- a method after its key -/
def methodRest (g : Grammar) (start : Nat) (key : Node) (isAsync isGenerator : Bool)
    (check : List Node → Parse Unit) : Parse Node := do
  let rest ← within methodScope (functionRest g isAsync isGenerator check)
  node .method start (key :: rest)

/-- an accessor or an asynchronous method, after the word that says which -/
def accessorRest (g : Grammar) (start : Nat) (word : String) : Parse Node := do
  let isGenerator ← if word == "async" then eat .star else pure false
  let key ← propertyName g
  match word with
  | "get" => methodRest g start key false false (checkGetter key.start)
  | "set" => methodRest g start key false false (checkSetter key.start)
  | _ => methodRest g start key true isGenerator (fun _ => pure ())

def objectMember (g : Grammar) : Parse Node := do
  let start := (← token).start
  if ← eat .ellipsis then
    let inner ← includingIn true g.assignment
    node .spread start [inner]
  else if ← eat .star then
    let key ← propertyName g
    methodRest g start key false true (fun _ => pure ())
  else
    let key ← propertyName g
    if ← eat .question then report .optionalMember (← lastStart)
    if ← eat .colon then
      let value ← includingIn true g.assignment
      node .keyed start [key, value]
    else if ← atSymbol .lparen then methodRest g start key false false (fun _ => pure ())
    else match key.kind with
      | .key name => do
        if (← atSymbol .assign) || (← atSymbol .comma) || (← atSymbol .rbrace) then
          if (← scope).reservesShorthand name then report .reservedShorthand key.start
          if ← eat .assign then
            let value ← includingIn true g.assignment
            node (.initialized name) start [value]
          else node (.shorthand name) start []
        else if name == "get" || name == "set" || name == "async" then accessorRest g start name
        else unexpected "... , *,  (, [, :, , ?, = or an identifier"
      | _ => unexpected "identifier"

def objectLiteral (g : Grammar) : Parse Node := do
  let start := (← token).start
  let (members, comma) ← braced (objectMember g)
  match comma with
  | some offset =>
    modify (fun s => { s with trailingCommas := (start, offset) :: s.trailingCommas })
  | none => pure ()
  node .object start members

/-! ## classes -/

def classKey (g : Grammar) : Parse Node := do
  if ← atSymbol .hash then
    let name ← privateName
    match name.kind with
    | .privateName "constructor" => report .privateConstructor name.start
    | _ => pure ()
    return name
  else propertyName g

def isConstructorKey (key : Node) : Bool :=
  match key.kind with
  | .key name => name == "constructor"
  | .string raw => raw == "'constructor'" || raw == "\"constructor\""
  | _ => false

def keyWord? (key : Node) : Option String :=
  match key.kind with
  | .key name => some name
  | _ => none

/-- a field ends here; with `loosely` a line end or a brace is enough -/
def atFieldEnd (loosely : Bool) : Parse Bool := do
  if (← atSymbol .assign) || (← atSymbol .rbrace) then return true
  else if loosely then atEnd
  else atSymbol .semicolon

def fieldRest (g : Grammar) (start : Nat) (key : Node) (isStatic : Bool) : Parse Node := do
  if isConstructorKey key && !isStatic then fail .fieldNamedConstructor key.start
  within (fun c => { c with includeIn := true, inField := true, superAllowed := true }) do
    let value ← if ← eat .assign then do pure [← g.assignment] else pure []
    if !(← eatEnd) then report .missingSemicolon (← token).start
    node .field start (key :: value)

def constructorRest (g : Grammar) (start : Nat) (key : Node) : Parse Node := do
  let rest ← within methodScope (functionRest g false false (fun _ => pure ()))
  node .constructor start (key :: rest)

/-- a member after `static`, if that stood there -/
def classMemberFrom (g : Grammar) (start : Nat) (isStatic : Bool) : Parse Node := do
  if isStatic && (← atSymbol .lbrace) then
    let body ← apart <| within
      (fun c => { c with inStaticBlock := true, inField := true, superAllowed := true,
                         breakAllowed := false, continueAllowed := false })
      (block g false)
    node .staticBlock start [body]
  else if ← eat .star then
    let key ← classKey g
    if isConstructorKey key && !isStatic then report .generatorConstructor key.start
    methodRest g start key false true (fun _ => pure ())
  else
    let key ← classKey g
    let word := keyWord? key
    if ← atSymbol .lparen then
      if isConstructorKey key && !isStatic then constructorRest g start key
      else methodRest g start key false false (fun _ => pure ())
    else
      let nextIsGenerator := (← afterNewline) && (← atSymbol .star)
      let accessor := (word = some "get" || word = some "set") && !(← atFieldEnd false) &&
        !nextIsGenerator
      if !accessor && (← atFieldEnd true) then fieldRest g start key isStatic
      else if word = some "async" && !(← afterNewline) then
        let isGenerator ← eat .star
        let name ← classKey g
        if isConstructorKey name && !isStatic then report .asyncConstructor name.start
        methodRest g start name true isGenerator (fun _ => pure ())
      else if accessor then
        let name ← classKey g
        if isConstructorKey name && !isStatic then report .accessorConstructor key.start
        if word = some "get" then methodRest g start name false false (checkGetter key.start)
        else methodRest g start name false false (checkSetter key.start)
      else unexpected "* for generator, private key, identifier or async"

def classMember (g : Grammar) : Parse Node := do
  let start := (← token).start
  if ← eatWord "static" then
    let key := Node.mk (.key "static") start (← lastStop) []
    if ← atSymbol .lparen then methodRest g start key false false (fun _ => pure ())
    else if ← atFieldEnd false then fieldRest g start key false
    else classMemberFrom g start true
  else classMemberFrom g start false

def classBody (g : Grammar) : Parse (List Node) := do
  let found ← iterate (fun (acc : List Node) => do
    if ← atSymbol .rbrace then return none
    if ← eat .semicolon then return some acc
    let m ← within (fun c => { c with superAllowed := true }) (classMember g)
    if m.kind = .constructor && acc.any (·.kind = .constructor) then
      report .duplicateConstructor m.start
    return some (m :: acc)) []
  return found.reverse

/-- from the word `class` on -/
def classFrom (g : Grammar) (start : Nat) (nameNeeded : Bool) : Parse Node :=
  within (fun c => { c with inClass := true, strict := true }) do
    expectWord "class"
    let name ← if nameNeeded || (← atName) then do pure [← bindingIdentifier true] else pure []
    let superclass ← if ← eatWord "extends" then do pure [← g.leftHand] else pure []
    if ← eatWord "extends" then
      report .extendsTwice (← lastStart)
      let _ ← g.leftHand
    expect .lbrace
    let members ← classBody g
    expect .rbrace
    node .classBody start (name ++ members ++ superclass)

end Bindle.Script.Grammar
