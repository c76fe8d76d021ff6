import Bindle.Script.Grammar.Basic

/-!
# Patterns

* `bindingPattern`, `bindingElement`   patterns in declarations and parameters;
* `asPattern`                          an expression that turned out to be a pattern, because an
                                       `=` or an arrow follows it.

`asPattern` follows the tree of the expression, so it ends without any bound.
-/

namespace Bindle.Script.Grammar

open Parse

def bindingElement (g : Grammar) : Parse Node := do
  let left ← g.binding false
  if ← eat .assign then
    let value ← includingIn true g.assignment
    node .withDefault left.start [left, value]
  else return left

/-- elements so far, the last one first, and where the latest rest element stands -/
abbrev Elements := List Node × Option Nat

def arrayBinding (g : Grammar) : Parse Node := do
  let start := (← token).start
  expect .lbracket
  let elements ← iterate (fun (acc : Elements) => do
    if ← atSymbol .rbracket then return none
    if ← eat .comma then return some (acc.1, acc.2)
    match acc.2 with
    | some offset => report .restNotLast offset
    | none => pure ()
    let from_ := (← token).start
    let isRest ← eat .ellipsis
    let element ← if isRest then do
        let inner ← g.binding false
        node .rest from_ [inner]
      else bindingElement g
    if !(← atSymbol .rbracket) then
      expect .comma
      if isRest && (← atSymbol .rbracket) then report .commaAfterRest (← lastStart)
    return some (element :: acc.1, if isRest then some from_ else acc.2)) ([], none)
  expect .rbracket
  node .arrayPattern start elements.1.reverse

/-- a property's name: a word, a literal or an expression in brackets -/
def propertyName (g : Grammar) : Parse Node := do
  refuseInvalid
  let t ← token
  match t.kind with
  | .string raw => do
    let _ ← advance
    node (.string raw) t.start []
  | .number _ | .bigint _ => do
    let _ ← advance
    node .number t.start []
  | .word name => do
    let _ ← advance
    node (.key name) t.start []
  | .symbol .lbracket => do
    let _ ← advance
    let inner ← includingIn true g.assignment
    expect .rbracket
    node .computed t.start [inner]
  | _ => unexpected "identifier, string literal, numeric literal or [ for the computed key"

def bindingProperty (g : Grammar) : Parse Node := do
  let start := (← token).start
  if ← eat .ellipsis then
    let inner ← g.binding false
    node .rest start [inner]
  else
    let key ← propertyName g
    if ← eat .colon then
      let value ← bindingElement g
      node .keyed start [key, value]
    else match key.kind with
      | .key name => do
        if ← eat .assign then
          let value ← includingIn true g.assignment
          node (.boundName name) start [value]
        else
          if (← scope).reservesShorthand name then report .reservedShorthand key.start
          node (.boundName name) start []
      | _ => unexpected "an identifier"

/-- members between braces, and the place of a comma after the last one -/
def braced (member : Parse Node) : Parse (List Node × Option Nat) := do
  expect .lbrace
  let members ← iterate (fun (acc : List Node × Option Nat) => do
    if ← eat .rbrace then return none
    let m ← member
    if ← atSymbol .rbrace then return some (m :: acc.1, none)
    expect .comma
    if ← atSymbol .rbrace then return some (m :: acc.1, some (← lastStart))
    return some (m :: acc.1, none)) ([], none)
  return (members.1.reverse, members.2)

/-- a rest property stands last, is a plain name, and no comma follows it -/
def checkRests (comma : Option Nat) : List Node → Parse Unit
  | [] => pure ()
  | [p] =>
    if p.kind = .rest then
      if p.parts.any Node.isIdentifier then
        match comma with
        | some offset => report .commaAfterRest offset
        | none => pure ()
      else fail .restWithoutIdentifier p.start
    else pure ()
  | p :: ps => do
    if p.kind = .rest then report .restNotLast p.start
    checkRests comma ps

def objectBinding (g : Grammar) : Parse Node := do
  let start := (← token).start
  let (members, comma) ← braced (bindingProperty g)
  checkRests comma members
  node .objectPattern start members

def bindingPattern (g : Grammar) (refuseLet : Bool) : Parse Node := do
  refuseInvalid
  match (← token).kind with
  | .word _ => bindingIdentifier refuseLet
  | .symbol .lbracket => arrayBinding g
  | .symbol .lbrace => objectBinding g
  | _ => unexpected "yield, an identifier, [ or \x7b"

/-! ## expressions that become patterns -/

/-- what the pattern is for -/
inductive PatternUse where
  | assignment
  | assignmentElement
  | binding
  | bindingElement
  deriving DecidableEq

def PatternUse.element : PatternUse → PatternUse
  | .assignment | .assignmentElement => .assignmentElement
  | .binding | .bindingElement => .bindingElement

/-- the operand of `++` and the like has to be a variable or a property -/
def checkTarget (n : Node) : Parse Unit := do
  if !(n.isTarget (← scope).strict) then report .invalidTarget n.start

/-- kinds of expressions that are taken for the target of an element as they are -/
def isPlainElement : Kind → Bool
  | .member | .superMember | .call | .new _ | .string _ | .number | .constant | .regex
  | .identifier _ | .function _ | .classBody | .parenthesized | .template => true
  | _ => false

def refusePattern (start stop : Nat) : Parse Node := do
  report .notAPattern start
  return .mk .invalid start stop []

def trailingComma? (start : Nat) : Parse (Option Nat) := do
  return (← get).trailingCommas.lookup start

def reportTrailing (start : Nat) : Parse Unit := do
  match ← trailingComma? start with
  | some offset => report .commaAfterRest offset
  | none => pure ()

mutual

def asPattern (use : PatternUse) : Node → Parse Node
  | .mk .array start stop parts => do
    let trailing := (parts.reverse.takeWhile (·.kind = .hole)).length
    let before := if trailing = 0 then parts.length - 1 else parts.length - trailing
    let elements ← arrayAsPattern use.element start before (trailing = 0) parts
    return .mk .arrayPattern start stop elements
  | .mk .object start stop parts => do
    let members ← objectAsPattern use.element start parts
    return .mk .objectPattern start stop members
  | .mk (.identifier name) start stop parts => do
    let n := Node.mk (.identifier name) start stop parts
    match use with
    | .assignment => checkTarget n
    | .assignmentElement =>
      if !(n.isTarget (← scope).strict) then report .notSimpleTarget start
    | _ => pure ()
    return n
  | .mk (.assignment true) start stop parts => do
    match use with
    | .assignment => do
      checkTarget (.mk (.assignment true) start stop parts)
      return .mk (.assignment true) start stop parts
    | _ => return .mk .withDefault start stop parts
  | .mk kind start stop parts => do
    let n := Node.mk kind start stop parts
    match use with
    | .assignment => do
      checkTarget n
      return n
    | .assignmentElement => do
      if isPlainElement kind then
        if !(n.isTarget (← scope).strict) then report .notSimpleTarget start
        return n
      else refusePattern start stop
    | _ => refusePattern start stop

/-- `before` elements stand before the last one; after trailing holes no rest element follows -/
def arrayAsPattern (use : PatternUse) (literal : Nat) (before : Nat) (withLast : Bool) :
    List Node → Parse (List Node)
  | [] => pure []
  | .mk .spread start stop [inner] :: ps => do
    match before with
    | 0 =>
      if !withLast then return []
      match inner.kind with
      | .assignment _ => report .restInitializer start
      | _ => pure ()
      reportTrailing literal
      let p ← asPattern use inner
      return [.mk .rest start stop [p]]
    | k + 1 => do
      report .restNotLast start
      arrayAsPattern use literal k withLast ps
  | n :: ps => do
    match before with
    | 0 =>
      if !withLast then return []
      if n.kind = .hole then return [n]
      return [← asPattern use n]
    | k + 1 => do
      let p ← if n.kind = .hole then pure n else asPattern use n
      return p :: (← arrayAsPattern use literal k withLast ps)

def objectAsPattern (use : PatternUse) (literal : Nat) : List Node → Parse (List Node)
  | [] => pure []
  | .mk .spread start stop [inner] :: ps => do
    if ps.isEmpty then reportTrailing literal else report .restNotLast start
    let p ←
      if use = .bindingElement then
        if inner.isIdentifier then pure inner
        else do
          report .restWithoutIdentifier start
          pure (.mk .invalid start stop [])
      else asPattern use inner
    if p.kind = .withDefault then report .restInitializer start
    return .mk .rest start stop [p] :: (← objectAsPattern use literal ps)
  | .mk .keyed start stop [key, value] :: ps => do
    let p ← asPattern use value
    return .mk .keyed start stop [key, p] :: (← objectAsPattern use literal ps)
  | .mk (.shorthand name) start stop parts :: ps => do
    return .mk (.boundName name) start stop parts :: (← objectAsPattern use literal ps)
  | .mk (.initialized name) start stop parts :: ps => do
    return .mk (.boundName name) start stop parts :: (← objectAsPattern use literal ps)
  | n :: _ => fail .notAPattern n.start

end

mutual

/-- names that strict code does not bind, wherever they stand in a pattern -/
def checkNames : Node → Parse Unit
  | .mk (.identifier name) start _ _ => do
    if Node.isRestrictedName name then reportStrict .strictBinding start
  | .mk .arrayPattern _ _ parts => checkNamesOf parts
  | .mk .objectPattern _ _ parts => checkNamesOf parts
  | .mk .rest _ _ parts => checkNamesOf parts
  | .mk .withDefault _ _ (left :: _) => checkNames left
  | .mk .keyed _ _ [_, value] => checkNames value
  | .mk (.boundName name) start _ _ => do
    if Node.isRestrictedName name then reportStrict .strictBinding start
  | _ => pure ()

def checkNamesOf : List Node → Parse Unit
  | [] => pure ()
  | n :: ns => do
    checkNames n
    checkNamesOf ns

end

end Bindle.Script.Grammar
