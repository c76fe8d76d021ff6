import Bindle.Script.Token

/-!
# Syntax trees

A `Node` has a kind, the bytes it covers and its parts.  The parts stand in the order in which a
walk visits them, which for a few kinds is not the order of the text: a `do` loop has its test
before its body and a class has its members before its superclass.

* `Node.isTarget`            the expression may stand on the left of an assignment;
* `Node.strayInitializers`   object literals with `name = value`, which are legal in patterns only.
-/

namespace Bindle.Script

inductive Kind where
  -- names and literals
  | identifier (name : String)
  | privateName (name : String)
  | string (raw : String)
  | number
  | constant
  | regex
  | template
  | this
  | superReference
  | importReference
  | metaProperty
  | invalid
  -- composed expressions
  | parenthesized
  | sequence
  | array
  | hole
  | spread
  | object
  | unary (isDelete : Bool)
  | update
  | await
  | yield
  | binary (op : Option Symbol)
  | conditional
  | assignment (plain : Bool)
  | member
  | superMember
  | optional
  | call
  | new (called : Bool)
  | taggedTemplate
  | arrow (block : Bool)
  | function (special : Bool)
  | classBody
  -- members of objects and classes
  | key (name : String)
  | computed
  | shorthand (name : String)
  | initialized (name : String)
  | keyed
  | method
  | constructor
  | field
  | staticBlock
  -- patterns
  | arrayPattern
  | objectPattern
  | boundName (name : String)
  | withDefault
  | rest
  | parameters
  -- statements
  | expression
  | block
  | empty
  | variableList
  | declarator
  | conditionalStatement
  | loop
  | jump
  | switch
  | case
  | tryStatement
  | catchClause
  | labelled
  | withStatement
  | importDeclaration
  | exportDeclaration
  | program
  deriving DecidableEq, Inhabited

inductive Node where
  | mk (kind : Kind) (start stop : Nat) (parts : List Node)
  deriving Inhabited

namespace Node

def kind : Node → Kind
  | mk k _ _ _ => k

def start : Node → Nat
  | mk _ i _ _ => i

def stop : Node → Nat
  | mk _ _ j _ => j

def parts : Node → List Node
  | mk _ _ _ ps => ps

def isIdentifier (n : Node) : Bool :=
  match n.kind with
  | .identifier _ => true
  | _ => false

/-- the names that strict code does not bind -/
def isRestrictedName (name : String) : Bool := name == "eval" || name == "arguments"

/-- a variable or a property, which an assignment can give a value -/
def isTarget (strict : Bool) : Node → Bool
  | mk (.identifier name) _ _ _ => !(strict && isRestrictedName name)
  | mk .parenthesized _ _ (inner :: _) => isTarget strict inner
  | mk .member _ _ (object :: _) =>
    match object with
    | mk .member _ _ _ => isTarget strict object
    | mk .optional _ _ _ => false
    | _ => true
  | mk .superMember _ _ _ => true
  | _ => false

/-- what an assignment can hold on its left side once the tree is built -/
def fitsAssignment (n : Node) : Bool :=
  match n.kind with
  | .identifier _ | .member | .superMember | .optional | .parenthesized | .invalid
  | .arrayPattern | .objectPattern => true
  | _ => false

/-- the expression statement that holds exactly the directive `use strict` -/
def isUseStrict (n : Node) : Bool :=
  match n.kind, n.parts with
  | .expression, [mk (.string raw) _ _ _] => raw == "'use strict'" || raw == "\"use strict\""
  | _, _ => false

/-- an expression statement that is a string, as directives are -/
def isDirective (n : Node) : Bool :=
  match n.kind, n.parts with
  | .expression, [mk (.string _) _ _ _] => true
  | _, _ => false

mutual

/-- places of `name = value` in object literals that are used as expressions -/
def strayInitializers : Node → List Nat
  | mk (.initialized _) start _ _ => [start]
  | mk (.function _) _ _ _ => []
  | mk .array _ _ _ => []
  | mk (.arrow _) _ _ _ => []
  | mk _ _ _ parts => strayInitializersOf parts

def strayInitializersOf : List Node → List Nat
  | [] => []
  | n :: ns => strayInitializers n ++ strayInitializersOf ns

end

end Node

end Bindle.Script
