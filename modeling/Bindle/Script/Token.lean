import Bindle.Script.Fault

/-!
# Tokens of JavaScript

* `Symbol`      punctuators, with their text and, for binary operators, their precedence;
* `Token.Kind`  what a token is; words hold their name with escapes decoded, literals their text;
* `Token`       a kind with the bytes it covers, whether a line ends before it, and the remarks
                that hold in strict code only.

`/` is always read as a symbol and `}` as a closing brace: only the grammar knows where a regular
expression begins or a template goes on, and asks for them.
-/

namespace Bindle.Script

inductive Symbol where
  | lparen | rparen | lbracket | rbracket | lbrace | rbrace
  | comma | semicolon | colon | question | optionalChain | dot | ellipsis | arrow | hash | atSign
  | tilde | bang | increment | decrement
  | assign | plusAssign | minusAssign | starAssign | slashAssign | percentAssign | powerAssign
  | shiftLeftAssign | shiftRightAssign | shiftRightZeroAssign
  | andAssign | orAssign | xorAssign | logicalAndAssign | logicalOrAssign | nullishAssign
  | equal | notEqual | identical | notIdentical | less | lessEqual | greater | greaterEqual
  | shiftLeft | shiftRight | shiftRightZero | plus | minus | star | slash | percent | power
  | bitAnd | bitOr | bitXor | logicalAnd | logicalOr | nullish
  deriving DecidableEq, Inhabited

namespace Symbol

def text : Symbol → String
  | lparen => "(" | rparen => ")" | lbracket => "[" | rbracket => "]"
  | lbrace => "\x7b" | rbrace => "\x7d"
  | comma => "," | semicolon => ";" | colon => ":" | question => "?" | optionalChain => "?."
  | dot => "." | ellipsis => "..." | arrow => "=>" | hash => "#" | atSign => "@"
  | tilde => "~" | bang => "!" | increment => "++" | decrement => "--"
  | assign => "=" | plusAssign => "+=" | minusAssign => "-=" | starAssign => "*="
  | slashAssign => "/=" | percentAssign => "%=" | powerAssign => "**="
  | shiftLeftAssign => "<<=" | shiftRightAssign => ">>=" | shiftRightZeroAssign => ">>>="
  | andAssign => "&=" | orAssign => "|=" | xorAssign => "^="
  | logicalAndAssign => "&&=" | logicalOrAssign => "||=" | nullishAssign => "??="
  | equal => "==" | notEqual => "!=" | identical => "===" | notIdentical => "!=="
  | less => "<" | lessEqual => "<=" | greater => ">" | greaterEqual => ">="
  | shiftLeft => "<<" | shiftRight => ">>" | shiftRightZero => ">>>"
  | plus => "+" | minus => "-" | star => "*" | slash => "/" | percent => "%" | power => "**"
  | bitAnd => "&" | bitOr => "|" | bitXor => "^"
  | logicalAnd => "&&" | logicalOr => "||" | nullish => "??"

/-- all symbols, longer texts first -/
def all : List Symbol :=
  [shiftRightZeroAssign,
   ellipsis, powerAssign, shiftLeftAssign, shiftRightAssign, logicalAndAssign, logicalOrAssign,
   nullishAssign, identical, notIdentical, shiftRightZero,
   optionalChain, arrow, increment, decrement, plusAssign, minusAssign, starAssign, slashAssign,
   percentAssign, andAssign, orAssign, xorAssign, equal, notEqual, lessEqual, greaterEqual,
   shiftLeft, shiftRight, power, logicalAnd, logicalOr, nullish,
   lparen, rparen, lbracket, rbracket, lbrace, rbrace, comma, semicolon, colon, question, dot,
   hash, atSign, tilde, bang, assign, less, greater, plus, minus, star, slash, percent, bitAnd,
   bitOr, bitXor]

/-- how tightly a binary operator binds -/
def precedence? : Symbol → Option Nat
  | nullish | logicalOr => some 1
  | logicalAnd => some 2
  | bitOr => some 3
  | bitXor => some 4
  | bitAnd => some 5
  | equal | notEqual | identical | notIdentical => some 6
  | less | lessEqual | greater | greaterEqual => some 7
  | shiftLeft | shiftRight | shiftRightZero => some 8
  | plus | minus => some 9
  | star | slash | percent => some 10
  | power => some 11
  | _ => none

/-- the precedence of the words `in` and `instanceof` -/
def relationalPrecedence : Nat := 7

def isAssignment : Symbol → Bool
  | assign | plusAssign | minusAssign | starAssign | slashAssign | percentAssign | powerAssign
  | shiftLeftAssign | shiftRightAssign | shiftRightZeroAssign
  | andAssign | orAssign | xorAssign | logicalAndAssign | logicalOrAssign | nullishAssign => true
  | _ => false

end Symbol

/-- the place of a template's text among its substitutions -/
inductive TemplatePart where
  | whole | head | middle | tail
  deriving DecidableEq, Inhabited

namespace Token

inductive Kind where
  | word (name : String)
  | symbol (s : Symbol)
  | string (raw : String)
  | number (raw : String)
  | bigint (raw : String)
  | regex (flags : String)
  | template (part : TemplatePart) (bad : Option Fault)
  | eof
  | invalid (fault : Fault)
  deriving DecidableEq, Inhabited

end Token

structure Token where
  kind : Token.Kind
  start : Nat
  stop : Nat
  newline : Bool
  strictRemarks : List Fault := []
  deriving Inhabited

/-- words that are never names of variables -/
def keywords : List String :=
  ["break", "case", "catch", "class", "const", "continue", "debugger", "default", "delete", "do",
   "else", "export", "extends", "finally", "for", "function", "if", "import", "in", "instanceof",
   "new", "return", "super", "switch", "this", "throw", "try", "typeof", "var", "void", "while",
   "with", "null", "true", "false"]

/-- the part of the context that decides which words are reserved -/
structure Reserving where
  strict : Bool := false
  inModule : Bool := false
  inAsync : Bool := false
  inGenerator : Bool := false
  inStaticBlock : Bool := false
  deriving DecidableEq, Inhabited

namespace Reserving

def strictWords : List String :=
  ["implements", "package", "protected", "interface", "private", "public"]

/-- the word cannot be read as an identifier here -/
def reserves (r : Reserving) (name : String) : Bool :=
  match name with
  | "let" => r.strict
  | "await" => r.inAsync || r.inStaticBlock || r.strict
  | "yield" => r.inGenerator || r.strict
  | "enum" => true
  | _ => keywords.contains name || (r.strict && strictWords.contains name)

/-- the word cannot stand for a property and its value at once -/
def reservesShorthand (r : Reserving) (name : String) : Bool :=
  match name with
  | "await" => r.inAsync || r.inStaticBlock || r.inModule
  | _ => r.reserves name

end Reserving

end Bindle.Script
