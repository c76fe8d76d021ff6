/-!
# What can be wrong with a script

A `Complaint` is one thing that the grammar of JavaScript, or one of its early checks, objects to;
`Complaint.text` words it.  A `Fault` is a complaint about a place, given as a byte offset.
-/

namespace Bindle.Script

inductive Complaint where
  -- tokens
  | unterminatedComment
  | unterminatedString
  | unterminatedTemplate
  | unterminatedRegex
  | unexpectedCharacter (shown : String)
  | expectedUnicodeEscape
  | invalidStringEscape
  | invalidUnicodeEscape
  | badEscape (expected : String)
  | invalidIdentifierCharacter
  | escapedReservedWord (word : String)
  | identifierAfterNumber
  | missingExponent
  | expectedDigit (kind : String)
  | misplacedSeparator
  | legacyOctal
  | legacyDecimal
  | legacyComment
  | unknownRegexFlags
  | duplicateRegexFlag (flag : Char)
  -- grammar
  | unexpectedEnd
  | unexpected (got wanted : String)
  | expected (wanted got : String)
  | expectedIdentifier
  | expectedExpression
  | expectedSemicolon
  | missingSemicolon
  | trailingComma
  | spaceInPrivateName
  | nestedTooDeep
  -- expressions
  | awaitStar
  | awaitInFunction
  | awaitInParameters
  | awaitAsIdentifier
  | yieldInParameters
  | powerOfUnary
  | mixedNullish
  | invalidTarget
  | invalidAssignmentTarget
  | notSimpleTarget
  | initializerInObject
  | reservedShorthand
  | optionalMember
  | notAPattern
  | notAnExpression
  | restNotLast
  | commaAfterRest
  | restParameterNotLast
  | restInitializer
  | restWithoutIdentifier
  | emptyParentheses
  | spreadInParentheses
  | arrowNotAllowed
  | lineBreakBeforeArrow
  | newTargetOutside
  | superOutside
  | superCall
  | superOptionalCall
  | importExpression
  | optionalChainInNew
  | templateInOptionalChain
  | strictReserved (name : String)
  | strictBinding
  | strictArguments
  | argumentsInField
  | strictDelete
  -- functions and classes
  | getterParameters
  | setterParameters
  | restInSetter
  | directiveNotAllowed
  | duplicateConstructor
  | generatorConstructor
  | asyncConstructor
  | accessorConstructor
  | fieldNamedConstructor
  | privateConstructor
  | extendsTwice
  -- statements
  | declarationNotAllowed
  | constWithoutValue
  | patternWithoutValue
  | severalInForHead
  | valueInForHead
  | asyncInForHead
  | forAwait
  | breakOutside
  | breakWithoutLabel
  | continueOutside
  | continueAcrossFunction
  | returnOutside
  | lineBreakAfterThrow
  | severalDefaults
  | withInStrict
  | duplicateLabel (name : String)
  | labelledFunctionInStrict
  | labelledGenerator
  | usingDeclaration
  -- modules
  | importOutsideModule
  | reservedImport
  | importedString (name : String)
  | exportedString
  deriving DecidableEq, Inhabited

def Complaint.text : Complaint → String
  | .unterminatedComment => "Unterminated block comment"
  | .unterminatedString => "Unterminated string constant"
  | .unterminatedTemplate => "Unterminated template"
  | .unterminatedRegex => "Unterminated regexp literal"
  | .unexpectedCharacter shown => "Unexpected character " ++ shown
  | .expectedUnicodeEscape => "Expected unicode escape"
  | .invalidStringEscape => "Invalid string escape"
  | .invalidUnicodeEscape => "Invalid unicode escape"
  | .badEscape what => "Bad character escape sequence, expected " ++ what
  | .invalidIdentifierCharacter => "Invalid character in identifier"
  | .escapedReservedWord word => "Unexpected escape sequence in reserved word: " ++ word
  | .identifierAfterNumber => "Identifier cannot follow number"
  | .missingExponent => "Expected +, - or decimal digit after e"
  | .expectedDigit kind => "Expected " ++ kind ++ " digit"
  | .misplacedSeparator => "A numeric separator is only allowed between two digits"
  | .legacyOctal => "Legacy octal escape is not permitted in strict mode"
  | .legacyDecimal => "Legacy decimal escape is not permitted in strict mode"
  | .legacyComment => "Legacy comments cannot be used in module code"
  | .unknownRegexFlags => "Unknown regular expression flags."
  | .duplicateRegexFlag flag => "Duplicated regular expression flag '" ++ flag.toString ++ "'."
  | .unexpectedEnd => "Unexpected eof"
  | .unexpected got wanted => "Unexpected token `" ++ got ++ "`. Expected " ++ wanted
  | .expected wanted got => "Expected '" ++ wanted ++ "', got '" ++ got ++ "'"
  | .expectedIdentifier => "Expected ident"
  | .expectedExpression => "Expression expected"
  | .expectedSemicolon => "Expected ';', '\x7d' or <eof>"
  | .missingSemicolon => "Expected a semicolon"
  | .trailingComma => "Trailing comma is not allowed"
  | .spaceInPrivateName => "Unexpected space between # and identifier"
  | .nestedTooDeep => "Nesting is too deep"
  | .awaitStar =>
    "await* has been removed from the async functions proposal. Use Promise.all() instead."
  | .awaitInFunction => "await isn't allowed in non-async function"
  | .awaitInParameters => "`await` expressions cannot be used in a parameter initializer."
  | .awaitAsIdentifier => "`await` cannot be used as an identifier in an async context"
  | .yieldInParameters => "'yield' cannot be used as a parameter within generator"
  | .powerOfUnary => "'**' cannot be applied to unary/await expression."
  | .mixedNullish =>
    "Nullish coalescing operator(??) requires parens when mixing with logical operators"
  | .invalidTarget =>
    "The left-hand side of an assignment expression must be a variable or a property access."
  | .invalidAssignmentTarget => "Invalid assignment target"
  | .notSimpleTarget => "Cannot assign to this"
  | .initializerInObject => "assignment property is invalid syntax"
  | .reservedShorthand => "Cannot use a reserved word as a shorthand property"
  | .optionalMember => "An object member cannot be declared optional"
  | .notAPattern => "Not a pattern"
  | .notAnExpression => "Not an expression"
  | .restNotLast => "Rest element must be final element"
  | .commaAfterRest => "Trailing comma isn't permitted after a rest element"
  | .restParameterNotLast => "A rest parameter must be last in a parameter list"
  | .restInitializer => "A rest parameter cannot have an initializer"
  | .restWithoutIdentifier => "`...` must be followed by an identifier in declaration contexts"
  | .emptyParentheses => "Parenthesized expression cannot be empty"
  | .spreadInParentheses => "Parenthesized expression cannot contain spread operator"
  | .arrowNotAllowed => "An arrow function is not allowed here"
  | .lineBreakBeforeArrow => "Unexpected line break between arrow head and arrow"
  | .newTargetOutside => "'new.target' is only allowed in the body of a function declaration, " ++
    "function expression, or class."
  | .superOutside => "Invalid access to super"
  | .superCall => "Invalid `super()`"
  | .superOptionalCall => "Super call cannot be optional"
  | .importExpression => "Invalid import"
  | .optionalChainInNew =>
    "Constructor in `new` expression cannot be followed by an optional chain."
  | .templateInOptionalChain => "Tagged template can't be used in optional chain"
  | .strictReserved name => "`" ++ name ++ "` cannot be used as an identifier in strict mode"
  | .strictBinding =>
    "`eval` and `arguments` cannot be used as a binding identifier in strict mode"
  | .strictArguments => "Invalid use of 'arguments' in strict mode"
  | .argumentsInField => "'arguments' is only allowed in functions and class methods"
  | .strictDelete => "'delete' cannot be called on an identifier in strict mode"
  | .getterParameters => "A `get` accessor cannot have parameters"
  | .setterParameters => "A `set` accessor must have exactly one parameter"
  | .restInSetter => "Rest pattern is not allowed in setter"
  | .directiveNotAllowed =>
    "Illegal 'use strict' directive in function with non-simple parameter list."
  | .duplicateConstructor => "A class can only have one constructor"
  | .generatorConstructor => "A constructor cannot be generator"
  | .asyncConstructor => "A constructor cannot be async"
  | .accessorConstructor => "Class constructor can't be an accessor"
  | .fieldNamedConstructor => "Classes may not have a non-static field named 'constructor'"
  | .privateConstructor => "Classes can't have a private field named '#constructor'."
  | .extendsTwice => "`extends` clause already seen."
  | .declarationNotAllowed => "Declaration is not allowed"
  | .constWithoutValue => "'const' declarations must be initialized"
  | .patternWithoutValue => "Destructuring bindings require initializers"
  | .severalInForHead => "Expected one variable binding"
  | .valueInForHead => "Unexpected initializer in for in/of loop"
  | .asyncInForHead => "The left-hand side of a `for...of` statement may not be `async`"
  | .forAwait => "for await syntax is valid only for for-of statement"
  | .breakOutside =>
    "A 'break' statement can only be used within an enclosing iteration or switch statement"
  | .breakWithoutLabel =>
    "A 'break' statement can only jump to a label of an enclosing statement"
  | .continueOutside =>
    "A 'continue' statement can only jump to a label of an enclosing iteration statement"
  | .continueAcrossFunction => "Jump target cannot cross function boundary"
  | .returnOutside => "Return statement is not allowed here"
  | .lineBreakAfterThrow => "LineBreak cannot follow 'throw'"
  | .severalDefaults => "A switch block cannot have multiple defaults"
  | .withInStrict => "With statement are not allowed in strict mode"
  | .duplicateLabel name => "Label " ++ name ++ " is already declared"
  | .labelledFunctionInStrict => "Function cannot be labelled in strict mode"
  | .labelledGenerator => "Generator or async function cannot be labelled"
  | .usingDeclaration => "Using declaration is not enabled. " ++
    "Set jsc.parser.explicitResourceManagement to true"
  | .importOutsideModule => "'import', and 'export' cannot be used outside of module code"
  | .reservedImport => "cannot import as reserved word"
  | .importedString name => "A string literal cannot be used as an imported binding.\n" ++
    "- Did you mean `import \x7b \"" ++ name ++ "\" as foo \x7d`?"
  | .exportedString => "A string literal cannot be used as an exported binding without `from`."

/-- a complaint and the byte offset it is about -/
structure Fault where
  complaint : Complaint
  offset : Nat
  deriving DecidableEq, Inhabited

end Bindle.Script
