import Script.Token

namespace Script

/-!
# Diagnostics

What can be wrong with a program before it runs: a lexical, a syntax or a scope
problem at a place.  Problems are values; their wording is in one function.  A
diagnostic is *incomplete* when more input could still mend it, which is how an
interactive session knows that an entry goes on.
-/

/-- The two forms of function declaration. -/
inductive FunctionForm where
  | function
  | method
  deriving Repr, DecidableEq

namespace FunctionForm

/-- The noun for a form. -/
def noun : FunctionForm → String
  | .function =>
      "function"
  | .method =>
      "method"

end FunctionForm

/-- What the grammar asks for where something else was found. -/
inductive Expectation where
  | className
  | classBody
  | classEnd
  | functionName (form : FunctionForm)
  | parametersStart (form : FunctionForm)
  | parameterName
  | parametersEnd
  | functionBody (form : FunctionForm)
  | variableName
  | variableEnd
  | blockEnd
  | forStart
  | loopConditionEnd
  | forClausesEnd
  | ifStart
  | ifConditionEnd
  | whileStart
  | whileConditionEnd
  | printEnd
  | returnEnd
  | expressionEnd
  | propertyName
  | argumentsEnd
  | groupEnd
  | expression
  deriving Repr, DecidableEq

namespace Expectation

/-- The words for what is expected. -/
def words : Expectation → String
  | .className =>
      "class name"
  | .classBody =>
      "'\x7b' before class body"
  | .classEnd =>
      "'\x7d' after class body"
  | .functionName form =>
      form.noun ++ " name"
  | .parametersStart form =>
      "'(' after " ++ form.noun ++ " name"
  | .parameterName =>
      "parameter name"
  | .parametersEnd =>
      "')' after parameters"
  | .functionBody form =>
      "'\x7b' before " ++ form.noun ++ " body"
  | .variableName =>
      "variable name"
  | .variableEnd =>
      "';' after variable declaration"
  | .blockEnd =>
      "'\x7d' after block"
  | .forStart =>
      "'(' after 'for'"
  | .loopConditionEnd =>
      "';' after loop condition"
  | .forClausesEnd =>
      "')' after for clauses"
  | .ifStart =>
      "'(' after 'if'"
  | .ifConditionEnd =>
      "')' after if condition"
  | .whileStart =>
      "'(' after 'while'"
  | .whileConditionEnd =>
      "')' after condition"
  | .printEnd =>
      "';' after value"
  | .returnEnd =>
      "';' after return value"
  | .expressionEnd =>
      "';' after expression"
  | .propertyName =>
      "property name after '.'"
  | .argumentsEnd =>
      "')' after arguments"
  | .groupEnd =>
      "')' after expression"
  | .expression =>
      "expression"

end Expectation

/-- What can be wrong with a program before it runs. -/
inductive Problem where
  | unexpectedCharacter (code : Nat)
  | unterminatedString
  | expected (what : Expectation)
  | tooManyParameters
  | tooManyArguments
  | tooMuchNesting
  | invalidTarget
  | returnOutsideFunction
  | returnFromInitializer
  | ownInitializer
  | thisOutsideClass
  | alreadyDeclared
  deriving Repr, DecidableEq

namespace Problem

/-- The wording of a problem. -/
def message : Problem → Text
  | .unexpectedCharacter code =>
      Text.utf8 "Unexpected character " ++ Text.quoteCharacter code ++
        Text.utf8 "."
  | .unterminatedString =>
      Text.utf8 "Unterminated string."
  | .expected what =>
      Text.utf8 ("Expect " ++ what.words ++ ".")
  | .tooManyParameters =>
      Text.utf8 "Can't have more than 255 parameters."
  | .tooManyArguments =>
      Text.utf8 "Can't have more than 255 arguments."
  | .tooMuchNesting =>
      Text.utf8 "Too much nesting."
  | .invalidTarget =>
      Text.utf8 "Invalid assignment target."
  | .returnOutsideFunction =>
      Text.utf8 "Can't return from top-level code."
  | .returnFromInitializer =>
      Text.utf8 "Can't return a value from an initializer."
  | .ownInitializer =>
      Text.utf8 "Can't read local variable in its own initializer."
  | .thisOutsideClass =>
      Text.utf8 "Can't use 'this' outside of a class."
  | .alreadyDeclared =>
      Text.utf8 "Already a variable with this name in this scope."

end Problem

/-- Where on its line a problem was found. -/
inductive Place where
  | unspecified
  | atEnd
  | atLexeme (lexeme : Text)
  deriving Repr, DecidableEq

namespace Place

/-- The words for a place, after the word `Error`. -/
def words : Place → Text
  | .unspecified =>
      []
  | .atEnd =>
      Text.utf8 " at end"
  | .atLexeme lexeme =>
      Text.utf8 " at '" ++ lexeme ++ Text.utf8 "'"

end Place

/-- A problem, with the line and the place where it was found. -/
structure Diagnostic where
  line : Int
  place : Place
  problem : Problem
  deriving Repr, DecidableEq

namespace Diagnostic

/-- A problem on a line, with no lexeme to point at. -/
def onLine
    (line : Int)
    (problem : Problem) :
    Diagnostic where
  line := line
  place := .unspecified
  problem := problem

/-- A problem at a token. -/
def atToken
    (token : Token)
    (problem : Problem) :
    Diagnostic where
  line := token.line
  place :=
    if token.kind = .endOfInput then
      .atEnd
    else
      .atLexeme token.lexeme
  problem := problem

/-- Whether more input could still mend the problem. -/
def incomplete (diagnostic : Diagnostic) : Bool :=
  diagnostic.place == .atEnd || diagnostic.problem == .unterminatedString

end Diagnostic

end Script
