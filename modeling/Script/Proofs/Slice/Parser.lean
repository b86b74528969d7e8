import Script.Tree.StmtParser

namespace Script.Slice

/-!
# Parsing a slice of tokens by index

The parser once more, over a slice of tokens and an index into it.  Every look at
a token is a look at the index or just before it.  A look outside of the slice,
or a chain of calls that is longer than its bound, ends the whole run, so a run
that ends in another way did neither.
-/

/-- Where a parser is in a slice of tokens. -/
structure Place where
  /-- The index of the next token. -/
  current : Nat
  /-- The number of groupings, unary operators and blocks that are open. -/
  depth : Nat
  /-- The problems reported so far, the latest one first. -/
  reported : List Diagnostic

/-- What running a piece of the parser came to. -/
inductive Ran (α : Type) where
  | done (value : α) (place : Place)
  | failed (place : Place)
  /-- The parser looked at an index that the slice does not have. -/
  | outside
  /-- The bound on the length of a chain of calls was too small. -/
  | exhausted

/-- A piece of the parser. -/
def Parser (α : Type) : Type :=
  List Token → Place → Ran α

instance : Monad Parser where
  pure value _ place := .done value place
  bind first next tokens place :=
    match first tokens place with
    | .done value after =>
        next value tokens after
    | .failed after =>
        .failed after
    | .outside =>
        .outside
    | .exhausted =>
        .exhausted

/-! Looking at tokens and going on. -/

/-- The bound is used up. -/
def stop : Parser α :=
  fun _ _ => .exhausted

/-- The token at an index. -/
def look (index : Nat) : Parser Token :=
  fun tokens place =>
    match tokens[index]? with
    | some token =>
        .done token place
    | none =>
        .outside

/-- The next token. -/
def peek : Parser Token :=
  fun tokens place => look place.current tokens place

/-- The token just read; there is none at the start of the slice. -/
def previous : Parser Token :=
  fun tokens place =>
    match place.current with
    | 0 =>
        .outside
    | index + 1 =>
        look index tokens place

/-- Whether the next token has the given kind. -/
def check (kind : TokenKind) : Parser Bool := do
  return (← peek).kind == kind

/-- Whether the next token ends the input. -/
def atEnd : Parser Bool :=
  check .endOfInput

/-- Go on by one index. -/
def skip : Parser Unit :=
  fun _ place => .done () { place with current := place.current + 1 }

/-- Go on by one token, unless the next one ends the input. -/
def advance : Parser Token := do
  if !(← atEnd) then
    skip
  previous

/-- Read the next token if it has the given kind. -/
def accept (kind : TokenKind) : Parser Bool := do
  if ← check kind then
    let _ ← advance
    return true
  else
    return false

/-- Report a problem at a token. -/
def report
    (token : Token)
    (problem : Problem) :
    Parser Unit :=
  fun _ place =>
    .done ()
      { place with reported := .atToken token problem :: place.reported }

/-- Give up. -/
def giveUp : Parser α :=
  fun _ place => .failed place

/-- Report a problem at a token and give up. -/
def fail
    (token : Token)
    (problem : Problem) :
    Parser α := do
  report token problem
  giveUp

/-- Read a token of the given kind; any other one is a problem. -/
def expect
    (kind : TokenKind)
    (what : Expectation) :
    Parser Token := do
  if ← check kind then
    advance
  else
    fail (← peek) (.expected what)

/-- Change the place at which a piece of the parser ends. -/
def Ran.mapPlace
    (change : Place → Place) :
    Ran α → Ran α
  | .done value place =>
      .done value (change place)
  | .failed place =>
      .failed (change place)
  | .outside =>
      .outside
  | .exhausted =>
      .exhausted

/-- One more construct is open. -/
def Place.enter (place : Place) : Place :=
  { place with depth := place.depth + 1 }

/-- One construct less is open. -/
def Place.leave (place : Place) : Place :=
  { place with depth := place.depth - 1 }

/-- Run a piece of the parser inside the construct that the token just read
opens, which is closed again however the piece ends. -/
def nested (body : Parser α) : Parser α :=
  fun tokens place =>
    if place.depth < Cursor.maximalDepth then
      (body tokens place.enter).mapPlace Place.leave
    else
      (do fail (← previous) .tooMuchNesting : Parser α) tokens place

/-- Go on after a failure, with no value. -/
def attempt (piece : Parser α) : Parser (Option α) :=
  fun tokens place =>
    match piece tokens place with
    | .done value after =>
        .done (some value) after
    | .failed after =>
        .done none after
    | .outside =>
        .outside
    | .exhausted =>
        .exhausted

/-- Go on to where the next statement may begin. -/
def findStatement (fuel : Nat) : Parser Unit :=
  match fuel with
  | 0 =>
      stop
  | fuel + 1 => do
      if ← atEnd then
        return
      else if (← previous).kind == .semicolon then
        return
      else if Cursor.startsStatement (← peek).kind then
        return
      else
        let _ ← advance
        findStatement fuel

/-- Skip a token, and go on to where the next statement may begin. -/
def synchronize (fuel : Nat) : Parser Unit := do
  let _ ← advance
  findStatement fuel

/-! Expressions. -/

/-- An assignment to a target; one that is no target is a problem. -/
def assignTo
    (target : Expr)
    (equals : Token)
    (value : Expr) :
    Parser Expr :=
  match target with
  | .reference name _ =>
      return .assign name value none
  | .property object name =>
      return .setProperty object name value
  | _ => do
      report equals .invalidTarget
      return value

/-- Complain about one more entry when a list is full already. -/
def count
    (collected : List α)
    (problem : Problem) :
    Parser Unit := do
  if Cursor.maximalArguments ≤ collected.length then
    report (← peek) problem

mutual

/-- An expression: an assignment, or an operand with operators. -/
def expression (fuel : Nat) : Parser Expr :=
  match fuel with
  | 0 =>
      stop
  | fuel + 1 => do
      let target ← operation fuel 0
      if ← accept .equal then
        let equals ← previous
        let value ← expression fuel
        assignTo target equals value
      else
        return target

/-- An operand and the operators behind it that bind at least as tightly as
`level`. -/
def operation
    (fuel : Nat)
    (level : Nat) :
    Parser Expr :=
  match fuel with
  | 0 =>
      stop
  | fuel + 1 => do
      let left ← operand fuel
      operators fuel level left

/-- The operators behind a left operand that bind at least as tightly as
`level`. -/
def operators
    (fuel : Nat)
    (level : Nat)
    (left : Expr) :
    Parser Expr :=
  match fuel with
  | 0 =>
      stop
  | fuel + 1 => do
      match (← peek).kind.precedence? with
      | none =>
          return left
      | some precedence =>
          if precedence < level then
            return left
          else
            let operator ← advance
            let right ← operation fuel (precedence + 1)
            operators fuel level (Expr.join left operator right)

/-- A primary expression with what follows it, or a unary operator before an
operand. -/
def operand (fuel : Nat) : Parser Expr :=
  match fuel with
  | 0 =>
      stop
  | fuel + 1 => do
      let kind := (← peek).kind
      if kind = .bang ∨ kind = .minus then
        let operator ← advance
        nested do
          let operand ← operand fuel
          return .unary operator operand
      else
        let callee ← primary fuel
        trailers fuel callee

/-- The calls and property reads behind an expression. -/
def trailers
    (fuel : Nat)
    (callee : Expr) :
    Parser Expr :=
  match fuel with
  | 0 =>
      stop
  | fuel + 1 => do
      if ← accept .leftParen then
        if ← check .rightParen then
          let closing ← expect .rightParen .argumentsEnd
          trailers fuel (.call callee closing [])
        else
          let arguments ← arguments fuel []
          let closing ← expect .rightParen .argumentsEnd
          trailers fuel (.call callee closing arguments)
      else if ← accept .dot then
        let name ← expect .identifier .propertyName
        trailers fuel (.property callee name)
      else
        return callee

/-- Arguments divided by commas, at least one, behind those already collected
in reverse. -/
def arguments
    (fuel : Nat)
    (collected : List Expr) :
    Parser (List Expr) :=
  match fuel with
  | 0 =>
      stop
  | fuel + 1 => do
      count collected .tooManyArguments
      let argument ← expression fuel
      if ← accept .comma then
        arguments fuel (argument :: collected)
      else
        return (argument :: collected).reverse

/-- A literal, a name, `this`, or an expression in parentheses. -/
def primary (fuel : Nat) : Parser Expr :=
  match fuel with
  | 0 =>
      stop
  | fuel + 1 => do
      let token ← peek
      match Expr.ofToken? token with
      | some expr =>
          let _ ← advance
          return expr
      | none =>
          if token.kind = .leftParen then
            let _ ← advance
            nested do
              let inner ← expression fuel
              let _ ← expect .rightParen .groupEnd
              return .group inner
          else
            fail token (.expected .expression)

end

/-! Statements. -/

/-- An expression, unless the next token already ends its place. -/
def optionalExpr
    (fuel : Nat)
    (ending : TokenKind) :
    Parser (Option Expr) := do
  if ← check ending then
    return none
  else
    return some (← expression fuel)

/-- An expression and its semicolon. -/
def terminated
    (fuel : Nat)
    (what : Expectation)
    (make : Expr → Stmt) :
    Parser Stmt := do
  let value ← expression fuel
  let _ ← expect .semicolon what
  return make value

/-- A `return` statement behind its keyword. -/
def returnStatement
    (fuel : Nat)
    (keyword : Token) :
    Parser Stmt := do
  let value ← optionalExpr fuel .semicolon
  let _ ← expect .semicolon .returnEnd
  return .returning keyword value

/-- The declaration of a variable behind its keyword. -/
def variableDeclaration (fuel : Nat) : Parser Stmt := do
  let name ← expect .identifier .variableName
  if ← accept .equal then
    let initial ← expression fuel
    let _ ← expect .semicolon .variableEnd
    return .variableDecl name (some initial)
  else
    let _ ← expect .semicolon .variableEnd
    return .variableDecl name none

/-- Parameters divided by commas, at least one, behind those already collected
in reverse. -/
def parameterNames
    (fuel : Nat)
    (collected : List Token) :
    Parser (List Token) :=
  match fuel with
  | 0 =>
      stop
  | fuel + 1 => do
      count collected .tooManyParameters
      let parameter ← expect .identifier .parameterName
      if ← accept .comma then
        parameterNames fuel (parameter :: collected)
      else
        return (parameter :: collected).reverse

/-- The parameters of a function behind the opening parenthesis. -/
def parameters (fuel : Nat) : Parser (List Token) := do
  if ← check .rightParen then
    return []
  else
    parameterNames fuel []

/-- The name and the parameters of a function. -/
def functionHead
    (fuel : Nat)
    (form : FunctionForm) :
    Parser (Token × List Token) := do
  let name ← expect .identifier (.functionName form)
  let _ ← expect .leftParen (.parametersStart form)
  let parameters ← parameters fuel
  let _ ← expect .rightParen .parametersEnd
  return (name, parameters)

/-- The first clause of a `for` loop: nothing, a variable or an expression. -/
def initialClause (fuel : Nat) : Parser (Option Stmt) := do
  if ← accept .semicolon then
    return none
  else if ← accept (.keyword .varWord) then
    return some (← variableDeclaration fuel)
  else
    return some (← terminated fuel .expressionEnd .expression)

/-- The clauses of a `for` loop behind its keyword. -/
def forClauses (fuel : Nat) : Parser ForClauses := do
  let _ ← expect .leftParen .forStart
  let initial ← initialClause fuel
  let condition ← optionalExpr fuel .semicolon
  let _ ← expect .semicolon .loopConditionEnd
  let increment ← optionalExpr fuel .rightParen
  let _ ← expect .rightParen .forClausesEnd
  return { initial, condition, increment }

/-- A condition in parentheses. -/
def condition
    (fuel : Nat)
    (start : Expectation)
    (ending : Expectation) :
    Parser Expr := do
  let _ ← expect .leftParen start
  let condition ← expression fuel
  let _ ← expect .rightParen ending
  return condition

/-- Whether a list of declarations ends at the next token. -/
def endsBody (inBlock : Bool) : Parser Bool := do
  if ← atEnd then
    return true
  else if inBlock then
    check .rightBrace
  else
    return false

mutual

/-- A declaration of a class, a function or a variable, or a statement. -/
def declaration (fuel : Nat) : Parser Stmt :=
  match fuel with
  | 0 =>
      stop
  | fuel + 1 => do
      match (← peek).kind with
      | .keyword .classWord =>
          let _ ← advance
          classDeclaration fuel
      | .keyword .funWord =>
          let _ ← advance
          return .functionDecl (← function fuel .function)
      | .keyword .varWord =>
          let _ ← advance
          variableDeclaration fuel
      | _ =>
          statement fuel

/-- A statement that declares nothing. -/
def statement (fuel : Nat) : Parser Stmt :=
  match fuel with
  | 0 =>
      stop
  | fuel + 1 => do
      match (← peek).kind with
      | .keyword .forWord =>
          let _ ← advance
          let clauses ← forClauses fuel
          return clauses.unfold (← statement fuel)
      | .keyword .ifWord =>
          let _ ← advance
          let condition ← condition fuel .ifStart .ifConditionEnd
          let consequent ← statement fuel
          if ← accept (.keyword .elseWord) then
            let alternative ← statement fuel
            return .conditional condition consequent (some alternative)
          else
            return .conditional condition consequent none
      | .keyword .printWord =>
          let _ ← advance
          terminated fuel .printEnd .print
      | .keyword .returnWord =>
          let keyword ← advance
          returnStatement fuel keyword
      | .keyword .whileWord =>
          let _ ← advance
          let condition ← condition fuel .whileStart .whileConditionEnd
          return .loop condition (← statement fuel)
      | .leftBrace =>
          let _ ← advance
          return .block (← block fuel)
      | _ =>
          terminated fuel .expressionEnd .expression

/-- The statements of a block and its closing brace; the opening one has just
been read. -/
def block (fuel : Nat) : Parser (List Stmt) :=
  match fuel with
  | 0 =>
      stop
  | fuel + 1 =>
      nested do
        let statements ← declarations fuel true []
        let _ ← expect .rightBrace .blockEnd
        return statements

/-- Declarations up to the end of the input or, inside a block, up to a closing
brace, behind those already collected in reverse. -/
def declarations
    (fuel : Nat)
    (inBlock : Bool)
    (collected : List Stmt) :
    Parser (List Stmt) :=
  match fuel with
  | 0 =>
      stop
  | fuel + 1 => do
      if ← endsBody inBlock then
        return collected.reverse
      else
        match ← attempt (declaration fuel) with
        | some statement =>
            declarations fuel inBlock (statement :: collected)
        | none =>
            synchronize fuel
            declarations fuel inBlock collected

/-- A function or a method: its name, its parameters and its body. -/
def function
    (fuel : Nat)
    (form : FunctionForm) :
    Parser FunctionDecl :=
  match fuel with
  | 0 =>
      stop
  | fuel + 1 => do
      let (name, parameters) ← functionHead fuel form
      let _ ← expect .leftBrace (.functionBody form)
      let body ← block fuel
      return { name, parameters, body }

/-- A class behind its keyword. -/
def classDeclaration (fuel : Nat) : Parser Stmt :=
  match fuel with
  | 0 =>
      stop
  | fuel + 1 => do
      let name ← expect .identifier .className
      let _ ← expect .leftBrace .classBody
      let methods ← methods fuel []
      let _ ← expect .rightBrace .classEnd
      return .classDecl name methods

/-- Methods up to a closing brace or the end of the input, behind those already
collected in reverse. -/
def methods
    (fuel : Nat)
    (collected : List FunctionDecl) :
    Parser (List FunctionDecl) :=
  match fuel with
  | 0 =>
      stop
  | fuel + 1 => do
      if ← endsBody true then
        return collected.reverse
      else
        let method ← function fuel .method
        methods fuel (method :: collected)

end

/-- A slice that ends the input: without a last token that does, one is added on
the line of the last token. -/
def closed (tokens : List Token) : List Token :=
  match tokens.getLast? with
  | none =>
      [.endAt 1]
  | some last =>
      if last.kind = .endOfInput then
        tokens
      else
        tokens ++ [.endAt last.line]

/-- Parse a slice of tokens from its start. -/
def parse
    (fuel : Nat)
    (tokens : List Token) :
    Ran (List Stmt) :=
  declarations fuel false [] (closed tokens)
    { current := 0, depth := 0, reported := [] }

end Script.Slice
