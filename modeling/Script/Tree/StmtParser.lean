import Script.Tree.ExprParser

namespace Script

/-!
# Parsing statements

A declaration that fails is abandoned, and parsing goes on with the next
statement of the same block, so that one run reports as many problems as it can.
A `for` loop has no tree of its own: it is written with a `while` loop and
blocks.

As with expressions, the first argument of the functions that call each other
bounds the length of a chain of calls, and six calls for each token are enough.
-/

/-- The clauses in the head of a `for` loop. -/
structure ForClauses where
  initial : Option Stmt
  condition : Option Expr
  increment : Option Expr

namespace ForClauses

/-- The body of the loop, followed by the increment. -/
def iteration
    (clauses : ForClauses)
    (body : Stmt) :
    Stmt :=
  match clauses.increment with
  | none =>
      body
  | some increment =>
      .block [body, .expression increment]

/-- A `for` loop as a `while` loop, in a block of its own with its initial
statement. -/
def unfold
    (clauses : ForClauses)
    (body : Stmt) :
    Stmt :=
  let condition := clauses.condition.getD (.literal (.bool true))
  let loop := Stmt.loop condition (clauses.iteration body)
  match clauses.initial with
  | none =>
      loop
  | some initial =>
      .block [initial, loop]

end ForClauses

namespace Stmt.Parser

/-- An expression, unless the next token already ends its place. -/
def optionalExpr
    (ending : TokenKind)
    (cursor : Cursor) :
    Step (Option Expr) :=
  if cursor.sees ending then
    .done none cursor
  else
    (Expr.parse cursor).map some

/-- An expression and its semicolon. -/
def expressionStatement (cursor : Cursor) : Step Stmt :=
  (Expr.parse cursor).bind fun value cursor =>
    (cursor.expect .semicolon .expressionEnd).map fun _ =>
      .expression value

/-- A `print` statement behind its keyword. -/
def printStatement (cursor : Cursor) : Step Stmt :=
  (Expr.parse cursor).bind fun value cursor =>
    (cursor.expect .semicolon .printEnd).map fun _ =>
      .print value

/-- A `return` statement behind its keyword. -/
def returnStatement
    (keyword : Token)
    (cursor : Cursor) :
    Step Stmt :=
  (optionalExpr .semicolon cursor).bind fun value cursor =>
    (cursor.expect .semicolon .returnEnd).map fun _ =>
      .returning keyword value

/-- The declaration of a variable behind its keyword. -/
def variableDeclaration (cursor : Cursor) : Step Stmt :=
  (cursor.expect .identifier .variableName).bind fun name cursor =>
    let initial :=
      match cursor.accept? .equal with
      | some (_, cursor) =>
          (Expr.parse cursor).map some
      | none =>
          .done none cursor
    initial.bind fun initial cursor =>
      (cursor.expect .semicolon .variableEnd).map fun _ =>
        .variableDecl name initial

/-- Complain about one more parameter when the list is full already. -/
def countParameter
    (collected : List Token)
    (cursor : Cursor) :
    Cursor :=
  if Cursor.maximalArguments ≤ collected.length then
    cursor.report cursor.peek .tooManyParameters
  else
    cursor

/-- Parameters divided by commas, at least one, behind those already collected
in reverse. -/
def parameterNames
    (fuel : Nat)
    (collected : List Token)
    (cursor : Cursor) :
    Step (List Token) :=
  match fuel with
  | 0 =>
      .failed cursor
  | fuel + 1 =>
      ((countParameter collected cursor).expect
          .identifier .parameterName).bind fun parameter cursor =>
        match cursor.accept? .comma with
        | some (_, cursor) =>
            parameterNames fuel (parameter :: collected) cursor
        | none =>
            .done (parameter :: collected).reverse cursor

/-- The name and the parameters of a function. -/
def functionHead
    (form : FunctionForm)
    (cursor : Cursor) :
    Step (Token × List Token) :=
  (cursor.expect .identifier (.functionName form)).bind fun name cursor =>
    (cursor.expect .leftParen (.parametersStart form)).bind fun _ cursor =>
      let parameters :=
        if cursor.sees .rightParen then
          .done [] cursor
        else
          parameterNames (cursor.rest.length + 1) [] cursor
      parameters.bind fun parameters cursor =>
        (cursor.expect .rightParen .parametersEnd).map fun _ =>
          (name, parameters)

/-- The first clause of a `for` loop: nothing, a variable or an expression. -/
def initialClause (cursor : Cursor) : Step (Option Stmt) :=
  match cursor.accept? .semicolon with
  | some (_, cursor) =>
      .done none cursor
  | none =>
      match cursor.accept? (.keyword .varWord) with
      | some (_, cursor) =>
          (variableDeclaration cursor).map some
      | none =>
          (expressionStatement cursor).map some

/-- The clauses of a `for` loop behind its keyword. -/
def forClauses (cursor : Cursor) : Step ForClauses :=
  (cursor.expect .leftParen .forStart).bind fun _ cursor =>
    (initialClause cursor).bind fun initial cursor =>
      (optionalExpr .semicolon cursor).bind fun condition cursor =>
        (cursor.expect .semicolon .loopConditionEnd).bind fun _ cursor =>
          (optionalExpr .rightParen cursor).bind fun increment cursor =>
            (cursor.expect .rightParen .forClausesEnd).map fun _ =>
              { initial, condition, increment }

/-- A condition in parentheses. -/
def condition
    (start : Expectation)
    (ending : Expectation)
    (cursor : Cursor) :
    Step Expr :=
  (cursor.expect .leftParen start).bind fun _ cursor =>
    (Expr.parse cursor).bind fun condition cursor =>
      (cursor.expect .rightParen ending).map fun _ =>
        condition

mutual

/-- A declaration of a class, a function or a variable, or a statement. -/
def declaration
    (fuel : Nat)
    (cursor : Cursor) :
    Step Stmt :=
  match fuel with
  | 0 =>
      .failed cursor
  | fuel + 1 =>
      match cursor.rest with
      | [] =>
          statement fuel cursor
      | first :: rest =>
          match first.kind with
          | .keyword .classWord =>
              classDeclaration fuel { cursor with rest }
          | .keyword .funWord =>
              (function fuel .function { cursor with rest }).map
                .functionDecl
          | .keyword .varWord =>
              variableDeclaration { cursor with rest }
          | _ =>
              statement fuel cursor

/-- A statement that declares nothing. -/
def statement
    (fuel : Nat)
    (cursor : Cursor) :
    Step Stmt :=
  match fuel with
  | 0 =>
      .failed cursor
  | fuel + 1 =>
      match cursor.rest with
      | [] =>
          expressionStatement cursor
      | first :: rest =>
          match first.kind with
          | .keyword .forWord =>
              (forClauses { cursor with rest }).bind fun clauses cursor =>
                (statement fuel cursor).map clauses.unfold
          | .keyword .ifWord =>
              (condition .ifStart .ifConditionEnd
                  { cursor with rest }).bind fun condition cursor =>
                (statement fuel cursor).bind fun consequent cursor =>
                  match cursor.accept? (.keyword .elseWord) with
                  | some (_, cursor) =>
                      (statement fuel cursor).map fun alternative =>
                        .conditional condition consequent (some alternative)
                  | none =>
                      .done (.conditional condition consequent none) cursor
          | .keyword .printWord =>
              printStatement { cursor with rest }
          | .keyword .returnWord =>
              returnStatement first { cursor with rest }
          | .keyword .whileWord =>
              (condition .whileStart .whileConditionEnd
                  { cursor with rest }).bind fun condition cursor =>
                (statement fuel cursor).map (.loop condition)
          | .leftBrace =>
              (block fuel first { cursor with rest }).map .block
          | _ =>
              expressionStatement cursor

/-- The statements of a block and its closing brace; `opening` is the brace just
read. -/
def block
    (fuel : Nat)
    (opening : Token)
    (cursor : Cursor) :
    Step (List Stmt) :=
  match fuel with
  | 0 =>
      .failed cursor
  | fuel + 1 =>
      cursor.nested opening fun cursor =>
        let (statements, cursor) := declarations fuel true [] cursor
        (cursor.expect .rightBrace .blockEnd).map fun _ =>
          statements

/-- Declarations up to the end of the input or, inside a block, up to a closing
brace, behind those already collected in reverse. -/
def declarations
    (fuel : Nat)
    (inBlock : Bool)
    (collected : List Stmt)
    (cursor : Cursor) :
    List Stmt × Cursor :=
  match fuel with
  | 0 =>
      (collected.reverse, cursor)
  | fuel + 1 =>
      if cursor.rest.isEmpty || inBlock && cursor.sees .rightBrace then
        (collected.reverse, cursor)
      else
        match declaration fuel cursor with
        | .done statement cursor =>
            declarations fuel inBlock (statement :: collected) cursor
        | .failed cursor =>
            declarations fuel inBlock collected cursor.synchronize

/-- A function or a method: its name, its parameters and its body. -/
def function
    (fuel : Nat)
    (form : FunctionForm)
    (cursor : Cursor) :
    Step FunctionDecl :=
  match fuel with
  | 0 =>
      .failed cursor
  | fuel + 1 =>
      (functionHead form cursor).bind fun (name, parameters) cursor =>
        (cursor.expect .leftBrace (.functionBody form)).bind
          fun opening cursor =>
            (block fuel opening cursor).map fun body =>
              { name, parameters, body }

/-- A class behind its keyword. -/
def classDeclaration
    (fuel : Nat)
    (cursor : Cursor) :
    Step Stmt :=
  match fuel with
  | 0 =>
      .failed cursor
  | fuel + 1 =>
      (cursor.expect .identifier .className).bind fun name cursor =>
        (cursor.expect .leftBrace .classBody).bind fun _ cursor =>
          (methods fuel [] cursor).bind fun methods cursor =>
            (cursor.expect .rightBrace .classEnd).map fun _ =>
              .classDecl name methods

/-- Methods up to a closing brace or the end of the input, behind those already
collected in reverse. -/
def methods
    (fuel : Nat)
    (collected : List FunctionDecl)
    (cursor : Cursor) :
    Step (List FunctionDecl) :=
  match fuel with
  | 0 =>
      .failed cursor
  | fuel + 1 =>
      if cursor.rest.isEmpty || cursor.sees .rightBrace then
        .done collected.reverse cursor
      else
        (function fuel .method cursor).bind fun method cursor =>
          methods fuel (method :: collected) cursor

end

end Stmt.Parser

end Script
