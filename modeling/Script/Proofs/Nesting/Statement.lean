import Script.Proofs.Nesting.Expression
import Script.Tree.StmtParser

namespace Script

/-!
# Routines for statements

The texts of the functions that parse statements, and that running them is what
the functions do.  A list of declarations is the one place where a failure is
recovered from.
-/

namespace Routine

/-- An expression, unless the next token already ends its place. -/
def optionalExpr (ending : TokenKind) : Routine (Option Expr) := do
  if ← sees ending then
    return none
  else
    return some (← expr)

/-- An expression and its semicolon. -/
def expressionStatement : Routine Stmt := do
  let value ← expr
  let _ ← expect .semicolon .expressionEnd
  return .expression value

/-- A `print` statement behind its keyword. -/
def printStatement : Routine Stmt := do
  let value ← expr
  let _ ← expect .semicolon .printEnd
  return .print value

/-- A `return` statement behind its keyword. -/
def returnStatement (keyword : Token) : Routine Stmt := do
  let value ← optionalExpr .semicolon
  let _ ← expect .semicolon .returnEnd
  return .returning keyword value

/-- The value that a variable is declared with, if there is one. -/
def initialValue : Routine (Option Expr) := do
  match ← accept .equal with
  | some _ =>
      return some (← expr)
  | none =>
      return none

/-- The declaration of a variable behind its keyword. -/
def variableDeclaration : Routine Stmt := do
  let name ← expect .identifier .variableName
  let initial ← initialValue
  let _ ← expect .semicolon .variableEnd
  return .variableDecl name initial

/-- Complain about one more parameter when the list is full already. -/
def countParameter (collected : List Token) : Routine Unit := do
  if Cursor.maximalArguments ≤ collected.length then
    report (← peek) .tooManyParameters

/-- Parameters divided by commas, at least one, behind those already collected
in reverse. -/
def parameterNames
    (fuel : Nat)
    (collected : List Token) :
    Routine (List Token) :=
  match fuel with
  | 0 =>
      giveUp
  | fuel + 1 => do
      countParameter collected
      let parameter ← expect .identifier .parameterName
      match ← accept .comma with
      | some _ =>
          parameterNames fuel (parameter :: collected)
      | none =>
          return (parameter :: collected).reverse

/-- The parameters of a function, if there are any. -/
def parameters : Routine (List Token) := do
  if ← sees .rightParen then
    return []
  else
    parameterNames ((← tokens).length + 1) []

/-- The name and the parameters of a function. -/
def functionHead (form : FunctionForm) : Routine (Token × List Token) := do
  let name ← expect .identifier (.functionName form)
  let _ ← expect .leftParen (.parametersStart form)
  let parameters ← parameters
  let _ ← expect .rightParen .parametersEnd
  return (name, parameters)

/-- The first clause of a `for` loop: nothing, a variable or an expression. -/
def initialClause : Routine (Option Stmt) := do
  match ← accept .semicolon with
  | some _ =>
      return none
  | none => do
      match ← accept (.keyword .varWord) with
      | some _ =>
          return some (← variableDeclaration)
      | none =>
          return some (← expressionStatement)

/-- The clauses of a `for` loop behind its keyword. -/
def forClauses : Routine ForClauses := do
  let _ ← expect .leftParen .forStart
  let initial ← initialClause
  let condition ← optionalExpr .semicolon
  let _ ← expect .semicolon .loopConditionEnd
  let increment ← optionalExpr .rightParen
  let _ ← expect .rightParen .forClausesEnd
  return { initial, condition, increment }

/-- A condition in parentheses. -/
def condition
    (start : Expectation)
    (ending : Expectation) :
    Routine Expr := do
  let _ ← expect .leftParen start
  let condition ← expr
  let _ ← expect .rightParen ending
  return condition

mutual

/-- A declaration of a class, a function or a variable, or a statement. -/
def declaration (fuel : Nat) : Routine Stmt :=
  match fuel with
  | 0 =>
      giveUp
  | fuel + 1 => do
      match ← tokens with
      | [] =>
          statement fuel
      | first :: _ =>
          match first.kind with
          | .keyword .classWord => do
              skip
              classDeclaration fuel
          | .keyword .funWord => do
              skip
              return .functionDecl (← function fuel .function)
          | .keyword .varWord => do
              skip
              variableDeclaration
          | _ =>
              statement fuel

/-- A statement that declares nothing. -/
def statement (fuel : Nat) : Routine Stmt :=
  match fuel with
  | 0 =>
      giveUp
  | fuel + 1 => do
      match ← tokens with
      | [] =>
          expressionStatement
      | first :: _ =>
          match first.kind with
          | .keyword .forWord => do
              skip
              let clauses ← forClauses
              return clauses.unfold (← statement fuel)
          | .keyword .ifWord => do
              skip
              let condition ← condition .ifStart .ifConditionEnd
              let consequent ← statement fuel
              match ← accept (.keyword .elseWord) with
              | some _ => do
                  let alternative ← statement fuel
                  return .conditional condition consequent (some alternative)
              | none =>
                  return .conditional condition consequent none
          | .keyword .printWord => do
              skip
              printStatement
          | .keyword .returnWord => do
              skip
              returnStatement first
          | .keyword .whileWord => do
              skip
              let condition ← condition .whileStart .whileConditionEnd
              return .loop condition (← statement fuel)
          | .leftBrace => do
              skip
              return .block (← block fuel first)
          | _ =>
              expressionStatement

/-- The statements of a block and its closing brace; `opening` is the brace just
read. -/
def block
    (fuel : Nat)
    (opening : Token) :
    Routine (List Stmt) :=
  match fuel with
  | 0 =>
      giveUp
  | fuel + 1 =>
      within opening do
        let statements ← declarations fuel true []
        let _ ← expect .rightBrace .blockEnd
        return statements

/-- Declarations up to the end of the input or, inside a block, up to a closing
brace, behind those already collected in reverse. -/
def declarations
    (fuel : Nat)
    (inBlock : Bool)
    (collected : List Stmt) :
    Routine (List Stmt) :=
  match fuel with
  | 0 =>
      return collected.reverse
  | fuel + 1 => do
      let left ← tokens
      let closing ← sees .rightBrace
      if left.isEmpty || inBlock && closing then
        return collected.reverse
      else do
        match ← recover (declaration fuel) with
        | some statement =>
            declarations fuel inBlock (statement :: collected)
        | none =>
            declarations fuel inBlock collected

/-- A function or a method: its name, its parameters and its body. -/
def function
    (fuel : Nat)
    (form : FunctionForm) :
    Routine FunctionDecl :=
  match fuel with
  | 0 =>
      giveUp
  | fuel + 1 => do
      let head ← functionHead form
      let opening ← expect .leftBrace (.functionBody form)
      let body ← block fuel opening
      return { name := head.1, parameters := head.2, body }

/-- A class behind its keyword. -/
def classDeclaration (fuel : Nat) : Routine Stmt :=
  match fuel with
  | 0 =>
      giveUp
  | fuel + 1 => do
      let name ← expect .identifier .className
      let _ ← expect .leftBrace .classBody
      let methods ← methods fuel []
      let _ ← expect .rightBrace .classEnd
      return .classDecl name methods

/-- Methods up to a closing brace or the end of the input, behind those already
collected in reverse. -/
def methods
    (fuel : Nat)
    (collected : List FunctionDecl) :
    Routine (List FunctionDecl) :=
  match fuel with
  | 0 =>
      giveUp
  | fuel + 1 => do
      let left ← tokens
      let closing ← sees .rightBrace
      if left.isEmpty || closing then
        return collected.reverse
      else do
        let method ← function fuel .method
        methods fuel (method :: collected)

end

/-! Running the texts. -/

/-- A step whose value goes with a closing token behind it. -/
theorem run_terminated
    {body : Routine α}
    {step : Step α}
    {cursor : Cursor}
    (kind : TokenKind)
    (what : Expectation)
    (shape : α → β)
    (same : body.run cursor = step) :
    (do
      let value ← body
      let _ ← expect kind what
      return shape value : Routine β).run cursor =
      step.bind fun value after =>
        (after.expect kind what).map fun _ => shape value :=
  run_bind_of same fun _ after =>
    run_bind_of (run_expect kind what after) fun _ _ => rfl

theorem run_optionalExpr
    (ending : TokenKind)
    (cursor : Cursor) :
    (optionalExpr ending).run cursor =
      Stmt.Parser.optionalExpr ending cursor := by
  rw [optionalExpr, Stmt.Parser.optionalExpr, run_sees_bind]
  split
  · rfl
  · exact run_bind_of (run_expr cursor) fun _ _ => rfl

theorem run_expressionStatement (cursor : Cursor) :
    expressionStatement.run cursor =
      Stmt.Parser.expressionStatement cursor :=
  run_terminated .semicolon .expressionEnd Stmt.expression (run_expr cursor)

theorem run_printStatement (cursor : Cursor) :
    printStatement.run cursor = Stmt.Parser.printStatement cursor :=
  run_terminated .semicolon .printEnd Stmt.print (run_expr cursor)

theorem run_returnStatement
    (keyword : Token)
    (cursor : Cursor) :
    (returnStatement keyword).run cursor =
      Stmt.Parser.returnStatement keyword cursor :=
  run_terminated .semicolon .returnEnd (Stmt.returning keyword)
    (run_optionalExpr .semicolon cursor)

theorem run_initialValue (cursor : Cursor) :
    initialValue.run cursor =
      match cursor.accept? .equal with
      | some (_, after) =>
          (Expr.parse after).map some
      | none =>
          .done none cursor := by
  rw [initialValue, run_accept_bind]
  cases cursor.accept? .equal with
  | some accepted =>
      exact run_bind_of (run_expr accepted.2) fun _ _ => rfl
  | none =>
      rfl

theorem run_variableDeclaration (cursor : Cursor) :
    variableDeclaration.run cursor =
      Stmt.Parser.variableDeclaration cursor :=
  run_bind_of (run_expect .identifier .variableName cursor)
    fun name after =>
      run_terminated .semicolon .variableEnd (Stmt.variableDecl name)
        (run_initialValue after)

theorem run_countParameter
    (collected : List Token)
    (cursor : Cursor) :
    (countParameter collected).run cursor =
      .done () (Stmt.Parser.countParameter collected cursor) := by
  unfold countParameter Stmt.Parser.countParameter
  split <;> rfl

theorem run_parameterNames
    (fuel : Nat)
    (collected : List Token)
    (cursor : Cursor) :
    (parameterNames fuel collected).run cursor =
      Stmt.Parser.parameterNames fuel collected cursor := by
  induction fuel generalizing collected cursor with
  | zero =>
      rfl
  | succ fuel inductionHypothesis =>
      rw [parameterNames, Stmt.Parser.parameterNames, run_bind,
        run_countParameter]
      refine run_bind_of (run_expect .identifier .parameterName _)
        fun parameter after => ?_
      rw [run_accept_bind]
      cases after.accept? .comma with
      | some comma =>
          exact inductionHypothesis (parameter :: collected) comma.2
      | none =>
          rfl

theorem run_parameters (cursor : Cursor) :
    parameters.run cursor =
      if cursor.sees .rightParen then
        .done [] cursor
      else
        Stmt.Parser.parameterNames (cursor.rest.length + 1) [] cursor := by
  rw [parameters, run_sees_bind]
  split
  · rfl
  · exact run_parameterNames (cursor.rest.length + 1) [] cursor

theorem run_functionHead
    (form : FunctionForm)
    (cursor : Cursor) :
    (functionHead form).run cursor =
      Stmt.Parser.functionHead form cursor := by
  refine run_bind_of (run_expect .identifier (.functionName form) cursor)
    fun name afterName => ?_
  refine run_bind_of (run_expect .leftParen (.parametersStart form) afterName)
    fun _ afterOpening => ?_
  exact run_terminated .rightParen .parametersEnd (name, ·)
    (run_parameters afterOpening)

theorem run_initialClause (cursor : Cursor) :
    initialClause.run cursor = Stmt.Parser.initialClause cursor := by
  rw [initialClause, Stmt.Parser.initialClause, run_accept_bind]
  cases cursor.accept? .semicolon with
  | some _ =>
      rfl
  | none =>
      dsimp only
      rw [run_accept_bind]
      cases cursor.accept? (.keyword .varWord) with
      | some accepted =>
          exact run_bind_of (run_variableDeclaration accepted.2)
            fun _ _ => rfl
      | none =>
          exact run_bind_of (run_expressionStatement cursor) fun _ _ => rfl

theorem run_forClauses (cursor : Cursor) :
    forClauses.run cursor = Stmt.Parser.forClauses cursor := by
  refine run_bind_of (run_expect .leftParen .forStart cursor)
    fun _ afterOpening => ?_
  refine run_bind_of (run_initialClause afterOpening)
    fun initial afterInitial => ?_
  refine run_bind_of (run_optionalExpr .semicolon afterInitial)
    fun condition afterCondition => ?_
  refine run_bind_of (run_expect .semicolon .loopConditionEnd afterCondition)
    fun _ afterSemicolon => ?_
  exact run_terminated .rightParen .forClausesEnd
    (ForClauses.mk initial condition)
    (run_optionalExpr .rightParen afterSemicolon)

theorem run_condition
    (start ending : Expectation)
    (cursor : Cursor) :
    (condition start ending).run cursor =
      Stmt.Parser.condition start ending cursor :=
  run_bind_of (run_expect .leftParen start cursor) fun _ afterOpening =>
    run_terminated .rightParen ending id (run_expr afterOpening)

/-- Within a bound the routines for statements run as the functions do. -/
structure RunsStmt (fuel : Nat) : Prop where
  declaration :
    ∀ cursor : Cursor,
      (declaration fuel).run cursor = Stmt.Parser.declaration fuel cursor
  statement :
    ∀ cursor : Cursor,
      (statement fuel).run cursor = Stmt.Parser.statement fuel cursor
  block :
    ∀ (opening : Token) (cursor : Cursor),
      (block fuel opening).run cursor =
        Stmt.Parser.block fuel opening cursor
  declarations :
    ∀ (inBlock : Bool) (collected : List Stmt) (cursor : Cursor),
      let read := Stmt.Parser.declarations fuel inBlock collected cursor
      (declarations fuel inBlock collected).run cursor =
        .done read.1 read.2
  function :
    ∀ (form : FunctionForm) (cursor : Cursor),
      (function fuel form).run cursor =
        Stmt.Parser.function fuel form cursor
  classDeclaration :
    ∀ cursor : Cursor,
      (classDeclaration fuel).run cursor =
        Stmt.Parser.classDeclaration fuel cursor
  methods :
    ∀ (collected : List FunctionDecl) (cursor : Cursor),
      (methods fuel collected).run cursor =
        Stmt.Parser.methods fuel collected cursor

theorem runsStmt_zero : RunsStmt 0 where
  declaration _ := rfl
  statement _ := rfl
  block _ _ := rfl
  declarations _ _ _ := rfl
  function _ _ := rfl
  classDeclaration _ := rfl
  methods _ _ := rfl

variable {fuel : Nat}

theorem run_declaration
    (smaller : RunsStmt fuel)
    (cursor : Cursor) :
    (declaration (fuel + 1)).run cursor =
      Stmt.Parser.declaration (fuel + 1) cursor := by
  rw [declaration, Stmt.Parser.declaration, run_tokens_bind]
  cases shape : cursor.rest with
  | nil =>
      exact smaller.statement cursor
  | cons first rest =>
      let following : Cursor := { cursor with rest }
      dsimp only
      cases first.kind with
      | keyword word =>
          cases word with
          | classWord =>
              exact (run_skip_bind shape _).trans
                (smaller.classDeclaration following)
          | funWord =>
              refine (run_skip_bind shape _).trans ?_
              exact run_bind_of (smaller.function .function following)
                fun _ _ => rfl
          | varWord =>
              exact (run_skip_bind shape _).trans
                (run_variableDeclaration following)
          | _ =>
              exact smaller.statement cursor
      | _ =>
          exact smaller.statement cursor

theorem run_conditional
    (smaller : RunsStmt fuel)
    (cursor : Cursor) :
    (do
      let condition ← condition .ifStart .ifConditionEnd
      let consequent ← statement fuel
      match ← accept (.keyword .elseWord) with
      | some _ => do
          let alternative ← statement fuel
          return .conditional condition consequent (some alternative)
      | none =>
          return .conditional condition consequent none : Routine Stmt).run
        cursor =
      (Stmt.Parser.condition .ifStart .ifConditionEnd cursor).bind
        fun condition cursor =>
          (Stmt.Parser.statement fuel cursor).bind fun consequent cursor =>
            match cursor.accept? (.keyword .elseWord) with
            | some (_, cursor) =>
                (Stmt.Parser.statement fuel cursor).map fun alternative =>
                  .conditional condition consequent (some alternative)
            | none =>
                .done (.conditional condition consequent none) cursor := by
  refine run_bind_of (run_condition .ifStart .ifConditionEnd cursor)
    fun condition afterCondition => ?_
  refine run_bind_of (smaller.statement afterCondition)
    fun consequent afterConsequent => ?_
  rw [run_accept_bind]
  cases afterConsequent.accept? (.keyword .elseWord) with
  | some accepted =>
      exact run_bind_of (smaller.statement accepted.2) fun _ _ => rfl
  | none =>
      rfl

theorem run_statement
    (smaller : RunsStmt fuel)
    (cursor : Cursor) :
    (statement (fuel + 1)).run cursor =
      Stmt.Parser.statement (fuel + 1) cursor := by
  rw [statement, Stmt.Parser.statement, run_tokens_bind]
  cases shape : cursor.rest with
  | nil =>
      exact run_expressionStatement cursor
  | cons first rest =>
      let following : Cursor := { cursor with rest }
      dsimp only
      cases first.kind with
      | keyword word =>
          cases word with
          | forWord =>
              refine (run_skip_bind shape _).trans ?_
              refine run_bind_of (run_forClauses following)
                fun clauses afterClauses => ?_
              exact run_bind_of (smaller.statement afterClauses)
                fun _ _ => rfl
          | ifWord =>
              exact (run_skip_bind shape _).trans
                (run_conditional smaller following)
          | printWord =>
              exact (run_skip_bind shape _).trans
                (run_printStatement following)
          | returnWord =>
              exact (run_skip_bind shape _).trans
                (run_returnStatement first following)
          | whileWord =>
              refine (run_skip_bind shape _).trans ?_
              refine run_bind_of
                (run_condition .whileStart .whileConditionEnd following)
                fun condition afterCondition => ?_
              exact run_bind_of (smaller.statement afterCondition)
                fun _ _ => rfl
          | _ =>
              exact run_expressionStatement cursor
      | leftBrace =>
          refine (run_skip_bind shape _).trans ?_
          exact run_bind_of (smaller.block first following) fun _ _ => rfl
      | _ =>
          exact run_expressionStatement cursor

theorem run_block
    (smaller : RunsStmt fuel)
    (opening : Token)
    (cursor : Cursor) :
    (block (fuel + 1) opening).run cursor =
      Stmt.Parser.block (fuel + 1) opening cursor := by
  rw [block, Stmt.Parser.block, run_within]
  congr 1
  funext inner
  exact run_terminated .rightBrace .blockEnd id
    (smaller.declarations true [] inner)

theorem run_declarations
    (smaller : RunsStmt fuel)
    (inBlock : Bool)
    (collected : List Stmt)
    (cursor : Cursor) :
    let read := Stmt.Parser.declarations (fuel + 1) inBlock collected cursor
    (declarations (fuel + 1) inBlock collected).run cursor =
      .done read.1 read.2 := by
  rw [declarations, Stmt.Parser.declarations, run_tokens_bind,
    run_sees_bind]
  split
  · rfl
  · rw [run_bind, run_recover, smaller.declaration cursor]
    cases Stmt.Parser.declaration fuel cursor with
    | done statement after =>
        exact smaller.declarations inBlock (statement :: collected) after
    | failed after =>
        exact smaller.declarations inBlock collected after.synchronize

theorem run_function
    (smaller : RunsStmt fuel)
    (form : FunctionForm)
    (cursor : Cursor) :
    (function (fuel + 1) form).run cursor =
      Stmt.Parser.function (fuel + 1) form cursor := by
  rw [function, Stmt.Parser.function]
  refine run_bind_of (run_functionHead form cursor) fun head afterHead => ?_
  refine run_bind_of (run_expect .leftBrace (.functionBody form) afterHead)
    fun opening afterOpening => ?_
  exact run_bind_of (smaller.block opening afterOpening) fun _ _ => rfl

theorem run_classDeclaration
    (smaller : RunsStmt fuel)
    (cursor : Cursor) :
    (classDeclaration (fuel + 1)).run cursor =
      Stmt.Parser.classDeclaration (fuel + 1) cursor := by
  rw [classDeclaration, Stmt.Parser.classDeclaration]
  refine run_bind_of (run_expect .identifier .className cursor)
    fun name afterName => ?_
  refine run_bind_of (run_expect .leftBrace .classBody afterName)
    fun _ afterOpening => ?_
  exact run_terminated .rightBrace .classEnd (Stmt.classDecl name)
    (smaller.methods [] afterOpening)

theorem run_methods
    (smaller : RunsStmt fuel)
    (collected : List FunctionDecl)
    (cursor : Cursor) :
    (methods (fuel + 1) collected).run cursor =
      Stmt.Parser.methods (fuel + 1) collected cursor := by
  rw [methods, Stmt.Parser.methods, run_tokens_bind, run_sees_bind]
  split
  · rfl
  · exact run_bind_of (smaller.function .method cursor)
      fun method => smaller.methods (method :: collected)

/-- The routines for statements run as the functions do. -/
theorem runsStmt (fuel : Nat) : RunsStmt fuel := by
  induction fuel with
  | zero =>
      exact runsStmt_zero
  | succ fuel smaller =>
      exact
        { declaration := run_declaration smaller
          statement := run_statement smaller
          block := run_block smaller
          declarations := run_declarations smaller
          function := run_function smaller
          classDeclaration := run_classDeclaration smaller
          methods := run_methods smaller }

end Routine

end Script
