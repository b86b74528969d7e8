import Script.Proofs.Nesting.Routine
import Script.Tree.ExprParser

namespace Script

/-!
# Routines for expressions

The texts of the functions that parse expressions, and that running them is what
the functions do.
-/

namespace Routine

/-- An assignment to a target; one that is no target is a problem. -/
def assignTo
    (target : Expr)
    (equals : Token)
    (value : Expr) :
    Routine Expr :=
  match target with
  | .reference name _ =>
      return .assign name value none
  | .property object name =>
      return .setProperty object name value
  | _ => do
      report equals .invalidTarget
      return value

/-- Complain about one more argument when the list is full already. -/
def countArgument (collected : List Expr) : Routine Unit := do
  if Cursor.maximalArguments ≤ collected.length then
    report (← peek) .tooManyArguments

/-- Read a unary operator if it is next. -/
def acceptUnary : Routine (Option Token) := do
  match ← accept .bang with
  | some operator =>
      return some operator
  | none =>
      accept .minus

mutual

/-- An expression: an assignment, or an operand with operators. -/
def expression (fuel : Nat) : Routine Expr :=
  match fuel with
  | 0 =>
      giveUp
  | fuel + 1 => do
      let target ← operation fuel 0
      match ← accept .equal with
      | none =>
          return target
      | some equals => do
          let value ← expression fuel
          assignTo target equals value

/-- An operand and the operators behind it that bind at least as tightly as
`level`. -/
def operation
    (fuel : Nat)
    (level : Nat) :
    Routine Expr :=
  match fuel with
  | 0 =>
      giveUp
  | fuel + 1 => do
      let left ← operand fuel
      operators fuel level left

/-- The operators behind a left operand that bind at least as tightly as
`level`. -/
def operators
    (fuel : Nat)
    (level : Nat)
    (left : Expr) :
    Routine Expr :=
  match fuel with
  | 0 =>
      giveUp
  | fuel + 1 => do
      match ← tokens with
      | [] =>
          return left
      | operator :: _ =>
          match operator.kind.precedence? with
          | none =>
              return left
          | some precedence =>
              if precedence < level then
                return left
              else do
                skip
                let right ← operation fuel (precedence + 1)
                operators fuel level (.join left operator right)

/-- A primary expression with what follows it, or a unary operator before an
operand. -/
def operand (fuel : Nat) : Routine Expr :=
  match fuel with
  | 0 =>
      giveUp
  | fuel + 1 => do
      match ← acceptUnary with
      | some operator =>
          within operator do
            return .unary operator (← operand fuel)
      | none => do
          let callee ← primary fuel
          trailers fuel callee

/-- The calls and property reads behind an expression. -/
def trailers
    (fuel : Nat)
    (callee : Expr) :
    Routine Expr :=
  match fuel with
  | 0 =>
      giveUp
  | fuel + 1 => do
      match ← accept .leftParen with
      | some _ => do
          match ← accept .rightParen with
          | some closing =>
              trailers fuel (.call callee closing [])
          | none => do
              let arguments ← arguments fuel []
              let closing ← expect .rightParen .argumentsEnd
              trailers fuel (.call callee closing arguments)
      | none => do
          match ← accept .dot with
          | some _ => do
              let name ← expect .identifier .propertyName
              trailers fuel (.property callee name)
          | none =>
              return callee

/-- Arguments divided by commas, at least one, behind those already collected
in reverse. -/
def arguments
    (fuel : Nat)
    (collected : List Expr) :
    Routine (List Expr) :=
  match fuel with
  | 0 =>
      giveUp
  | fuel + 1 => do
      countArgument collected
      let argument ← expression fuel
      match ← accept .comma with
      | some _ =>
          arguments fuel (argument :: collected)
      | none =>
          return (argument :: collected).reverse

/-- A literal, a name, `this`, or an expression in parentheses. -/
def primary (fuel : Nat) : Routine Expr :=
  match fuel with
  | 0 =>
      giveUp
  | fuel + 1 => do
      match ← tokens with
      | [] => do
          report (← peek) (.expected .expression)
          giveUp
      | token :: _ =>
          match Expr.ofToken? token with
          | some expr => do
              skip
              return expr
          | none =>
              if token.kind = .leftParen then do
                skip
                within token do
                  let inner ← expression fuel
                  let _ ← expect .rightParen .groupEnd
                  return .group inner
              else do
                report token (.expected .expression)
                giveUp

end

/-- Parse an expression. -/
def expr : Routine Expr := do
  expression (6 * (← tokens).length + 6)

/-! Running the texts. -/

theorem run_assignTo
    (target : Expr)
    (equals : Token)
    (value : Expr)
    (cursor : Cursor) :
    (assignTo target equals value).run cursor =
      Expr.assignTo target equals value cursor := by
  cases target <;> rfl

theorem run_countArgument
    (collected : List Expr)
    (cursor : Cursor) :
    (countArgument collected).run cursor =
      .done () (Expr.countArgument collected cursor) := by
  unfold countArgument Expr.countArgument
  split <;> rfl

theorem run_acceptUnary
    (next : Option Token → Routine α)
    (cursor : Cursor) :
    (acceptUnary >>= next).run cursor =
      match (cursor.accept? .bang).or (cursor.accept? .minus) with
      | some (operator, after) =>
          (next (some operator)).run after
      | none =>
          (next none).run cursor := by
  rw [run_bind, acceptUnary, run_accept_bind]
  cases cursor.accept? .bang with
  | some accepted =>
      rfl
  | none =>
      simp only [run_accept, Option.none_or]
      cases cursor.accept? .minus <;> rfl

/-- Within a bound the routines for expressions run as the functions do. -/
structure RunsExpr (fuel : Nat) : Prop where
  expression :
    ∀ cursor : Cursor,
      (expression fuel).run cursor = Expr.Parser.expression fuel cursor
  operation :
    ∀ (level : Nat) (cursor : Cursor),
      (operation fuel level).run cursor =
        Expr.Parser.operation fuel level cursor
  operators :
    ∀ (level : Nat) (left : Expr) (cursor : Cursor),
      (operators fuel level left).run cursor =
        Expr.Parser.operators fuel level left cursor
  operand :
    ∀ cursor : Cursor,
      (operand fuel).run cursor = Expr.Parser.operand fuel cursor
  trailers :
    ∀ (callee : Expr) (cursor : Cursor),
      (trailers fuel callee).run cursor =
        Expr.Parser.trailers fuel callee cursor
  arguments :
    ∀ (collected : List Expr) (cursor : Cursor),
      (arguments fuel collected).run cursor =
        Expr.Parser.arguments fuel collected cursor
  primary :
    ∀ cursor : Cursor,
      (primary fuel).run cursor = Expr.Parser.primary fuel cursor

theorem runsExpr_zero : RunsExpr 0 where
  expression _ := rfl
  operation _ _ := rfl
  operators _ _ _ := rfl
  operand _ := rfl
  trailers _ _ := rfl
  arguments _ _ := rfl
  primary _ := rfl

variable {fuel : Nat}

theorem run_expression
    (smaller : RunsExpr fuel)
    (cursor : Cursor) :
    (expression (fuel + 1)).run cursor =
      Expr.Parser.expression (fuel + 1) cursor := by
  rw [expression, Expr.Parser.expression]
  refine run_bind_of (smaller.operation 0 cursor) fun target after => ?_
  rw [run_accept_bind]
  cases after.accept? .equal with
  | none =>
      rfl
  | some accepted =>
      exact run_bind_of (smaller.expression accepted.2)
        (run_assignTo target accepted.1)

theorem run_operation
    (smaller : RunsExpr fuel)
    (level : Nat)
    (cursor : Cursor) :
    (operation (fuel + 1) level).run cursor =
      Expr.Parser.operation (fuel + 1) level cursor := by
  rw [operation, Expr.Parser.operation]
  exact run_bind_of (smaller.operand cursor) (smaller.operators level)

theorem run_operators
    (smaller : RunsExpr fuel)
    (level : Nat)
    (left : Expr)
    (cursor : Cursor) :
    (operators (fuel + 1) level left).run cursor =
      Expr.Parser.operators (fuel + 1) level left cursor := by
  rw [operators, Expr.Parser.operators, run_tokens_bind]
  cases shape : cursor.rest with
  | nil =>
      rfl
  | cons operator rest =>
      dsimp only
      cases operator.kind.precedence? with
      | none =>
          rfl
      | some precedence =>
          dsimp only
          split
          · rfl
          · rw [run_skip_bind shape]
            exact run_bind_of
              (smaller.operation (precedence + 1) { cursor with rest })
              fun right => smaller.operators level (.join left operator right)

theorem run_operand
    (smaller : RunsExpr fuel)
    (cursor : Cursor) :
    (operand (fuel + 1)).run cursor =
      Expr.Parser.operand (fuel + 1) cursor := by
  rw [operand, Expr.Parser.operand, run_acceptUnary]
  cases (cursor.accept? .bang).or (cursor.accept? .minus) with
  | none =>
      exact run_bind_of (smaller.primary cursor) (smaller.trailers)
  | some accepted =>
      dsimp only
      rw [run_within]
      congr 1
      funext inner
      exact run_bind_of (smaller.operand inner) fun _ _ => rfl

theorem run_trailers
    (smaller : RunsExpr fuel)
    (callee : Expr)
    (cursor : Cursor) :
    (trailers (fuel + 1) callee).run cursor =
      Expr.Parser.trailers (fuel + 1) callee cursor := by
  rw [trailers, Expr.Parser.trailers, run_accept_bind]
  cases cursor.accept? .leftParen with
  | some opened =>
      dsimp only
      rw [run_accept_bind]
      cases opened.2.accept? .rightParen with
      | some closed =>
          exact smaller.trailers (.call callee closed.1 []) closed.2
      | none =>
          refine run_bind_of (smaller.arguments [] opened.2)
            fun arguments after => ?_
          exact run_bind_of (run_expect .rightParen .argumentsEnd after)
            fun closing => smaller.trailers (.call callee closing arguments)
  | none =>
      dsimp only
      rw [run_accept_bind]
      cases cursor.accept? .dot with
      | some dot =>
          exact run_bind_of (run_expect .identifier .propertyName dot.2)
            fun name => smaller.trailers (.property callee name)
      | none =>
          rfl

theorem run_arguments
    (smaller : RunsExpr fuel)
    (collected : List Expr)
    (cursor : Cursor) :
    (arguments (fuel + 1) collected).run cursor =
      Expr.Parser.arguments (fuel + 1) collected cursor := by
  rw [arguments, Expr.Parser.arguments, run_bind, run_countArgument]
  refine run_bind_of (smaller.expression _) fun argument after => ?_
  rw [run_accept_bind]
  cases after.accept? .comma with
  | some comma =>
      exact smaller.arguments (argument :: collected) comma.2
  | none =>
      rfl

theorem run_primary
    (smaller : RunsExpr fuel)
    (cursor : Cursor) :
    (primary (fuel + 1)).run cursor =
      Expr.Parser.primary (fuel + 1) cursor := by
  rw [primary, Expr.Parser.primary, run_tokens_bind]
  cases shape : cursor.rest with
  | nil =>
      rfl
  | cons token rest =>
      dsimp only
      cases Expr.ofToken? token with
      | some expr =>
          exact run_skip_bind shape _
      | none =>
          dsimp only
          split
          · rw [run_skip_bind shape, run_within]
            congr 1
            funext inner
            refine run_bind_of (smaller.expression inner) fun value after => ?_
            exact run_bind_of (run_expect .rightParen .groupEnd after)
              fun _ _ => rfl
          · rfl

/-- The routines for expressions run as the functions do. -/
theorem runsExpr (fuel : Nat) : RunsExpr fuel := by
  induction fuel with
  | zero =>
      exact runsExpr_zero
  | succ fuel smaller =>
      exact
        { expression := run_expression smaller
          operation := run_operation smaller
          operators := run_operators smaller
          operand := run_operand smaller
          trailers := run_trailers smaller
          arguments := run_arguments smaller
          primary := run_primary smaller }

theorem run_expr (cursor : Cursor) :
    expr.run cursor = Expr.parse cursor :=
  (runsExpr _).expression cursor

end Routine

end Script
