import Script.Proofs.Printing.Shape

namespace Script

/-!
# The shapes of trees

Every tree has a shape, and what is printed for the tree is the shape.
-/

open SExpression

/-- The shape of a literal. -/
def Literal.shape : Literal → Shape
  | .nil =>
      .word (Text.utf8 "nil")
  | .bool value =>
      .word (Text.ofBool value)
  | .number value =>
      .number value
  | .text value =>
      .string value
  | .foreign =>
      .word (Text.utf8 "<unknown>")

/-- The shape of a name or of an operator. -/
def Token.shape (token : Token) : Shape :=
  .word token.lexeme

/-- A list that begins with a word. -/
def SExpression.Shape.headed
    (head : String)
    (items : List Shape) :
    Shape :=
  .list (.word (Text.utf8 head) :: items)

mutual

/-- The shape of an expression. -/
def Expr.shape : Expr → Shape
  | .literal value =>
      value.shape
  | .group inner =>
      .headed "group" [inner.shape]
  | .unary operator operand =>
      .list [operator.shape, operand.shape]
  | .binary left operator right =>
      .list [operator.shape, left.shape, right.shape]
  | .logical left operator right =>
      .list [operator.shape, left.shape, right.shape]
  | .reference name _ =>
      name.shape
  | .assign name value _ =>
      .headed "=" [name.shape, value.shape]
  | .call callee _ arguments =>
      .headed "call" (callee.shape :: Expr.shapes arguments)
  | .property object name =>
      .headed "." [object.shape, name.shape]
  | .setProperty object name value =>
      .headed "=." [object.shape, name.shape, value.shape]
  | .receiver _ _ =>
      .word (Text.utf8 "this")
  | .missing =>
      .word (Text.utf8 "<unknown>")

/-- The shapes of expressions. -/
def Expr.shapes : List Expr → List Shape
  | [] =>
      []
  | first :: rest =>
      first.shape :: Expr.shapes rest

end

/-- The shape of an expression that may be left out. -/
def Expr.optionalShape (value : Option Expr) : List Shape :=
  (value.map Expr.shape).toList

mutual

/-- The shape of a statement. -/
def Stmt.shape : Stmt → Shape
  | .expression value =>
      .headed "expr" [value.shape]
  | .print value =>
      .headed "print" [value.shape]
  | .variableDecl name initial =>
      .headed "var" (name.shape :: Expr.optionalShape initial)
  | .block body =>
      .headed "block" (Stmt.shapes body)
  | .conditional condition consequent none =>
      .headed "if" [condition.shape, consequent.shape]
  | .conditional condition consequent (some alternative) =>
      .headed "if" [condition.shape, consequent.shape, alternative.shape]
  | .loop condition body =>
      .headed "while" [condition.shape, body.shape]
  | .functionDecl function =>
      function.shape
  | .returning _ value =>
      .headed "return" (Expr.optionalShape value)
  | .classDecl name methods =>
      .headed "class" (name.shape :: FunctionDecl.shapes methods)
  | .missing =>
      .word (Text.utf8 "<unknown>")

/-- The shapes of statements. -/
def Stmt.shapes : List Stmt → List Shape
  | [] =>
      []
  | first :: rest =>
      first.shape :: Stmt.shapes rest

/-- The shape of a function. -/
def FunctionDecl.shape : FunctionDecl → Shape
  | { name, parameters, body } =>
      .headed "fun"
        (name.shape :: .list (parameters.map Token.shape) :: Stmt.shapes body)

/-- The shapes of functions. -/
def FunctionDecl.shapes : List FunctionDecl → List Shape
  | [] =>
      []
  | first :: rest =>
      first.shape :: FunctionDecl.shapes rest

end

namespace SExpression

open Shape

theorem literal_eq_write
    (value : Literal)
    (after : Text) :
    value.sexpr ++ after = value.shape.write after := by
  cases value <;> rw [Literal.shape, write] <;> rfl

theorem write_headed
    (head : String)
    (items : List Shape)
    (after : Text) :
    (headed head items).write after =
      opened (Text.utf8 head) (writeRest items (closed after)) := by
  simp [headed, write, writeItems, opened]

theorem names_eq_write :
    (tokens : List Token) →
    ∀ after, names tokens after = writeItems (tokens.map Token.shape) after
  | [], after => by
      rw [names, List.map_nil, writeItems]
  | [name], after => by
      simp only [names, List.map_cons, List.map_nil, writeItems, writeRest,
        Token.shape, write]
  | name :: second :: rest, after => by
      have later := names_eq_write (second :: rest) after
      simp only [List.map_cons, writeItems, writeRest, Token.shape, write]
        at later ⊢
      rw [names, later]
      exact List.cons_ne_nil second rest

mutual

theorem expr_eq_write :
    (shown : Expr) →
    ∀ after, expr shown after = shown.shape.write after
  | .literal value, after => by
      rw [expr, Expr.shape, literal_eq_write]
  | .reference name _, after => by
      rw [expr, Expr.shape, Token.shape, write]
  | .receiver _ _, after | .missing, after => by
      rw [expr, Expr.shape, write]
  | .group inner, after => by
      simp only [expr, Expr.shape, write_headed, writeRest,
        expr_eq_write inner]
  | .unary _ operand, after => by
      simp only [expr, Expr.shape, Token.shape, write, writeItems, writeRest,
        expr_eq_write operand, opened, List.cons_append]
  | .binary left _ right, after | .logical left _ right, after => by
      simp only [expr, Expr.shape, Token.shape, write, writeItems, writeRest,
        expr_eq_write left, expr_eq_write right, opened, List.cons_append]
  | .assign _ value _, after => by
      simp only [expr, Expr.shape, Token.shape, write_headed, write, writeRest,
        expr_eq_write value]
      rfl
  | .call callee _ arguments, after => by
      simp only [expr, Expr.shape, write_headed, writeRest,
        expr_eq_write callee, exprs_eq_write arguments]
  | .property object _, after => by
      simp only [expr, Expr.shape, Token.shape, write_headed, write, writeRest,
        expr_eq_write object]
      rfl
  | .setProperty object _ value, after => by
      simp only [expr, Expr.shape, Token.shape, write_headed, write, writeRest,
        expr_eq_write object, expr_eq_write value]
      rfl

theorem exprs_eq_write :
    (shown : List Expr) →
    ∀ after, exprs shown after = writeRest (Expr.shapes shown) after
  | [], after => by
      simp only [exprs, Expr.shapes, writeRest]
  | first :: rest, after => by
      simp only [exprs, Expr.shapes, writeRest, expr_eq_write first,
        exprs_eq_write rest]

end

theorem optionalExpr_eq_write
    (shown : Option Expr)
    (after : Text) :
    optionalExpr shown after = writeRest (Expr.optionalShape shown) after := by
  cases shown with
  | none =>
      rfl
  | some value =>
      exact exprs_eq_write [value] after

mutual

theorem stmt_eq_write :
    (shown : Stmt) →
    ∀ after, stmt shown after = shown.shape.write after
  | .expression value, after | .print value, after => by
      simp only [stmt, Stmt.shape, write_headed, writeRest,
        expr_eq_write value]
      rfl
  | .variableDecl name initial, after => by
      simp only [stmt, Stmt.shape, Token.shape, write_headed, writeRest, write,
        optionalExpr_eq_write]
      rfl
  | .block body, after => by
      simp only [stmt, Stmt.shape, write_headed, stmts_eq_write body]
  | .conditional condition consequent none, after => by
      simp only [stmt, Stmt.shape, write_headed, writeRest,
        expr_eq_write condition, stmt_eq_write consequent]
      rfl
  | .conditional condition consequent (some alternative), after => by
      simp only [stmt, Stmt.shape, write_headed, writeRest,
        expr_eq_write condition, stmt_eq_write consequent,
        stmt_eq_write alternative]
      rfl
  | .loop condition body, after => by
      simp only [stmt, Stmt.shape, write_headed, writeRest,
        expr_eq_write condition, stmt_eq_write body]
      rfl
  | .functionDecl declared, after => by
      simp only [stmt, Stmt.shape, function_eq_write declared]
  | .returning _ value, after => by
      simp only [stmt, Stmt.shape, write_headed, optionalExpr_eq_write]
  | .classDecl name methods, after => by
      simp only [stmt, Stmt.shape, Token.shape, write_headed, writeRest, write,
        functions_eq_write methods]
      rfl
  | .missing, after => by
      rw [stmt, Stmt.shape, write]

theorem stmts_eq_write :
    (shown : List Stmt) →
    ∀ after, stmts shown after = writeRest (Stmt.shapes shown) after
  | [], after => by
      simp only [stmts, Stmt.shapes, writeRest]
  | first :: rest, after => by
      simp only [stmts, Stmt.shapes, writeRest, stmt_eq_write first,
        stmts_eq_write rest]

theorem function_eq_write :
    (shown : FunctionDecl) →
    ∀ after, function shown after = shown.shape.write after
  | { name, parameters, body }, after => by
      simp only [function, FunctionDecl.shape, Token.shape, write_headed,
        writeRest, write, names_eq_write, stmts_eq_write body]
      rfl

theorem functions_eq_write :
    (shown : List FunctionDecl) →
    ∀ after,
      functions shown after = writeRest (FunctionDecl.shapes shown) after
  | [], after => by
      simp only [functions, FunctionDecl.shapes, writeRest]
  | first :: rest, after => by
      simp only [functions, FunctionDecl.shapes, writeRest,
        function_eq_write first, functions_eq_write rest]

end

end SExpression

/-- What is printed for statements are their shapes on lines of their own. -/
theorem Stmt.sexprLines_eq_writeLines (stmts : List Stmt) :
    Stmt.sexprLines stmts = SExpression.Shape.writeLines (Stmt.shapes stmts) := by
  induction stmts with
  | nil =>
      rw [Stmt.shapes]
      rfl
  | cons first rest inductionHypothesis =>
      rw [Stmt.shapes, SExpression.Shape.writeLines, ← inductionHypothesis,
        Stmt.sexprLines, List.flatMap_cons, Stmt.sexpr,
        SExpression.stmt_eq_write, List.append_assoc,
        SExpression.Shape.write_append]
      rfl

end Script
