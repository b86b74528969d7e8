import Script.Proofs.Relabel.Tree
import Script.Tree.SExpression

namespace Script

/-!
# Printing trees on other lines

A printed tree shows the lexemes of its tokens and not their lines.
-/

namespace SExpression

variable {change : Token → Token}

theorem names_map
    (relabels : Relabels change)
    (after : Text) :
    (tokens : List Token) →
    names (tokens.map change) after = names tokens after
  | [] =>
      rfl
  | [name] => by
      simp only [List.map_cons, List.map_nil, names, relabels.lexeme]
  | name :: second :: rest => by
      show (change name).lexeme ++
          spaced (names ((second :: rest).map change) after) =
        name.lexeme ++ spaced (names (second :: rest) after)
      rw [relabels.lexeme, names_map relabels after (second :: rest)]

mutual

theorem expr_relabel
    (relabels : Relabels change) :
    (shown : Expr) →
    ∀ after, expr (shown.relabel change) after = expr shown after
  | .literal _, after | .receiver _ _, after | .missing, after => by
      simp only [Expr.relabel, expr]
  | .reference _ _, after => by
      simp only [Expr.relabel, expr, relabels.lexeme]
  | .group inner, after => by
      simp only [Expr.relabel, expr, expr_relabel relabels inner]
  | .unary _ operand, after => by
      simp only [Expr.relabel, expr, relabels.lexeme,
        expr_relabel relabels operand]
  | .binary left _ right, after | .logical left _ right, after => by
      simp only [Expr.relabel, expr, relabels.lexeme,
        expr_relabel relabels left, expr_relabel relabels right]
  | .assign _ value _, after => by
      simp only [Expr.relabel, expr, relabels.lexeme,
        expr_relabel relabels value]
  | .call callee _ arguments, after => by
      simp only [Expr.relabel, expr, expr_relabel relabels callee,
        exprs_relabelAll relabels arguments]
  | .property object _, after => by
      simp only [Expr.relabel, expr, relabels.lexeme,
        expr_relabel relabels object]
  | .setProperty object _ value, after => by
      simp only [Expr.relabel, expr, relabels.lexeme,
        expr_relabel relabels object, expr_relabel relabels value]

theorem exprs_relabelAll
    (relabels : Relabels change) :
    (shown : List Expr) →
    ∀ after, exprs (Expr.relabelAll change shown) after = exprs shown after
  | [], after => by
      simp only [Expr.relabelAll, exprs]
  | first :: rest, after => by
      simp only [Expr.relabelAll, exprs, expr_relabel relabels first,
        exprs_relabelAll relabels rest]

end

theorem optionalExpr_relabel
    (relabels : Relabels change)
    (shown : Option Expr)
    (after : Text) :
    optionalExpr (shown.map (Expr.relabel change)) after =
      optionalExpr shown after := by
  cases shown with
  | none =>
      rfl
  | some value =>
      simp only [Option.map_some, optionalExpr, expr_relabel relabels]

mutual

theorem stmt_relabel
    (relabels : Relabels change) :
    (shown : Stmt) →
    ∀ after, stmt (shown.relabel change) after = stmt shown after
  | .expression value, after | .print value, after => by
      simp only [Stmt.relabel, stmt, expr_relabel relabels value]
  | .variableDecl _ initial, after => by
      simp only [Stmt.relabel, stmt, relabels.lexeme,
        optionalExpr_relabel relabels]
  | .block body, after => by
      simp only [Stmt.relabel, stmt, stmts_relabelAll relabels body]
  | .conditional condition consequent none, after => by
      simp only [Stmt.relabel, stmt, expr_relabel relabels condition,
        stmt_relabel relabels consequent]
  | .conditional condition consequent (some alternative), after => by
      simp only [Stmt.relabel, stmt, expr_relabel relabels condition,
        stmt_relabel relabels consequent, stmt_relabel relabels alternative]
  | .loop condition body, after => by
      simp only [Stmt.relabel, stmt, expr_relabel relabels condition,
        stmt_relabel relabels body]
  | .functionDecl declared, after => by
      simp only [Stmt.relabel, stmt, function_relabel relabels declared]
  | .returning _ value, after => by
      simp only [Stmt.relabel, stmt, optionalExpr_relabel relabels]
  | .classDecl _ methods, after => by
      simp only [Stmt.relabel, stmt, relabels.lexeme,
        functions_relabelAll relabels methods]
  | .missing, after => by
      simp only [Stmt.relabel, stmt]

theorem stmts_relabelAll
    (relabels : Relabels change) :
    (shown : List Stmt) →
    ∀ after, stmts (Stmt.relabelAll change shown) after = stmts shown after
  | [], after => by
      simp only [Stmt.relabelAll, stmts]
  | first :: rest, after => by
      simp only [Stmt.relabelAll, stmts, stmt_relabel relabels first,
        stmts_relabelAll relabels rest]

theorem function_relabel
    (relabels : Relabels change) :
    (shown : FunctionDecl) →
    ∀ after, function (shown.relabel change) after = function shown after
  | { name, parameters, body }, after => by
      simp only [FunctionDecl.relabel, function, relabels.lexeme,
        names_map relabels, stmts_relabelAll relabels body]

theorem functions_relabelAll
    (relabels : Relabels change) :
    (shown : List FunctionDecl) →
    ∀ after,
      functions (FunctionDecl.relabelAll change shown) after =
        functions shown after
  | [], after => by
      simp only [FunctionDecl.relabelAll, functions]
  | first :: rest, after => by
      simp only [FunctionDecl.relabelAll, functions,
        function_relabel relabels first, functions_relabelAll relabels rest]

end

end SExpression

/-- Statements are printed in the same way on other lines. -/
theorem Stmt.sexprLines_relabelAll
    {change : Token → Token}
    (relabels : Relabels change)
    (stmts : List Stmt) :
    sexprLines (relabelAll change stmts) = sexprLines stmts := by
  induction stmts with
  | nil =>
      rfl
  | cons first rest inductionHypothesis =>
      simp only [sexprLines, relabelAll, List.flatMap_cons, sexpr,
        SExpression.stmt_relabel relabels] at inductionHypothesis ⊢
      rw [inductionHypothesis]

end Script
