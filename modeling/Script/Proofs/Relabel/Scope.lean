import Script.Proofs.Relabel.Tree
import Script.Scope.Resolution

namespace Script

/-!
# Scope analysis on other lines

Scope analysis goes by the lexemes of names.  On other lines it finds the same
distances, and the same problems in the same order.
-/

/-- A problem without its line. -/
def Diagnostic.unlined (problem : Diagnostic) : Diagnostic :=
  { problem with line := 0 }

/-- Without its line a problem is the same at a token on another line. -/
theorem Diagnostic.unlined_atToken
    {change : Token → Token}
    (relabels : Relabels change)
    (token : Token)
    (problem : Problem) :
    (atToken (change token) problem).unlined =
      (atToken token problem).unlined := by
  simp [unlined, atToken, relabels.kind, relabels.lexeme]

namespace Site

variable {change : Token → Token}

mutual

theorem resolveExpr_relabel
    (relabels : Relabels change)
    (site : Site) :
    (expr : Expr) →
    site.resolveExpr (expr.relabel change) =
      (site.resolveExpr expr).relabel change
  | .literal _ | .reference _ _ | .receiver _ _ | .missing => by
      simp [resolveExpr, Expr.relabel, relabels.lexeme]
  | .group inner => by
      simp [resolveExpr, Expr.relabel,
        resolveExpr_relabel relabels site inner]
  | .unary _ operand => by
      simp [resolveExpr, Expr.relabel,
        resolveExpr_relabel relabels site operand]
  | .binary left _ right | .logical left _ right => by
      simp [resolveExpr, Expr.relabel,
        resolveExpr_relabel relabels site left,
        resolveExpr_relabel relabels site right]
  | .assign _ value _ => by
      simp [resolveExpr, Expr.relabel, relabels.lexeme,
        resolveExpr_relabel relabels site value]
  | .call callee _ arguments => by
      simp [resolveExpr, Expr.relabel,
        resolveExpr_relabel relabels site callee,
        resolveExprs_relabelAll relabels site arguments]
  | .property object _ => by
      simp [resolveExpr, Expr.relabel,
        resolveExpr_relabel relabels site object]
  | .setProperty object _ value => by
      simp [resolveExpr, Expr.relabel,
        resolveExpr_relabel relabels site object,
        resolveExpr_relabel relabels site value]

theorem resolveExprs_relabelAll
    (relabels : Relabels change)
    (site : Site) :
    (exprs : List Expr) →
    site.resolveExprs (Expr.relabelAll change exprs) =
      Expr.relabelAll change (site.resolveExprs exprs)
  | [] => by
      simp [resolveExprs, Expr.relabelAll]
  | first :: rest => by
      simp [resolveExprs, Expr.relabelAll,
        resolveExpr_relabel relabels site first,
        resolveExprs_relabelAll relabels site rest]

end

theorem map_resolveExpr_relabel
    (relabels : Relabels change)
    (site : Site)
    (value : Option Expr) :
    (value.map (Expr.relabel change)).map site.resolveExpr =
      (value.map site.resolveExpr).map (Expr.relabel change) := by
  cases value with
  | none =>
      rfl
  | some expr =>
      simp [resolveExpr_relabel relabels site expr]

theorem after_relabel
    (relabels : Relabels change)
    (site : Site) :
    (stmt : Stmt) →
    site.after (stmt.relabel change) = site.after stmt
  | .expression _ | .print _ | .block _ | .returning _ _ | .missing => by
      simp [after, Stmt.relabel]
  | .variableDecl _ _ | .classDecl _ _ => by
      simp [after, Stmt.relabel, relabels.lexeme]
  | .functionDecl function => by
      simp [after, Stmt.relabel, function.lexeme_relabel relabels]
  | .conditional _ consequent none => by
      simp [after, Stmt.relabel, after_relabel relabels site consequent]
  | .conditional _ consequent (some alternative) => by
      simp [after, Stmt.relabel, after_relabel relabels site consequent,
        after_relabel relabels (site.after consequent) alternative]
  | .loop _ body => by
      simp [after, Stmt.relabel, after_relabel relabels site body]

theorem inFunction_map
    (relabels : Relabels change)
    (site : Site)
    (enclosure : Enclosure)
    (parameters : List Token) :
    site.inFunction enclosure (parameters.map change) =
      site.inFunction enclosure parameters := by
  unfold inFunction
  rw [List.foldl_map]
  simp only [relabels.lexeme]

theorem methodEnclosure_relabel
    (relabels : Relabels change)
    (method : FunctionDecl) :
    methodEnclosure (method.relabel change) = methodEnclosure method := by
  unfold methodEnclosure
  rw [method.lexeme_relabel relabels]

mutual

theorem resolveStmt_relabel
    (relabels : Relabels change)
    (site : Site) :
    (stmt : Stmt) →
    site.resolveStmt (stmt.relabel change) =
      (site.resolveStmt stmt).relabel change
  | .expression value | .print value => by
      simp [resolveStmt, Stmt.relabel, resolveExpr_relabel relabels site value]
  | .variableDecl _ value => by
      simp only [resolveStmt, Stmt.relabel, relabels.lexeme,
        map_resolveExpr_relabel relabels]
  | .returning _ value => by
      simp only [resolveStmt, Stmt.relabel, map_resolveExpr_relabel relabels]
  | .block body => by
      simp [resolveStmt, Stmt.relabel, resolveStmts_relabelAll relabels _ body]
  | .conditional condition consequent none => by
      simp [resolveStmt, Stmt.relabel,
        resolveExpr_relabel relabels site condition,
        resolveStmt_relabel relabels site consequent]
  | .conditional condition consequent (some alternative) => by
      simp [resolveStmt, Stmt.relabel,
        resolveExpr_relabel relabels site condition,
        resolveStmt_relabel relabels site consequent,
        after_relabel relabels site consequent,
        resolveStmt_relabel relabels (site.after consequent) alternative]
  | .loop condition body => by
      simp [resolveStmt, Stmt.relabel,
        resolveExpr_relabel relabels site condition,
        resolveStmt_relabel relabels site body]
  | .functionDecl function => by
      simp [resolveStmt, Stmt.relabel, function.lexeme_relabel relabels,
        resolveFunction_relabel relabels _ .function function]
  | .classDecl _ methods => by
      simp [resolveStmt, Stmt.relabel, relabels.lexeme,
        resolveMethods_relabelAll relabels _ methods]
  | .missing => by
      simp [resolveStmt, Stmt.relabel]

theorem resolveStmts_relabelAll
    (relabels : Relabels change)
    (site : Site) :
    (stmts : List Stmt) →
    site.resolveStmts (Stmt.relabelAll change stmts) =
      Stmt.relabelAll change (site.resolveStmts stmts)
  | [] => by
      simp [resolveStmts, Stmt.relabelAll]
  | first :: rest => by
      simp [resolveStmts, Stmt.relabelAll,
        resolveStmt_relabel relabels site first,
        after_relabel relabels site first,
        resolveStmts_relabelAll relabels _ rest]

theorem resolveFunction_relabel
    (relabels : Relabels change)
    (site : Site)
    (enclosure : Enclosure) :
    (function : FunctionDecl) →
    site.resolveFunction enclosure (function.relabel change) =
      (site.resolveFunction enclosure function).relabel change
  | { name, parameters, body } => by
      simp [resolveFunction, FunctionDecl.relabel, inFunction_map relabels,
        resolveStmts_relabelAll relabels _ body]

theorem resolveMethods_relabelAll
    (relabels : Relabels change)
    (site : Site) :
    (methods : List FunctionDecl) →
    site.resolveMethods (FunctionDecl.relabelAll change methods) =
      FunctionDecl.relabelAll change (site.resolveMethods methods)
  | [] => by
      simp [resolveMethods, FunctionDecl.relabelAll]
  | first :: rest => by
      simp [resolveMethods, FunctionDecl.relabelAll,
        methodEnclosure_relabel relabels first,
        resolveFunction_relabel relabels site _ first,
        resolveMethods_relabelAll relabels site rest]

end

mutual

theorem exprProblems_relabel
    (relabels : Relabels change)
    (site : Site) :
    (expr : Expr) →
    (site.exprProblems (expr.relabel change)).map Diagnostic.unlined =
      (site.exprProblems expr).map Diagnostic.unlined
  | .literal _ | .missing => by
      simp [exprProblems, Expr.relabel]
  | .reference name _ => by
      rw [Expr.relabel, exprProblems, exprProblems, relabels.lexeme]
      split <;> simp [Diagnostic.unlined_atToken relabels]
  | .receiver keyword _ => by
      rw [Expr.relabel, exprProblems, exprProblems]
      split <;> simp [Diagnostic.unlined_atToken relabels]
  | .group inner => by
      simp [exprProblems, Expr.relabel,
        exprProblems_relabel relabels site inner]
  | .unary _ operand => by
      simp [exprProblems, Expr.relabel,
        exprProblems_relabel relabels site operand]
  | .binary left _ right | .logical left _ right => by
      simp [exprProblems, Expr.relabel,
        exprProblems_relabel relabels site left,
        exprProblems_relabel relabels site right]
  | .assign _ value _ => by
      simp [exprProblems, Expr.relabel,
        exprProblems_relabel relabels site value]
  | .call callee _ arguments => by
      simp [exprProblems, Expr.relabel,
        exprProblems_relabel relabels site callee,
        exprsProblems_relabelAll relabels site arguments]
  | .property object _ => by
      simp [exprProblems, Expr.relabel,
        exprProblems_relabel relabels site object]
  | .setProperty object _ value => by
      simp [exprProblems, Expr.relabel,
        exprProblems_relabel relabels site object,
        exprProblems_relabel relabels site value]

theorem exprsProblems_relabelAll
    (relabels : Relabels change)
    (site : Site) :
    (exprs : List Expr) →
    (site.exprsProblems (Expr.relabelAll change exprs)).map
        Diagnostic.unlined =
      (site.exprsProblems exprs).map Diagnostic.unlined
  | [] => by
      simp [exprsProblems, Expr.relabelAll]
  | first :: rest => by
      simp [exprsProblems, Expr.relabelAll,
        exprProblems_relabel relabels site first,
        exprsProblems_relabelAll relabels site rest]

end

theorem optionalProblems_relabel
    (relabels : Relabels change)
    (site : Site)
    (value : Option Expr) :
    (site.optionalProblems (value.map (Expr.relabel change))).map
        Diagnostic.unlined =
      (site.optionalProblems value).map Diagnostic.unlined := by
  cases value with
  | none =>
      rfl
  | some expr =>
      exact exprProblems_relabel relabels site expr

theorem declarationProblems_change
    (relabels : Relabels change)
    (site : Site)
    (name : Token) :
    (site.declarationProblems (change name)).map Diagnostic.unlined =
      (site.declarationProblems name).map Diagnostic.unlined := by
  unfold declarationProblems
  rw [relabels.lexeme]
  split <;> simp [Diagnostic.unlined_atToken relabels]

theorem parameterProblems_map
    (relabels : Relabels change)
    (site : Site)
    (parameters : List Token) :
    (site.parameterProblems (parameters.map change)).map Diagnostic.unlined =
      (site.parameterProblems parameters).map Diagnostic.unlined := by
  induction parameters generalizing site with
  | nil =>
      rfl
  | cons first rest inductionHypothesis =>
      simp [parameterProblems, declarationProblems_change relabels,
        relabels.lexeme, inductionHypothesis]

theorem returnProblems_change
    (relabels : Relabels change)
    (site : Site)
    (keyword : Token)
    (hasValue : Bool) :
    (site.returnProblems (change keyword) hasValue).map Diagnostic.unlined =
      (site.returnProblems keyword hasValue).map Diagnostic.unlined := by
  unfold returnProblems
  cases site.enclosure <;> cases hasValue <;>
    simp [Diagnostic.unlined_atToken relabels]

mutual

theorem stmtProblems_relabel
    (relabels : Relabels change)
    (site : Site) :
    (stmt : Stmt) →
    (site.stmtProblems (stmt.relabel change)).map Diagnostic.unlined =
      (site.stmtProblems stmt).map Diagnostic.unlined
  | .expression value | .print value => by
      simp [stmtProblems, Stmt.relabel,
        exprProblems_relabel relabels site value]
  | .variableDecl name value => by
      simp only [stmtProblems, Stmt.relabel, List.map_append,
        declarationProblems_change relabels, relabels.lexeme,
        optionalProblems_relabel relabels]
  | .block body => by
      simp [stmtProblems, Stmt.relabel,
        unlined_stmtsProblems relabels _ body]
  | .conditional condition consequent none => by
      simp [stmtProblems, Stmt.relabel,
        exprProblems_relabel relabels site condition,
        stmtProblems_relabel relabels site consequent]
  | .conditional condition consequent (some alternative) => by
      simp [stmtProblems, Stmt.relabel,
        exprProblems_relabel relabels site condition,
        stmtProblems_relabel relabels site consequent,
        after_relabel relabels site consequent,
        stmtProblems_relabel relabels (site.after consequent) alternative]
  | .loop condition body => by
      simp [stmtProblems, Stmt.relabel,
        exprProblems_relabel relabels site condition,
        stmtProblems_relabel relabels site body]
  | .functionDecl { name, parameters, body } => by
      simp [stmtProblems, Stmt.relabel, FunctionDecl.relabel,
        functionProblems, declarationProblems_change relabels,
        relabels.lexeme, parameterProblems_map relabels,
        inFunction_map relabels, unlined_stmtsProblems relabels _ body]
  | .returning keyword value => by
      simp only [stmtProblems, Stmt.relabel, List.map_append,
        Option.isSome_map, returnProblems_change relabels,
        optionalProblems_relabel relabels]
  | .classDecl name methods => by
      simp [stmtProblems, Stmt.relabel, declarationProblems_change relabels,
        relabels.lexeme, methodProblems_relabelAll relabels _ methods]
  | .missing => by
      simp [stmtProblems, Stmt.relabel]

/-- Statements have the same problems on other lines. -/
theorem unlined_stmtsProblems
    (relabels : Relabels change)
    (site : Site) :
    (stmts : List Stmt) →
    (site.stmtsProblems (Stmt.relabelAll change stmts)).map
        Diagnostic.unlined =
      (site.stmtsProblems stmts).map Diagnostic.unlined
  | [] => by
      simp [stmtsProblems, Stmt.relabelAll]
  | first :: rest => by
      simp [stmtsProblems, Stmt.relabelAll,
        stmtProblems_relabel relabels site first,
        after_relabel relabels site first,
        unlined_stmtsProblems relabels _ rest]

theorem methodProblems_relabelAll
    (relabels : Relabels change)
    (site : Site) :
    (methods : List FunctionDecl) →
    (site.methodProblems (FunctionDecl.relabelAll change methods)).map
        Diagnostic.unlined =
      (site.methodProblems methods).map Diagnostic.unlined
  | [] => by
      simp [methodProblems, FunctionDecl.relabelAll]
  | { name, parameters, body } :: rest => by
      simp [methodProblems, FunctionDecl.relabelAll, FunctionDecl.relabel,
        functionProblems, methodEnclosure, relabels.lexeme,
        parameterProblems_map relabels, inFunction_map relabels,
        unlined_stmtsProblems relabels _ body,
        methodProblems_relabelAll relabels site rest]

end

theorem stmtsProblems_relabelAll
    (relabels : Relabels change)
    (site : Site)
    (stmts : List Stmt) :
    site.stmtsProblems (Stmt.relabelAll change stmts) = [] ↔
      site.stmtsProblems stmts = [] := by
  rw [← List.map_eq_nil_iff, unlined_stmtsProblems relabels,
    List.map_eq_nil_iff]

end Site

end Script
