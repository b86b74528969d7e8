import Script.Scope

namespace Script

/-!
# Scope distances

Scope analysis gives every use of a name the number of scopes between it and the
declaration that it means: the nearest scope around it that has the name at this
place.  A name that no scope has is a global one and gets no distance.
-/

namespace Site

mutual

/-- An expression with the distances of the names in it. -/
def resolveExpr
    (site : Site) :
    Expr → Expr
  | .literal value =>
      .literal value
  | .group inner =>
      .group (site.resolveExpr inner)
  | .unary operator operand =>
      .unary operator (site.resolveExpr operand)
  | .binary left operator right =>
      .binary (site.resolveExpr left) operator (site.resolveExpr right)
  | .logical left operator right =>
      .logical (site.resolveExpr left) operator (site.resolveExpr right)
  | .reference name _ =>
      .reference name (site.distance? name.lexeme)
  | .assign name value _ =>
      .assign name (site.resolveExpr value) (site.distance? name.lexeme)
  | .call callee closing arguments =>
      .call (site.resolveExpr callee) closing (site.resolveExprs arguments)
  | .property object name =>
      .property (site.resolveExpr object) name
  | .setProperty object name value =>
      .setProperty (site.resolveExpr object) name (site.resolveExpr value)
  | .receiver keyword _ =>
      .receiver keyword site.receiverDistance?
  | .missing =>
      .missing

/-- Expressions with the distances of the names in them. -/
def resolveExprs
    (site : Site) :
    List Expr → List Expr
  | [] =>
      []
  | first :: rest =>
      site.resolveExpr first :: site.resolveExprs rest

end

mutual

/-- A statement with the distances of the names in it. -/
def resolveStmt
    (site : Site) :
    Stmt → Stmt
  | .expression value =>
      .expression (site.resolveExpr value)
  | .print value =>
      .print (site.resolveExpr value)
  | .variableDecl name initial =>
      .variableDecl name
        (initial.map (site.bind name.lexeme false).resolveExpr)
  | .block body =>
      .block (resolveStmts (site.enter []) body)
  | .conditional condition consequent none =>
      .conditional (site.resolveExpr condition)
        (resolveStmt site consequent) none
  | .conditional condition consequent (some alternative) =>
      .conditional (site.resolveExpr condition)
        (resolveStmt site consequent)
        (some (resolveStmt (site.after consequent) alternative))
  | .loop condition body =>
      .loop (site.resolveExpr condition) (resolveStmt site body)
  | .functionDecl function =>
      .functionDecl
        (resolveFunction (site.bind function.name.lexeme true) .function
          function)
  | .returning keyword value =>
      .returning keyword (value.map site.resolveExpr)
  | .classDecl name methods =>
      .classDecl name
        (resolveMethods (site.bind name.lexeme true).inClassBody methods)
  | .missing =>
      .missing

/-- Statements in a row with the distances of the names in them. -/
def resolveStmts
    (site : Site) :
    List Stmt → List Stmt
  | [] =>
      []
  | first :: rest =>
      resolveStmt site first :: resolveStmts (site.after first) rest

/-- A function with the distances of the names in its body. -/
def resolveFunction
    (site : Site)
    (enclosure : Enclosure) :
    FunctionDecl → FunctionDecl
  | { name, parameters, body } =>
      { name
        parameters
        body := resolveStmts (site.inFunction enclosure parameters) body }

/-- Methods with the distances of the names in their bodies. -/
def resolveMethods
    (site : Site) :
    List FunctionDecl → List FunctionDecl
  | [] =>
      []
  | first :: rest =>
      resolveFunction site (methodEnclosure first) first ::
        resolveMethods site rest

end

end Site

mutual

/-- The distances in an expression, in the order of the tree. -/
def Expr.distances : Expr → List (Option Nat)
  | .literal _ =>
      []
  | .group inner =>
      inner.distances
  | .unary _ operand =>
      operand.distances
  | .binary left _ right =>
      left.distances ++ right.distances
  | .logical left _ right =>
      left.distances ++ right.distances
  | .reference _ distance =>
      [distance]
  | .assign _ value distance =>
      value.distances ++ [distance]
  | .call callee _ arguments =>
      callee.distances ++ Expr.allDistances arguments
  | .property object _ =>
      object.distances
  | .setProperty object _ value =>
      object.distances ++ value.distances
  | .receiver _ distance =>
      [distance]
  | .missing =>
      []

/-- The distances in expressions, one expression after the other. -/
def Expr.allDistances : List Expr → List (Option Nat)
  | [] =>
      []
  | first :: rest =>
      first.distances ++ Expr.allDistances rest

end

/-- The distances in an expression that may be absent. -/
def Expr.optionalDistances (value : Option Expr) : List (Option Nat) :=
  (value.map Expr.distances).getD []

mutual

/-- The distances in a statement, in the order of the tree. -/
def Stmt.distances : Stmt → List (Option Nat)
  | .expression value =>
      value.distances
  | .print value =>
      value.distances
  | .variableDecl _ initial =>
      Expr.optionalDistances initial
  | .block body =>
      Stmt.allDistances body
  | .conditional condition consequent none =>
      condition.distances ++ consequent.distances
  | .conditional condition consequent (some alternative) =>
      condition.distances ++ consequent.distances ++ alternative.distances
  | .loop condition body =>
      condition.distances ++ body.distances
  | .functionDecl function =>
      function.distances
  | .returning _ value =>
      Expr.optionalDistances value
  | .classDecl _ methods =>
      FunctionDecl.allDistances methods
  | .missing =>
      []

/-- The distances in statements, one statement after the other. -/
def Stmt.allDistances : List Stmt → List (Option Nat)
  | [] =>
      []
  | first :: rest =>
      first.distances ++ Stmt.allDistances rest

/-- The distances in the body of a function. -/
def FunctionDecl.distances : FunctionDecl → List (Option Nat)
  | { body, .. } =>
      Stmt.allDistances body

/-- The distances in the bodies of functions. -/
def FunctionDecl.allDistances : List FunctionDecl → List (Option Nat)
  | [] =>
      []
  | first :: rest =>
      first.distances ++ FunctionDecl.allDistances rest

end

end Script
