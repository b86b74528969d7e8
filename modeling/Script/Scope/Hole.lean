import Script.Tree

namespace Script

/-!
# Holes

A tree that was not made by parsing may have holes where an expression or a
statement has to be.  Scope analysis and evaluation cannot go past one.
-/

/-- What is missing at a hole. -/
inductive Hole where
  | expression
  | statement
  deriving Repr, DecidableEq

namespace Hole

/-- The noun for what is missing. -/
def noun : Hole → String
  | .expression =>
      "expression"
  | .statement =>
      "statement"

end Hole

mutual

/-- The first hole in an expression. -/
def Expr.hole? : Expr → Option Hole
  | .literal _ =>
      none
  | .group inner =>
      inner.hole?
  | .unary _ operand =>
      operand.hole?
  | .binary left _ right =>
      left.hole?.or right.hole?
  | .logical left _ right =>
      left.hole?.or right.hole?
  | .reference _ _ =>
      none
  | .assign _ value _ =>
      value.hole?
  | .call callee _ arguments =>
      callee.hole?.or (Expr.anyHole? arguments)
  | .property object _ =>
      object.hole?
  | .setProperty object _ value =>
      value.hole?.or object.hole?
  | .receiver _ _ =>
      none
  | .missing =>
      some .expression

/-- The first hole in expressions, one expression after the other. -/
def Expr.anyHole? : List Expr → Option Hole
  | [] =>
      none
  | first :: rest =>
      first.hole?.or (Expr.anyHole? rest)

end

mutual

/-- The first hole in a statement. -/
def Stmt.hole? : Stmt → Option Hole
  | .expression value =>
      value.hole?
  | .print value =>
      value.hole?
  | .variableDecl _ initial =>
      initial.bind Expr.hole?
  | .block body =>
      Stmt.anyHole? body
  | .conditional condition consequent none =>
      condition.hole?.or consequent.hole?
  | .conditional condition consequent (some alternative) =>
      (condition.hole?.or consequent.hole?).or alternative.hole?
  | .loop condition body =>
      condition.hole?.or body.hole?
  | .functionDecl function =>
      function.hole?
  | .returning _ value =>
      value.bind Expr.hole?
  | .classDecl _ methods =>
      FunctionDecl.anyHole? methods
  | .missing =>
      some .statement

/-- The first hole in statements, one statement after the other. -/
def Stmt.anyHole? : List Stmt → Option Hole
  | [] =>
      none
  | first :: rest =>
      first.hole?.or (Stmt.anyHole? rest)

/-- The first hole in the body of a function. -/
def FunctionDecl.hole? : FunctionDecl → Option Hole
  | { body, .. } =>
      Stmt.anyHole? body

/-- The first hole in the bodies of functions. -/
def FunctionDecl.anyHole? : List FunctionDecl → Option Hole
  | [] =>
      none
  | first :: rest =>
      first.hole?.or (FunctionDecl.anyHole? rest)

end

end Script
