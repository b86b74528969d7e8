import Script.Token

namespace Script

/-!
# Syntax trees

The trees of expressions and statements.  A name is used in three kinds of
expression: it is read, it is assigned to, and `this` reads the receiver of a
method.  Each of these carries the number of scopes between the use and the
declaration of the name, or `none` when the name is a global one; the parser
leaves `none` everywhere and scope analysis fills the distances in.

`missing` is a hole in a tree that was put together by other means than
parsing.  Optional parts are absent in a different way, by `none`.
-/

/-- Expressions. -/
inductive Expr where
  | literal (value : Literal)
  | group (inner : Expr)
  | unary (operator : Token) (operand : Expr)
  | binary (left : Expr) (operator : Token) (right : Expr)
  | logical (left : Expr) (operator : Token) (right : Expr)
  | reference (name : Token) (distance : Option Nat)
  | assign (name : Token) (value : Expr) (distance : Option Nat)
  | call (callee : Expr) (closing : Token) (arguments : List Expr)
  | property (object : Expr) (name : Token)
  | setProperty (object : Expr) (name : Token) (value : Expr)
  | receiver (keyword : Token) (distance : Option Nat)
  | missing
  deriving Repr, Inhabited

mutual

/-- Statements. -/
inductive Stmt where
  | expression (value : Expr)
  | print (value : Expr)
  | variableDecl (name : Token) (initial : Option Expr)
  | block (body : List Stmt)
  | conditional (condition : Expr) (consequent : Stmt) (alternative : Option Stmt)
  | loop (condition : Expr) (body : Stmt)
  | functionDecl (function : FunctionDecl)
  | returning (keyword : Token) (value : Option Expr)
  | classDecl (name : Token) (methods : List FunctionDecl)
  | missing

/-- The declaration of a function or of a method. -/
structure FunctionDecl where
  name : Token
  parameters : List Token
  body : List Stmt

end

instance : Inhabited Stmt :=
  ⟨.missing⟩

instance : Inhabited FunctionDecl :=
  ⟨{ name := default, parameters := [], body := [] }⟩

namespace FunctionDecl

/-- The number of parameters. -/
def arity (function : FunctionDecl) : Nat :=
  function.parameters.length

end FunctionDecl

end Script
