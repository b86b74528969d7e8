import Script.Tree

namespace Script

/-!
# Trees in prefix notation

A tree is printed as nested lists in parentheses, each headed by an operator or
by the kind of its node.  Every printing function takes the text that comes
after and puts its own in front of it.
-/

namespace Literal

/-- The text of a literal in a printed tree. -/
def sexpr : Literal → Text
  | .nil =>
      Text.utf8 "nil"
  | .bool value =>
      Text.ofBool value
  | .number value =>
      NumberFormat.tree.write value
  | .text value =>
      value.quote
  | .foreign =>
      Text.utf8 "<unknown>"

end Literal

namespace SExpression

/-- A space in front of a text. -/
def spaced (after : Text) : Text :=
  Text.byte ' ' :: after

/-- A closing parenthesis in front of a text. -/
def closed (after : Text) : Text :=
  Text.byte ')' :: after

/-- An opening parenthesis and the head of a list in front of a text. -/
def opened
    (head : Text)
    (after : Text) :
    Text :=
  Text.byte '(' :: head ++ after

/-- The lexemes of tokens, a space between each two, in front of a text. -/
def names : List Token → Text → Text
  | [], after =>
      after
  | [name], after =>
      name.lexeme ++ after
  | name :: rest, after =>
      name.lexeme ++ spaced (names rest after)

mutual

/-- The text of an expression in front of another text. -/
def expr
    (shown : Expr)
    (after : Text) :
    Text :=
  match shown with
  | .literal value =>
      value.sexpr ++ after
  | .group inner =>
      opened (Text.utf8 "group") (spaced (expr inner (closed after)))
  | .unary operator operand =>
      opened operator.lexeme (spaced (expr operand (closed after)))
  | .binary left operator right =>
      opened operator.lexeme
        (spaced (expr left (spaced (expr right (closed after)))))
  | .logical left operator right =>
      opened operator.lexeme
        (spaced (expr left (spaced (expr right (closed after)))))
  | .reference name _ =>
      name.lexeme ++ after
  | .assign name value _ =>
      opened (Text.utf8 "= ")
        (name.lexeme ++ spaced (expr value (closed after)))
  | .call callee _ arguments =>
      opened (Text.utf8 "call")
        (spaced (expr callee (exprs arguments (closed after))))
  | .property object name =>
      opened (Text.utf8 ". ")
        (expr object (spaced (name.lexeme ++ closed after)))
  | .setProperty object name value =>
      opened (Text.utf8 "=. ")
        (expr object
          (spaced (name.lexeme ++ spaced (expr value (closed after)))))
  | .receiver _ _ =>
      Text.utf8 "this" ++ after
  | .missing =>
      Text.utf8 "<unknown>" ++ after

/-- Expressions, each with a space before it, in front of a text. -/
def exprs
    (shown : List Expr)
    (after : Text) :
    Text :=
  match shown with
  | [] =>
      after
  | first :: rest =>
      spaced (expr first (exprs rest after))

end

/-- An optional expression with a space before it, in front of a text. -/
def optionalExpr
    (shown : Option Expr)
    (after : Text) :
    Text :=
  match shown with
  | none =>
      after
  | some value =>
      spaced (expr value after)

mutual

/-- The text of a statement in front of another text. -/
def stmt
    (shown : Stmt)
    (after : Text) :
    Text :=
  match shown with
  | .expression value =>
      opened (Text.utf8 "expr ") (expr value (closed after))
  | .print value =>
      opened (Text.utf8 "print ") (expr value (closed after))
  | .variableDecl name initial =>
      opened (Text.utf8 "var ")
        (name.lexeme ++ optionalExpr initial (closed after))
  | .block body =>
      opened (Text.utf8 "block") (stmts body (closed after))
  | .conditional condition consequent none =>
      opened (Text.utf8 "if ")
        (expr condition (spaced (stmt consequent (closed after))))
  | .conditional condition consequent (some alternative) =>
      opened (Text.utf8 "if ")
        (expr condition
          (spaced
            (stmt consequent (spaced (stmt alternative (closed after))))))
  | .loop condition body =>
      opened (Text.utf8 "while ")
        (expr condition (spaced (stmt body (closed after))))
  | .functionDecl declared =>
      function declared after
  | .returning _ value =>
      opened (Text.utf8 "return") (optionalExpr value (closed after))
  | .classDecl name methods =>
      opened (Text.utf8 "class ")
        (name.lexeme ++ functions methods (closed after))
  | .missing =>
      Text.utf8 "<unknown>" ++ after

/-- Statements, each with a space before it, in front of a text. -/
def stmts
    (shown : List Stmt)
    (after : Text) :
    Text :=
  match shown with
  | [] =>
      after
  | first :: rest =>
      spaced (stmt first (stmts rest after))

/-- The text of a function in front of another text. -/
def function
    (shown : FunctionDecl)
    (after : Text) :
    Text :=
  match shown with
  | { name, parameters, body } =>
      opened (Text.utf8 "fun ")
        (name.lexeme ++ spaced
          (opened [] (names parameters (closed (stmts body (closed after))))))

/-- Functions, each with a space before it, in front of a text. -/
def functions
    (shown : List FunctionDecl)
    (after : Text) :
    Text :=
  match shown with
  | [] =>
      after
  | first :: rest =>
      spaced (function first (functions rest after))

end

end SExpression

namespace Expr

/-- The text of an expression in prefix notation. -/
def sexpr (shown : Expr) : Text :=
  SExpression.expr shown []

end Expr

namespace Stmt

/-- The text of a statement in prefix notation. -/
def sexpr (shown : Stmt) : Text :=
  SExpression.stmt shown []

/-- The texts of statements in prefix notation, each on a line of its own. -/
def sexprLines (shown : List Stmt) : Text :=
  shown.flatMap fun statement => statement.sexpr ++ [Text.newline]

end Stmt

end Script
