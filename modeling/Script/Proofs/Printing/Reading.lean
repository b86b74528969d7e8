import Script.Proofs.Printing.Word
import Script.Tree.ExprParser

namespace Script

/-!
# Reading shapes

A shape is read back as a tree whose tokens are on no line.  Shapes that show no
tree are read as a hole.
-/

open SExpression

/-! What a word is read as. -/

/-- The kinds of operators in expressions. -/
def TokenKind.operators : List TokenKind :=
  [.bang, .minus, .plus, .slash, .star, .bangEqual, .equalEqual, .greater,
   .greaterEqual, .less, .lessEqual, .keyword .andWord, .keyword .orWord]

/-- The operator that a text spells. -/
def Token.operatorOf (text : Text) : Token :=
  let found :=
    TokenKind.operators.find? fun kind => Text.utf8 kind.name == text
  (found.getD .unknown).token

namespace Expr

/-- The expression that a word shows. -/
def ofWord (text : Text) : Expr :=
  match Keyword.ofText? text with
  | some .nilWord =>
      .literal .nil
  | some .trueWord =>
      .literal (.bool true)
  | some .falseWord =>
      .literal (.bool false)
  | some .thisWord =>
      .receiver (TokenKind.keyword .thisWord).token none
  | some _ =>
      .missing
  | none =>
      .reference (.nameAt text 0) none

/-- The name that an expression reads. -/
def named : Expr → Token
  | .reference name _ =>
      name
  | _ =>
      .nameAt [] 0

/-- The expression that a list with a head shows. -/
def ofList
    (head : Text)
    (parts : List Expr) :
    Expr :=
  if head = Text.utf8 "call" then
    match parts with
    | callee :: arguments =>
        .call callee TokenKind.rightParen.token arguments
    | [] =>
        .missing
  else
    match parts with
    | [inner] =>
        if head = Text.utf8 "group" then
          .group inner
        else
          .unary (.operatorOf head) inner
    | [left, right] =>
        if head = Text.utf8 "=" then
          .assign left.named right none
        else if head = Text.utf8 "." then
          .property left right.named
        else
          .join left (.operatorOf head) right
    | [object, name, value] =>
        .setProperty object name.named value
    | _ =>
        .missing

end Expr

namespace SExpression.Shape

mutual

/-- The expression that a shape shows. -/
def toExpr : Shape → Expr
  | .word text =>
      .ofWord text
  | .number value =>
      .literal (.number value)
  | .string text =>
      .literal (.text text)
  | .list (.word head :: items) =>
      .ofList head (toExprs items)
  | .list _ =>
      .missing

/-- The expressions that shapes show. -/
def toExprs : List Shape → List Expr
  | [] =>
      []
  | first :: rest =>
      first.toExpr :: toExprs rest

end

/-- The shapes in a list. -/
def items : Shape → List Shape
  | .list items =>
      items
  | _ =>
      []

end SExpression.Shape

namespace Stmt

/-- The function that a statement declares. -/
def declared? : Stmt → Option FunctionDecl
  | .functionDecl function =>
      some function
  | _ =>
      none

/-- The statement that a list with a head shows, from the items behind the head
and from what they are as statements. -/
def ofList
    (head : Text)
    (items : List Shape)
    (stmts : List Stmt) :
    Stmt :=
  -- Only these two may be heads with nothing behind them.
  if head = Text.utf8 "block" then
    .block stmts
  else if head = Text.utf8 "return" then
    .returning (TokenKind.keyword .returnWord).token
      (items.head?.map Shape.toExpr)
  else
    match items, stmts with
    | first :: items, _ :: stmts =>
        if head = Text.utf8 "expr" then
          .expression first.toExpr
        else if head = Text.utf8 "print" then
          .print first.toExpr
        else if head = Text.utf8 "var" then
          .variableDecl first.toExpr.named (items.head?.map Shape.toExpr)
        else if head = Text.utf8 "class" then
          .classDecl first.toExpr.named (stmts.filterMap declared?)
        else
          match items, stmts with
          | part :: _, second :: stmts =>
              if head = Text.utf8 "fun" then
                .functionDecl
                  { name := first.toExpr.named
                    parameters := part.items.map (·.toExpr.named)
                    body := stmts }
              else if head = Text.utf8 "while" then
                .loop first.toExpr second
              else
                .conditional first.toExpr second stmts.head?
          | _, _ =>
              .missing
    | _, _ =>
        .missing

end Stmt

namespace SExpression.Shape

mutual

/-- The statement that a shape shows. -/
def toStmt : Shape → Stmt
  | .list (.word head :: items) =>
      .ofList head items (toStmts items)
  | _ =>
      .missing

/-- The statements that shapes show. -/
def toStmts : List Shape → List Stmt
  | [] =>
      []
  | first :: rest =>
      first.toStmt :: toStmts rest

end

end SExpression.Shape

end Script
