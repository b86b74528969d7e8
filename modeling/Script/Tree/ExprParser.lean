import Script.Tree
import Script.Tree.Cursor

namespace Script

/-!
# Parsing expressions

Binary operators are read by precedence: after an operand, operators are taken
as long as they bind at least as tightly as asked, and the right operand of each
takes only operators that bind more tightly, so that operators of one level
group to the left.  Assignment binds least of all and groups to the right.

The functions call each other as the grammar does.  Their first argument bounds
the length of a chain of calls; six calls for each token are enough, since no
more than five follow each other without a token being read.
-/

namespace TokenKind

/-- How tightly a binary operator binds; a higher number binds more tightly. -/
def precedence? : TokenKind → Option Nat
  | .keyword .orWord =>
      some 0
  | .keyword .andWord =>
      some 1
  | .bangEqual =>
      some 2
  | .equalEqual =>
      some 2
  | .greater =>
      some 3
  | .greaterEqual =>
      some 3
  | .less =>
      some 3
  | .lessEqual =>
      some 3
  | .minus =>
      some 4
  | .plus =>
      some 4
  | .slash =>
      some 5
  | .star =>
      some 5
  | _ =>
      none

/-- Whether an operator may leave its right operand alone. -/
def isLogical : TokenKind → Bool
  | .keyword .orWord =>
      true
  | .keyword .andWord =>
      true
  | _ =>
      false

end TokenKind

namespace Expr

/-- Two operands joined by an operator. -/
def join
    (left : Expr)
    (operator : Token)
    (right : Expr) :
    Expr :=
  if operator.kind.isLogical then
    .logical left operator right
  else
    .binary left operator right

/-- An assignment to a target.  Only names and properties are targets; for any
other one a problem is reported at the equals sign and the value stands alone. -/
def assignTo
    (target : Expr)
    (equals : Token)
    (value : Expr)
    (cursor : Cursor) :
    Step Expr :=
  match target with
  | .reference name _ =>
      .done (.assign name value none) cursor
  | .property object name =>
      .done (.setProperty object name value) cursor
  | _ =>
      .done value (cursor.report equals .invalidTarget)

/-- The expression that a single token is. -/
def ofToken? (token : Token) : Option Expr :=
  match token.kind with
  | .keyword .falseWord =>
      some (.literal (.bool false))
  | .keyword .trueWord =>
      some (.literal (.bool true))
  | .keyword .nilWord =>
      some (.literal .nil)
  | .number =>
      some (.literal token.literal)
  | .string =>
      some (.literal token.literal)
  | .keyword .thisWord =>
      some (.receiver token none)
  | .identifier =>
      some (.reference token none)
  | _ =>
      none

/-- Complain about one more argument when the list is full already. -/
def countArgument
    (collected : List Expr)
    (cursor : Cursor) :
    Cursor :=
  if Cursor.maximalArguments ≤ collected.length then
    cursor.report cursor.peek .tooManyArguments
  else
    cursor

namespace Parser

mutual

/-- An expression: an assignment, or an operand with operators. -/
def expression
    (fuel : Nat)
    (cursor : Cursor) :
    Step Expr :=
  match fuel with
  | 0 =>
      .failed cursor
  | fuel + 1 =>
      (operation fuel 0 cursor).bind fun target cursor =>
        match cursor.accept? .equal with
        | none =>
            .done target cursor
        | some (equals, cursor) =>
            (expression fuel cursor).bind fun value cursor =>
              assignTo target equals value cursor

/-- An operand and the operators behind it that bind at least as tightly as
`level`. -/
def operation
    (fuel : Nat)
    (level : Nat)
    (cursor : Cursor) :
    Step Expr :=
  match fuel with
  | 0 =>
      .failed cursor
  | fuel + 1 =>
      (operand fuel cursor).bind fun left cursor =>
        operators fuel level left cursor

/-- The operators behind a left operand that bind at least as tightly as
`level`. -/
def operators
    (fuel : Nat)
    (level : Nat)
    (left : Expr)
    (cursor : Cursor) :
    Step Expr :=
  match fuel with
  | 0 =>
      .failed cursor
  | fuel + 1 =>
      match cursor.rest with
      | [] =>
          .done left cursor
      | operator :: rest =>
          match operator.kind.precedence? with
          | none =>
              .done left cursor
          | some precedence =>
              if precedence < level then
                .done left cursor
              else
                (operation fuel (precedence + 1)
                    { cursor with rest }).bind fun right cursor =>
                  operators fuel level (join left operator right) cursor

/-- A primary expression with what follows it, or a unary operator before an
operand. -/
def operand
    (fuel : Nat)
    (cursor : Cursor) :
    Step Expr :=
  match fuel with
  | 0 =>
      .failed cursor
  | fuel + 1 =>
      match (cursor.accept? .bang).or (cursor.accept? .minus) with
      | some (operator, cursor) =>
          cursor.nested operator fun cursor =>
            (operand fuel cursor).map (.unary operator)
      | none =>
          (primary fuel cursor).bind fun callee cursor =>
            trailers fuel callee cursor

/-- The calls and property reads behind an expression. -/
def trailers
    (fuel : Nat)
    (callee : Expr)
    (cursor : Cursor) :
    Step Expr :=
  match fuel with
  | 0 =>
      .failed cursor
  | fuel + 1 =>
      match cursor.accept? .leftParen with
      | some (_, cursor) =>
          match cursor.accept? .rightParen with
          | some (closing, cursor) =>
              trailers fuel (.call callee closing []) cursor
          | none =>
              (arguments fuel [] cursor).bind fun arguments cursor =>
                (cursor.expect .rightParen .argumentsEnd).bind
                  fun closing cursor =>
                    trailers fuel (.call callee closing arguments) cursor
      | none =>
          match cursor.accept? .dot with
          | some (_, cursor) =>
              (cursor.expect .identifier .propertyName).bind
                fun name cursor =>
                  trailers fuel (.property callee name) cursor
          | none =>
              .done callee cursor

/-- Arguments divided by commas, at least one, behind those already collected
in reverse. -/
def arguments
    (fuel : Nat)
    (collected : List Expr)
    (cursor : Cursor) :
    Step (List Expr) :=
  match fuel with
  | 0 =>
      .failed cursor
  | fuel + 1 =>
      (expression fuel (countArgument collected cursor)).bind
        fun argument cursor =>
          match cursor.accept? .comma with
          | some (_, cursor) =>
              arguments fuel (argument :: collected) cursor
          | none =>
              .done (argument :: collected).reverse cursor

/-- A literal, a name, `this`, or an expression in parentheses. -/
def primary
    (fuel : Nat)
    (cursor : Cursor) :
    Step Expr :=
  match fuel with
  | 0 =>
      .failed cursor
  | fuel + 1 =>
      match cursor.rest with
      | [] =>
          .failed (cursor.report cursor.peek (.expected .expression))
      | token :: rest =>
          match ofToken? token with
          | some expr =>
              .done expr { cursor with rest }
          | none =>
              if token.kind = .leftParen then
                Cursor.nested { cursor with rest } token fun cursor =>
                  (expression fuel cursor).bind fun inner cursor =>
                    (cursor.expect .rightParen .groupEnd).map
                      fun _ => .group inner
              else
                .failed (cursor.report token (.expected .expression))

end

end Parser

/-- Parse an expression. -/
def parse (cursor : Cursor) : Step Expr :=
  Parser.expression (6 * cursor.rest.length + 6) cursor

end Expr

end Script
