import Script.Fault
import Script.Value

namespace Script

/-!
# Operators

What operators make of the values of their operands.  An operator is known by
the kind of its token alone, whatever its lexeme.
-/

namespace Value

/-- The result of a unary operator. -/
def unary
    (operator : TokenKind)
    (operand : Value) :
    Except FaultCause Value :=
  match operator, operand with
  | .bang, operand =>
      .ok (.bool !operand.isTruthy)
  | .minus, .number value =>
      .ok (.number (-value))
  | .minus, _ =>
      .error .operandNotNumber
  | _, _ =>
      .error .unknownUnary

/-- The sum of two numbers, or one text behind another. -/
def add
    (left : Value)
    (right : Value) :
    Except FaultCause Value :=
  match left, right with
  | .number left, .number right =>
      .ok (.number (left + right))
  | .text left, .text right =>
      .ok (.text (left ++ right))
  | _, _ =>
      .error .operandsNotAddable

/-- The result of an operator on two numbers. -/
def arithmetic
    (operator : TokenKind)
    (left : Float)
    (right : Float) :
    Except FaultCause Value :=
  match operator with
  | .minus =>
      .ok (.number (left - right))
  | .star =>
      .ok (.number (left * right))
  | .slash =>
      if right == 0 then
        .error .divisionByZero
      else
        .ok (.number (left / right))
  | .greater =>
      .ok (.bool (right < left))
  | .greaterEqual =>
      .ok (.bool (right ≤ left))
  | .less =>
      .ok (.bool (left < right))
  | .lessEqual =>
      .ok (.bool (left ≤ right))
  | _ =>
      .error .unknownBinary

/-- The result of a binary operator. -/
def binary
    (operator : TokenKind)
    (left : Value)
    (right : Value) :
    Except FaultCause Value :=
  match operator with
  | .equalEqual =>
      .ok (.bool (left.equals right))
  | .bangEqual =>
      .ok (.bool !left.equals right)
  | .plus =>
      add left right
  | _ =>
      match left, right with
      | .number left, .number right =>
          arithmetic operator left right
      | _, _ =>
          .error .operandsNotNumbers

/-- Whether the left operand of a logical operator is its result already. -/
def decides
    (operator : TokenKind)
    (left : Value) :
    Bool :=
  if operator = .keyword .orWord then
    left.isTruthy
  else
    !left.isTruthy

end Value

end Script
