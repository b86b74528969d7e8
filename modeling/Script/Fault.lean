import Script.Token

namespace Script

/-!
# Runtime faults

What ends a running program early, at which token, and how it is worded.
-/

/-- Why a running program cannot go on. -/
inductive FaultCause where
  | undefinedVariable
  | undefinedProperty
  | operandNotNumber
  | operandsNotNumbers
  | operandsNotAddable
  | divisionByZero
  | notCallable
  | wrongArity (expected : Int) (given : Nat)
  | tooManyCalls
  | propertyOfNonInstance
  | fieldOfNonInstance
  | unknownUnary
  | unknownBinary
  /-- A cause with its own wording, for a fault that a host raises. -/
  | raised (message : Text)
  deriving Repr, DecidableEq

/-- A cause with the token that it is reported at. -/
structure Fault where
  token : Token
  cause : FaultCause
  deriving Repr, DecidableEq

namespace Fault

/-- A wording that ends in the quoted lexeme of the token. -/
def naming
    (words : String)
    (fault : Fault) :
    Text :=
  Text.utf8 words ++ Text.utf8 " '" ++ fault.token.lexeme ++ Text.utf8 "'."

/-- The wording of a fault. -/
def message (fault : Fault) : Text :=
  match fault.cause with
  | .undefinedVariable =>
      naming "Undefined variable" fault
  | .undefinedProperty =>
      naming "Undefined property" fault
  | .operandNotNumber =>
      Text.utf8 "Operand must be a number."
  | .operandsNotNumbers =>
      Text.utf8 "Operands must be numbers."
  | .operandsNotAddable =>
      Text.utf8 "Operands must be two numbers or two strings."
  | .divisionByZero =>
      Text.utf8 "Division by zero."
  | .notCallable =>
      Text.utf8 "Can only call functions and classes."
  | .wrongArity expected given =>
      Text.utf8 "Expected " ++ Text.ofInt expected ++
        Text.utf8 " arguments but got " ++ Text.ofNat given ++ Text.utf8 "."
  | .tooManyCalls =>
      Text.utf8 "Stack overflow."
  | .propertyOfNonInstance =>
      Text.utf8 "Only instances have properties."
  | .fieldOfNonInstance =>
      Text.utf8 "Only instances have fields."
  | .unknownUnary =>
      naming "Unknown unary operator" fault
  | .unknownBinary =>
      naming "Unknown binary operator" fault
  | .raised message =>
      message

/-- A fault with the line of its token, as it is reported. -/
def text (fault : Fault) : Text :=
  Text.utf8 "[line " ++ Text.ofInt fault.token.line ++
    Text.utf8 "] Runtime error: " ++ fault.message

end Fault

end Script
