import Script.Tree

namespace Script

/-!
# Values

What expressions evaluate to.  Functions and classes never change once they are
made and are carried whole; each has a number of its own, by which it is told
apart from every other one.  An object carries its class and a number under
which its fields are kept elsewhere, since they change.
-/

/-- Functions that the host provides. -/
inductive Native where
  /-- The seconds since the start. -/
  | clock
  /-- The display text of a value. -/
  | str
  /-- A further function of an embedding program; it gives `nil`. -/
  | custom (identity : Nat) (arity : Int)
  deriving Repr, DecidableEq

namespace Native

/-- The number of arguments that a host function takes. -/
def arity : Native → Int
  | .clock =>
      0
  | .str =>
      1
  | .custom _ arity =>
      arity

end Native

/-- A function or a method together with the frame it was declared in. -/
structure Closure where
  identity : Nat
  function : FunctionDecl
  frame : Nat
  isInitializer : Bool

namespace Closure

/-- The declared name of a function. -/
def name (closure : Closure) : Text :=
  closure.function.name.lexeme

/-- The number of arguments that a function takes. -/
def arity (closure : Closure) : Nat :=
  closure.function.arity

end Closure

/-- A class: its name and its methods, which are not bound to a receiver yet. -/
structure ClassValue where
  identity : Nat
  name : Text
  methods : List (Text × Closure)

namespace ClassValue

/-- The method with a given name; of two with one name the latest counts. -/
def method?
    (members : ClassValue)
    (name : Text) :
    Option Closure :=
  members.methods.reverse.lookup name

/-- The method that initializes an instance. -/
def initializer? (members : ClassValue) : Option Closure :=
  members.method? (Text.utf8 "init")

/-- The number of arguments that constructing an instance takes. -/
def arity (members : ClassValue) : Nat :=
  (members.initializer?.map Closure.arity).getD 0

end ClassValue

/-- An instance of a class. -/
structure Object where
  identity : Nat
  members : ClassValue

/-- What expressions evaluate to. -/
inductive Value where
  | nil
  | bool (value : Bool)
  | number (value : Float)
  | text (value : Text)
  | native (host : Native)
  | function (closure : Closure)
  | classValue (members : ClassValue)
  | object (target : Object)

/-- The values that can be called. -/
inductive Callable where
  | native (host : Native)
  | function (closure : Closure)
  | classValue (members : ClassValue)

namespace Callable

/-- The number of arguments that a callable value takes. -/
def arity : Callable → Int
  | .native host =>
      host.arity
  | .function closure =>
      closure.arity
  | .classValue members =>
      members.arity

end Callable

namespace Value

/-- The value of a literal; a foreign one has none and counts as `nil`. -/
def ofLiteral : Literal → Value
  | .nil =>
      .nil
  | .bool value =>
      .bool value
  | .number value =>
      .number value
  | .text value =>
      .text value
  | .foreign =>
      .nil

/-- The callable that a value is. -/
def callable? : Value → Option Callable
  | .native host =>
      some (.native host)
  | .function closure =>
      some (.function closure)
  | .classValue members =>
      some (.classValue members)
  | _ =>
      none

/-- Whether a value counts as true: all do but `nil` and `false`. -/
def isTruthy : Value → Bool
  | .nil =>
      false
  | .bool value =>
      value
  | _ =>
      true

/-- Whether two values are equal: texts by their bytes, numbers as numbers, and
functions, classes and objects only to themselves. -/
def equals : Value → Value → Bool
  | .nil, .nil =>
      true
  | .bool left, .bool right =>
      left == right
  | .number left, .number right =>
      left == right
  | .text left, .text right =>
      left == right
  | .native left, .native right =>
      left == right
  | .function left, .function right =>
      left.identity == right.identity
  | .classValue left, .classValue right =>
      left.identity == right.identity
  | .object left, .object right =>
      left.identity == right.identity
  | _, _ =>
      false

/-- The text that printing a value shows. -/
def display : Value → Text
  | .nil =>
      Text.utf8 "nil"
  | .bool value =>
      Text.ofBool value
  | .number value =>
      NumberFormat.display.write value
  | .text value =>
      value
  | .native _ =>
      Text.utf8 "<native fn>"
  | .function closure =>
      Text.utf8 "<fn " ++ closure.name ++ Text.utf8 ">"
  | .classValue members =>
      members.name
  | .object target =>
      target.members.name ++ Text.utf8 " instance"

/-- The name of the type of a value. -/
def typeName : Value → String
  | .nil =>
      "nil"
  | .bool _ =>
      "bool"
  | .number _ =>
      "number"
  | .text _ =>
      "string"
  | .native _ =>
      "native"
  | .function _ =>
      "function"
  | .classValue _ =>
      "class"
  | .object _ =>
      "instance"

end Value

end Script
