import Script.Scope.Resolution

namespace Script

/-!
# Spots

A spot is a place where a program declares a name, reads a variable or a receiver,
or returns.  The spots of a program are listed in the order in which scope analysis
comes to them, each with everything that is around it.  What is wrong with a spot is
said by what is around it and by the spots before it; no scope is opened or closed
on the way.
-/

/-- What a program does at a spot. -/
inductive Deed where
  | declares
  | reads
  | readsReceiver
  | returns (hasValue : Bool)
  deriving Repr, DecidableEq

namespace Deed

/-- Whether a spot is a `return`. -/
def isReturn : Deed → Bool
  | .returns _ =>
      true
  | _ =>
      false

end Deed

/-- What is around a spot.  What has names of its own is known by its path; a
function and its parameters are one thing. -/
inductive Surrounding where
  | block (path : List Nat)
  | function (path : List Nat)
  | method (path : List Nat) (name : Text)
  | classBody
  | initializer (name : Text)
  deriving Repr, DecidableEq

namespace Surrounding

/-- The path to what has names of its own. -/
def path? : Surrounding → Option (List Nat)
  | .block path | .function path | .method path _ =>
      some path
  | .classBody | .initializer _ =>
      none

/-- Whether this is a function, a method being one too. -/
def isFunction : Surrounding → Bool
  | .function _ | .method _ _ =>
      true
  | _ =>
      false

/-- Whether this is the method that initializes an instance. -/
def isInitializer : Surrounding → Bool
  | .method _ name =>
      name == Site.initializerName
  | _ =>
      false

/-- The innermost scope of what is around a spot. -/
def scope? (around : List Surrounding) : Option Surrounding :=
  around.find? (·.path?.isSome)

/-- The innermost function of what is around a spot. -/
def function? (around : List Surrounding) : Option Surrounding :=
  around.find? (·.isFunction)

end Surrounding

/-- A place that scope analysis may complain about: its token, what the program does
there, and what is around it, the innermost first. -/
structure Spot where
  token : Token
  deed : Deed
  around : List Surrounding
  deriving Repr

mutual

/-- The spots of an expression; the value of a property assignment comes before its
object. -/
def Expr.spots
    (around : List Surrounding) :
    Expr → List Spot
  | .literal _ | .missing =>
      []
  | .group inner =>
      inner.spots around
  | .unary _ operand =>
      operand.spots around
  | .binary left _ right | .logical left _ right =>
      left.spots around ++ right.spots around
  | .reference name _ =>
      [{ token := name, deed := .reads, around }]
  | .assign _ value _ =>
      value.spots around
  | .call callee _ arguments =>
      callee.spots around ++ Expr.allSpots around arguments
  | .property object _ =>
      object.spots around
  | .setProperty object _ value =>
      value.spots around ++ object.spots around
  | .receiver keyword _ =>
      [{ token := keyword, deed := .readsReceiver, around }]

/-- The spots of expressions, one expression after the other. -/
def Expr.allSpots
    (around : List Surrounding) :
    List Expr → List Spot
  | [] =>
      []
  | first :: rest =>
      first.spots around ++ Expr.allSpots around rest

end

/-- The spots of an expression that may be absent. -/
def Expr.optionalSpots
    (around : List Surrounding)
    (value : Option Expr) :
    List Spot :=
  (value.map (Expr.spots around)).getD []

mutual

/-- The spots of the statement at a path. -/
def Stmt.spots
    (around : List Surrounding)
    (path : List Nat) :
    Stmt → List Spot
  | .expression value | .print value =>
      value.spots around
  | .variableDecl name initial =>
      { token := name, deed := .declares, around } ::
        Expr.optionalSpots (.initializer name.lexeme :: around) initial
  | .block body =>
      Stmt.allSpots (.block path :: around) 0 path body
  | .conditional condition consequent none =>
      condition.spots around ++ consequent.spots around (0 :: path)
  | .conditional condition consequent (some alternative) =>
      condition.spots around ++ consequent.spots around (0 :: path) ++
        alternative.spots around (1 :: path)
  | .loop condition body =>
      condition.spots around ++ body.spots around (0 :: path)
  | .functionDecl function =>
      { token := function.name, deed := .declares, around } ::
        function.spots (.function path :: around) path
  | .returning keyword value =>
      { token := keyword, deed := .returns value.isSome, around } ::
        Expr.optionalSpots around value
  | .classDecl name methods =>
      { token := name, deed := .declares, around } ::
        FunctionDecl.allSpots (.classBody :: around) 0 path methods
  | .missing =>
      []

/-- The spots of statements in a row, the first of which has a number in what is at
the path. -/
def Stmt.allSpots
    (around : List Surrounding)
    (number : Nat)
    (path : List Nat) :
    List Stmt → List Spot
  | [] =>
      []
  | first :: rest =>
      first.spots around (number :: path) ++
        Stmt.allSpots around (number + 1) path rest

/-- The spots of the function at a path: its parameters and those of its body. -/
def FunctionDecl.spots
    (around : List Surrounding)
    (path : List Nat) :
    FunctionDecl → List Spot
  | { parameters, body, .. } =>
      parameters.map (fun token => { token, deed := .declares, around }) ++
        Stmt.allSpots around 0 path body

/-- The spots of methods in a row, the first of which has a number in the class at
the path. -/
def FunctionDecl.allSpots
    (around : List Surrounding)
    (number : Nat)
    (path : List Nat) :
    List FunctionDecl → List Spot
  | [] =>
      []
  | first :: rest =>
      first.spots (.method (number :: path) first.name.lexeme :: around)
          (number :: path) ++
        FunctionDecl.allSpots around (number + 1) path rest

end

namespace Spot

/-- The innermost scope around a spot; at the top level there is none. -/
def scope? (spot : Spot) : Option Surrounding :=
  Surrounding.scope? spot.around

/-- A `return` with no function around it. -/
def ReturnsOutside (spot : Spot) : Prop :=
  spot.deed.isReturn = true ∧
    ∀ surrounding ∈ spot.around, surrounding.isFunction = false

/-- A `return` with a value, the innermost function around which is the method that
initializes an instance. -/
def ReturnsFromInitializer (spot : Spot) : Prop :=
  spot.deed = .returns true ∧
    ∃ function ∈ Surrounding.function? spot.around,
      function.isInitializer = true

/-- A receiver with no class around it. -/
def LacksClass (spot : Spot) : Prop :=
  spot.deed = .readsReceiver ∧ .classBody ∉ spot.around

/-- A variable that is read in the initializer of a local variable of its name. -/
def ReadsItself (spot : Spot) : Prop :=
  spot.deed = .reads ∧
    spot.scope?.isSome = true ∧
    .initializer spot.token.lexeme ∈ spot.around

/-- A spot that declares a name in a scope. -/
def DeclaresIn
    (spot : Spot)
    (scope : Option Surrounding)
    (name : Text) :
    Prop :=
  spot.deed = .declares ∧ spot.token.lexeme = name ∧ spot.scope? = scope

/-- A local name that a spot before declares in the same scope. -/
def Redeclares
    (earlier : List Spot)
    (spot : Spot) :
    Prop :=
  spot.deed = .declares ∧
    spot.scope?.isSome = true ∧
    ∃ other ∈ earlier, other.DeclaresIn spot.scope? spot.token.lexeme

instance (spot : Spot) : Decidable spot.ReturnsOutside :=
  inferInstanceAs (Decidable (_ ∧ _))

instance (spot : Spot) : Decidable spot.ReturnsFromInitializer :=
  inferInstanceAs (Decidable (_ ∧ _))

instance (spot : Spot) : Decidable spot.LacksClass :=
  inferInstanceAs (Decidable (_ ∧ _))

instance (spot : Spot) : Decidable spot.ReadsItself :=
  inferInstanceAs (Decidable (_ ∧ _))

instance
    (spot : Spot)
    (scope : Option Surrounding)
    (name : Text) :
    Decidable (spot.DeclaresIn scope name) :=
  inferInstanceAs (Decidable (_ ∧ _))

instance
    (earlier : List Spot)
    (spot : Spot) :
    Decidable (spot.Redeclares earlier) :=
  inferInstanceAs (Decidable (_ ∧ _))

/-- What is wrong with a spot in view of the spots before it. -/
def problem?
    (earlier : List Spot)
    (spot : Spot) :
    Option Problem :=
  if spot.ReturnsOutside then
    some .returnOutsideFunction
  else if spot.ReturnsFromInitializer then
    some .returnFromInitializer
  else if spot.LacksClass then
    some .thisOutsideClass
  else if spot.ReadsItself then
    some .ownInitializer
  else if spot.Redeclares earlier then
    some .alreadyDeclared
  else
    none

/-- The problems of spots in a row, each at the token of its spot. -/
def problems
    (earlier : List Spot) :
    List Spot → List Diagnostic
  | [] =>
      []
  | spot :: rest =>
      ((spot.problem? earlier).map (Diagnostic.atToken spot.token)).toList ++
        problems (earlier ++ [spot]) rest

end Spot

end Script
