import Script.Proofs.Tree.WellFormed

namespace Script.Lexical

/-!
# Positions

A position is a place in the tree of a source: the path that leads to it and the
scopes around it, the innermost one first, each with the names that it declares
before the position.  `Occurs` relates positions to the pieces of the tree that
stand there.  All of this is about the text of a program alone; nothing here
depends on scope analysis or on a run.
-/

/-- What opens a scope: a block, the parameters of a function, or a class for its
receiver. -/
inductive ScopeForm where
  | block
  | function
  | receiver
  deriving Repr, DecidableEq

/-- A scope is known by its source, the path to what opens it, and its form. -/
structure ScopeLabel where
  source : Nat
  path : List Nat
  form : ScopeForm
  deriving Repr, DecidableEq

/-- A scope as a position sees it. -/
structure Level where
  label : ScopeLabel
  /-- The names declared before the position, the latest one first. -/
  names : List Text
  /-- The name whose initializer the position is in. -/
  pending : Option Text

/-- Whether a scope declares a name before the position. -/
def Level.declares
    (level : Level)
    (name : Text) :
    Bool :=
  level.names.contains name || level.pending == some name

/-- A tree that is run, with its number among those of a session and whether
scope analysis has filled its distances in. -/
structure Origin where
  number : Nat
  resolved : Bool
  statements : List Stmt

/-- A place in the tree of a source. -/
structure Position where
  origin : Origin
  path : List Nat
  levels : List Level

namespace Position

/-- The position of the first statement. -/
def top (origin : Origin) : Position where
  origin := origin
  path := [0]
  levels := []

/-- The number of scopes between a position and the nearest one that declares a
name before it. -/
def nearest?
    (position : Position)
    (name : Text) :
    Option Nat :=
  position.levels.findIdx? (·.declares name)

/-- The position once the innermost scope has one more name. -/
def declare
    (position : Position)
    (name : Text) :
    Position :=
  match position.levels with
  | [] =>
      position
  | level :: outer =>
      { position with
        levels := { level with names := name :: level.names } :: outer }

/-- The position in the initializer of a name. -/
def initializing
    (position : Position)
    (name : Text) :
    Position :=
  match position.levels with
  | [] =>
      position
  | level :: outer =>
      { position with levels := { level with pending := some name } :: outer }

/-- The position of a part of a statement. -/
def inside
    (position : Position)
    (part : Nat) :
    Position :=
  { position with path := part :: position.path }

/-- The position of the next statement or method in a row. -/
def next (position : Position) : Position :=
  match position.path with
  | [] =>
      position
  | index :: outer =>
      { position with path := (index + 1) :: outer }

/-- The position in a scope that is opened here. -/
def enter
    (position : Position)
    (form : ScopeForm)
    (names : List Text) :
    Position :=
  { position with
    path := 0 :: position.path
    levels :=
      { label :=
          { source := position.origin.number, path := position.path, form }
        names
        pending := none } :: position.levels }

/-- The position in the block that stands here. -/
def inBlock (position : Position) : Position :=
  position.enter .block []

/-- The position in the body of the function that stands here. -/
def inFunction
    (position : Position)
    (function : FunctionDecl) :
    Position :=
  position.enter .function (function.parameters.map Token.lexeme).reverse

/-- The name of the receiver of a method. -/
def receiverName : Text :=
  Text.utf8 "this"

/-- The position of the methods of the class that stands here. -/
def inClass (position : Position) : Position :=
  position.enter .receiver [receiverName]

/-- The position once a statement has declared its name, if it declares one. -/
def declaring
    (position : Position)
    (stmt : Stmt) :
    Position :=
  match stmt.declaredName? with
  | some name =>
      position.declare name.lexeme
  | none =>
      position

section Origin

variable (position : Position)

@[simp]
theorem origin_declare (name : Text) :
    (position.declare name).origin = position.origin := by
  unfold declare
  split <;> rfl

@[simp]
theorem origin_initializing (name : Text) :
    (position.initializing name).origin = position.origin := by
  unfold initializing
  split <;> rfl

@[simp]
theorem origin_next : position.next.origin = position.origin := by
  unfold next
  split <;> rfl

@[simp]
theorem origin_declaring (stmt : Stmt) :
    (position.declaring stmt).origin = position.origin := by
  unfold declaring
  split <;> simp

@[simp]
theorem levels_next : position.next.levels = position.levels := by
  unfold next
  split <;> rfl

end Origin

/-- At the top level no scope gets a name. -/
theorem declaring_top
    (position : Position)
    (topLevel : position.levels = [])
    (stmt : Stmt) :
    position.declaring stmt = position := by
  unfold declaring declare
  rw [topLevel]
  split <;> rfl

end Position

/-- The pieces of a tree that have a position. -/
inductive Code where
  | expr (expr : Expr)
  | stmt (stmt : Stmt)
  | stmts (stmts : List Stmt)
  | function (function : FunctionDecl)
  | methods (methods : List FunctionDecl)

/-- `Occurs position code`: the code stands at the position in the tree of its
origin. -/
inductive Occurs : Position → Code → Prop where
  | program
      (origin : Origin) :
      Occurs (.top origin) (.stmts origin.statements)
  | firstStatement
      {position : Position}
      {first : Stmt}
      {rest : List Stmt} :
      Occurs position (.stmts (first :: rest)) →
      Occurs position (.stmt first)
  | laterStatements
      {position : Position}
      {first : Stmt}
      {rest : List Stmt} :
      Occurs position (.stmts (first :: rest)) →
      Occurs (position.declaring first).next (.stmts rest)
  | expressionValue
      {position : Position}
      {value : Expr} :
      Occurs position (.stmt (.expression value)) →
      Occurs position (.expr value)
  | printValue
      {position : Position}
      {value : Expr} :
      Occurs position (.stmt (.print value)) →
      Occurs position (.expr value)
  | initializer
      {position : Position}
      {name : Token}
      {initial : Expr} :
      Occurs position (.stmt (.variableDecl name (some initial))) →
      Occurs (position.initializing name.lexeme) (.expr initial)
  | blockBody
      {position : Position}
      {body : List Stmt} :
      Occurs position (.stmt (.block body)) →
      Occurs position.inBlock (.stmts body)
  | condition
      {position : Position}
      {condition : Expr}
      {consequent : Stmt}
      {alternative : Option Stmt} :
      Occurs position
        (.stmt (.conditional condition consequent alternative)) →
      Occurs position (.expr condition)
  | consequent
      {position : Position}
      {condition : Expr}
      {consequent : Stmt}
      {alternative : Option Stmt} :
      Occurs position
        (.stmt (.conditional condition consequent alternative)) →
      Occurs (position.inside 0) (.stmt consequent)
  | alternative
      {position : Position}
      {condition : Expr}
      {consequent alternative : Stmt} :
      Occurs position
        (.stmt (.conditional condition consequent (some alternative))) →
      Occurs (position.inside 1) (.stmt alternative)
  | loopCondition
      {position : Position}
      {condition : Expr}
      {body : Stmt} :
      Occurs position (.stmt (.loop condition body)) →
      Occurs position (.expr condition)
  | loopBody
      {position : Position}
      {condition : Expr}
      {body : Stmt} :
      Occurs position (.stmt (.loop condition body)) →
      Occurs (position.inside 0) (.stmt body)
  | functionDecl
      {position : Position}
      {function : FunctionDecl} :
      Occurs position (.stmt (.functionDecl function)) →
      Occurs (position.declare function.name.lexeme) (.function function)
  | functionBody
      {position : Position}
      {function : FunctionDecl} :
      Occurs position (.function function) →
      Occurs (position.inFunction function) (.stmts function.body)
  | returnValue
      {position : Position}
      {keyword : Token}
      {value : Expr} :
      Occurs position (.stmt (.returning keyword (some value))) →
      Occurs position (.expr value)
  | classMethods
      {position : Position}
      {name : Token}
      {methods : List FunctionDecl} :
      Occurs position (.stmt (.classDecl name methods)) →
      Occurs (position.declare name.lexeme).inClass (.methods methods)
  | firstMethod
      {position : Position}
      {first : FunctionDecl}
      {rest : List FunctionDecl} :
      Occurs position (.methods (first :: rest)) →
      Occurs position (.function first)
  | laterMethods
      {position : Position}
      {first : FunctionDecl}
      {rest : List FunctionDecl} :
      Occurs position (.methods (first :: rest)) →
      Occurs position.next (.methods rest)
  | grouped
      {position : Position}
      {inner : Expr} :
      Occurs position (.expr (.group inner)) →
      Occurs position (.expr inner)
  | unaryOperand
      {position : Position}
      {operator : Token}
      {operand : Expr} :
      Occurs position (.expr (.unary operator operand)) →
      Occurs position (.expr operand)
  | binaryLeft
      {position : Position}
      {operator : Token}
      {left right : Expr} :
      Occurs position (.expr (.binary left operator right)) →
      Occurs position (.expr left)
  | binaryRight
      {position : Position}
      {operator : Token}
      {left right : Expr} :
      Occurs position (.expr (.binary left operator right)) →
      Occurs position (.expr right)
  | logicalLeft
      {position : Position}
      {operator : Token}
      {left right : Expr} :
      Occurs position (.expr (.logical left operator right)) →
      Occurs position (.expr left)
  | logicalRight
      {position : Position}
      {operator : Token}
      {left right : Expr} :
      Occurs position (.expr (.logical left operator right)) →
      Occurs position (.expr right)
  | assigned
      {position : Position}
      {name : Token}
      {value : Expr}
      {distance : Option Nat} :
      Occurs position (.expr (.assign name value distance)) →
      Occurs position (.expr value)
  | callee
      {position : Position}
      {closing : Token}
      {callee : Expr}
      {arguments : List Expr} :
      Occurs position (.expr (.call callee closing arguments)) →
      Occurs position (.expr callee)
  | argument
      {position : Position}
      {closing : Token}
      {callee argument : Expr}
      {arguments : List Expr} :
      Occurs position (.expr (.call callee closing arguments)) →
      argument ∈ arguments →
      Occurs position (.expr argument)
  | propertyObject
      {position : Position}
      {name : Token}
      {object : Expr} :
      Occurs position (.expr (.property object name)) →
      Occurs position (.expr object)
  | fieldObject
      {position : Position}
      {name : Token}
      {object value : Expr} :
      Occurs position (.expr (.setProperty object name value)) →
      Occurs position (.expr object)
  | fieldValue
      {position : Position}
      {name : Token}
      {object value : Expr} :
      Occurs position (.expr (.setProperty object name value)) →
      Occurs position (.expr value)

end Script.Lexical
