import Script.Scope.Hole
import Script.Tree

namespace Script

/-!
# Well-formed trees

A tree is well formed when it has no holes, its operators are operators of the
right kind, its names are names, the branches of a conditional and the body of a
loop declare nothing, and no distance has been filled in yet.  The tokens in a
well-formed tree all satisfy a predicate, so that one can say where they come
from.
-/

namespace TokenKind

/-- The operators that stand before one operand. -/
def unaryOperators : List TokenKind :=
  [.bang, .minus]

/-- The operators of arithmetic, comparison and equality. -/
def binaryOperators : List TokenKind :=
  [.minus, .plus, .slash, .star, .greater, .greaterEqual, .less, .lessEqual,
   .bangEqual, .equalEqual]

/-- The operators that may leave their right operand alone. -/
def logicalOperators : List TokenKind :=
  [.keyword .andWord, .keyword .orWord]

end TokenKind

namespace Stmt

/-- The name that a statement declares in the scope around it. -/
def declaredName? : Stmt → Option Token
  | .variableDecl name _ =>
      some name
  | .functionDecl function =>
      some function.name
  | .classDecl name _ =>
      some name
  | _ =>
      none

end Stmt

/-- Expressions as the parser makes them. -/
inductive Expr.WellFormed (known : Token → Prop) : Expr → Prop where
  | literal
      (value : Literal) :
      WellFormed known (.literal value)
  | group
      {inner : Expr} :
      WellFormed known inner →
      WellFormed known (.group inner)
  | unary
      {operator : Token}
      {operand : Expr} :
      known operator →
      operator.kind ∈ TokenKind.unaryOperators →
      WellFormed known operand →
      WellFormed known (.unary operator operand)
  | binary
      {left right : Expr}
      {operator : Token} :
      WellFormed known left →
      known operator →
      operator.kind ∈ TokenKind.binaryOperators →
      WellFormed known right →
      WellFormed known (.binary left operator right)
  | logical
      {left right : Expr}
      {operator : Token} :
      WellFormed known left →
      known operator →
      operator.kind ∈ TokenKind.logicalOperators →
      WellFormed known right →
      WellFormed known (.logical left operator right)
  | reference
      {name : Token} :
      known name →
      name.kind = .identifier →
      WellFormed known (.reference name none)
  | assign
      {name : Token}
      {value : Expr} :
      known name →
      name.kind = .identifier →
      WellFormed known value →
      WellFormed known (.assign name value none)
  | call
      {callee : Expr}
      {closing : Token}
      {arguments : List Expr} :
      WellFormed known callee →
      known closing →
      closing.kind = .rightParen →
      (∀ argument ∈ arguments, WellFormed known argument) →
      WellFormed known (.call callee closing arguments)
  | property
      {object : Expr}
      {name : Token} :
      WellFormed known object →
      known name →
      name.kind = .identifier →
      WellFormed known (.property object name)
  | setProperty
      {object value : Expr}
      {name : Token} :
      WellFormed known object →
      known name →
      name.kind = .identifier →
      WellFormed known value →
      WellFormed known (.setProperty object name value)
  | receiver
      {keyword : Token} :
      known keyword →
      keyword.kind = .keyword .thisWord →
      WellFormed known (.receiver keyword none)

/-- The expressions right inside of an expression. -/
def Expr.operands : Expr → List Expr
  | .group inner =>
      [inner]
  | .unary _ operand =>
      [operand]
  | .binary left _ right | .logical left _ right =>
      [left, right]
  | .assign _ value _ =>
      [value]
  | .call callee _ arguments =>
      callee :: arguments
  | .property object _ =>
      [object]
  | .setProperty object _ value =>
      [object, value]
  | .literal _ | .reference _ _ | .receiver _ _ | .missing =>
      []

theorem Expr.WellFormed.operand
    {known : Token → Prop}
    {expr operand : Expr}
    (formed : expr.WellFormed known)
    (member : operand ∈ expr.operands) :
    operand.WellFormed known := by
  cases formed with
  | group inner | unary _ _ inner | assign _ _ inner | property inner =>
      obtain rfl := List.mem_singleton.mp member
      exact inner
  | binary left _ _ right | logical left _ _ right
  | setProperty left _ _ right =>
      rcases List.mem_cons.mp member with rfl | member
      · exact left
      · obtain rfl := List.mem_singleton.mp member
        exact right
  | call callee _ _ arguments =>
      rcases List.mem_cons.mp member with rfl | member
      · exact callee
      · exact arguments operand member
  | literal | reference | receiver =>
      cases member

/-- Names of functions and their parameters are names. -/
structure FunctionDecl.WellNamed
    (known : Token → Prop)
    (function : FunctionDecl) :
    Prop where
  nameKnown : known function.name
  nameKind : function.name.kind = .identifier
  parametersKnown :
    ∀ parameter ∈ function.parameters, known parameter
  parametersKind :
    ∀ parameter ∈ function.parameters, parameter.kind = .identifier

/-- Statements as the parser makes them. -/
inductive Stmt.WellFormed (known : Token → Prop) : Stmt → Prop where
  | expression
      {value : Expr} :
      value.WellFormed known →
      WellFormed known (.expression value)
  | print
      {value : Expr} :
      value.WellFormed known →
      WellFormed known (.print value)
  | variableDecl
      {name : Token}
      {initial : Option Expr} :
      known name →
      name.kind = .identifier →
      (∀ value ∈ initial, value.WellFormed known) →
      WellFormed known (.variableDecl name initial)
  | block
      {body : List Stmt} :
      (∀ stmt ∈ body, WellFormed known stmt) →
      WellFormed known (.block body)
  | conditional
      {condition : Expr}
      {consequent : Stmt}
      {alternative : Option Stmt} :
      condition.WellFormed known →
      WellFormed known consequent →
      consequent.declaredName? = none →
      (∀ stmt ∈ alternative, WellFormed known stmt) →
      (∀ stmt ∈ alternative, stmt.declaredName? = none) →
      WellFormed known (.conditional condition consequent alternative)
  | loop
      {condition : Expr}
      {body : Stmt} :
      condition.WellFormed known →
      WellFormed known body →
      body.declaredName? = none →
      WellFormed known (.loop condition body)
  | functionDecl
      {function : FunctionDecl} :
      function.WellNamed known →
      (∀ stmt ∈ function.body, WellFormed known stmt) →
      WellFormed known (.functionDecl function)
  | returning
      {keyword : Token}
      {value : Option Expr} :
      known keyword →
      keyword.kind = .keyword .returnWord →
      (∀ expr ∈ value, expr.WellFormed known) →
      WellFormed known (.returning keyword value)
  | classDecl
      {name : Token}
      {methods : List FunctionDecl} :
      known name →
      name.kind = .identifier →
      (∀ method ∈ methods, method.WellNamed known) →
      (∀ method ∈ methods, ∀ stmt ∈ method.body, WellFormed known stmt) →
      WellFormed known (.classDecl name methods)

/-- The expressions that a statement evaluates in the scopes around it. -/
def Stmt.values : Stmt → List Expr
  | .expression value | .print value =>
      [value]
  | .conditional condition _ _ | .loop condition _ =>
      [condition]
  | .returning _ value =>
      value.toList
  | _ =>
      []

theorem Stmt.WellFormed.value
    {known : Token → Prop}
    {stmt : Stmt}
    {value : Expr}
    (formed : stmt.WellFormed known)
    (member : value ∈ stmt.values) :
    value.WellFormed known := by
  cases formed with
  | expression inner | print inner | conditional inner | loop inner =>
      obtain rfl := List.mem_singleton.mp member
      exact inner
  | returning _ _ inner =>
      exact inner value (Option.mem_toList.mp member)
  | variableDecl | block | functionDecl | classDecl =>
      cases member

/-- Functions and methods as the parser makes them. -/
structure FunctionDecl.WellFormed
    (known : Token → Prop)
    (function : FunctionDecl) :
    Prop where
  named : function.WellNamed known
  body : ∀ stmt ∈ function.body, stmt.WellFormed known

section Holes

variable {known : Token → Prop}

theorem Expr.anyHole?_eq_none
    {exprs : List Expr}
    (whole : ∀ expr ∈ exprs, expr.hole? = none) :
    Expr.anyHole? exprs = none := by
  induction exprs with
  | nil =>
      rw [Expr.anyHole?]
  | cons first rest inductionHypothesis =>
      rw [Expr.anyHole?, whole first List.mem_cons_self, Option.none_or]
      exact inductionHypothesis
        fun expr member => whole expr (List.mem_cons_of_mem first member)

/-- A well-formed expression has no hole. -/
theorem Expr.WellFormed.hole?_eq_none
    {expr : Expr}
    (formed : expr.WellFormed known) :
    expr.hole? = none := by
  induction formed with
  | literal | reference | receiver =>
      rw [Expr.hole?]
  | group _ inner =>
      rw [Expr.hole?, inner]
  | unary _ _ _ operand =>
      rw [Expr.hole?, operand]
  | binary _ _ _ _ left right | logical _ _ _ _ left right =>
      rw [Expr.hole?, left, right, Option.none_or]
  | assign _ _ _ value =>
      rw [Expr.hole?, value]
  | call _ _ _ _ callee arguments =>
      rw [Expr.hole?, callee, Option.none_or]
      exact Expr.anyHole?_eq_none arguments
  | property _ _ _ object =>
      rw [Expr.hole?, object]
  | setProperty _ _ _ _ object value =>
      rw [Expr.hole?, object, value, Option.none_or]

theorem Stmt.anyHole?_eq_none
    {stmts : List Stmt}
    (whole : ∀ stmt ∈ stmts, stmt.hole? = none) :
    Stmt.anyHole? stmts = none := by
  induction stmts with
  | nil =>
      rw [Stmt.anyHole?]
  | cons first rest inductionHypothesis =>
      rw [Stmt.anyHole?, whole first List.mem_cons_self, Option.none_or]
      exact inductionHypothesis
        fun stmt member => whole stmt (List.mem_cons_of_mem first member)

theorem FunctionDecl.hole?_eq_none
    {function : FunctionDecl}
    (whole : ∀ stmt ∈ function.body, stmt.hole? = none) :
    function.hole? = none := by
  cases function with
  | mk name parameters body =>
      rw [FunctionDecl.hole?, Stmt.anyHole?_eq_none whole]

theorem FunctionDecl.anyHole?_eq_none
    {functions : List FunctionDecl}
    (whole : ∀ function ∈ functions, function.hole? = none) :
    FunctionDecl.anyHole? functions = none := by
  induction functions with
  | nil =>
      rw [FunctionDecl.anyHole?]
  | cons first rest inductionHypothesis =>
      rw [FunctionDecl.anyHole?, whole first List.mem_cons_self,
        Option.none_or]
      exact inductionHypothesis
        fun function member =>
          whole function (List.mem_cons_of_mem first member)

/-- An expression that may be left out has no hole when it is well formed. -/
theorem Expr.WellFormed.bind_hole?_eq_none
    {value : Option Expr}
    (formed : ∀ expr ∈ value, expr.WellFormed known) :
    value.bind Expr.hole? = none := by
  cases value with
  | none =>
      rfl
  | some expr =>
      exact (formed expr rfl).hole?_eq_none

/-- A well-formed statement has no hole. -/
theorem Stmt.WellFormed.hole?_eq_none
    {stmt : Stmt}
    (formed : stmt.WellFormed known) :
    stmt.hole? = none := by
  induction formed with
  | expression value | print value =>
      rw [Stmt.hole?, value.hole?_eq_none]
  | variableDecl _ _ value | returning _ _ value =>
      rw [Stmt.hole?, Expr.WellFormed.bind_hole?_eq_none value]
  | block _ body =>
      rw [Stmt.hole?, Stmt.anyHole?_eq_none body]
  | @conditional _ _ alternative condition _ _ _ _ consequent otherwise =>
      cases alternative with
      | none =>
          rw [Stmt.hole?, condition.hole?_eq_none, consequent, Option.none_or]
      | some alternative =>
          rw [Stmt.hole?, condition.hole?_eq_none, consequent,
            otherwise alternative rfl, Option.none_or, Option.none_or]
  | loop condition _ _ body =>
      rw [Stmt.hole?, condition.hole?_eq_none, body, Option.none_or]
  | functionDecl _ _ body =>
      rw [Stmt.hole?, FunctionDecl.hole?_eq_none body]
  | classDecl _ _ _ _ bodies =>
      rw [Stmt.hole?, FunctionDecl.anyHole?_eq_none]
      exact fun method member =>
        FunctionDecl.hole?_eq_none (bodies method member)

end Holes

end Script
