import Script.Proofs.Alignment.Outline

namespace Script

/-!
# Aligned trees

Two trees are aligned when they differ in nothing but distances and names.  Two
distances lead to the same scope of both, and there a name is what the change of names
makes of it.  The names of functions and classes stay.
-/

section Relation

variable (change : Change)

mutual

/-- Expressions that are aligned. -/
inductive Expr.Aligned : Outline → Expr → Expr → Prop where
  | literal
      {outline : Outline}
      (value : Literal) :
      Expr.Aligned outline (.literal value) (.literal value)
  | group
      {outline : Outline}
      {inner other : Expr} :
      Expr.Aligned outline inner other →
      Expr.Aligned outline (.group inner) (.group other)
  | unary
      {outline : Outline}
      (operator : Token)
      {operand other : Expr} :
      Expr.Aligned outline operand other →
      Expr.Aligned outline (.unary operator operand) (.unary operator other)
  | binary
      {outline : Outline}
      (operator : Token)
      {left right otherLeft otherRight : Expr} :
      Expr.Aligned outline left otherLeft →
      Expr.Aligned outline right otherRight →
      Expr.Aligned outline (.binary left operator right)
        (.binary otherLeft operator otherRight)
  | logical
      {outline : Outline}
      (operator : Token)
      {left right otherLeft otherRight : Expr} :
      Expr.Aligned outline left otherLeft →
      Expr.Aligned outline right otherRight →
      Expr.Aligned outline (.logical left operator right)
        (.logical otherLeft operator otherRight)
  | reference
      {outline : Outline}
      {name : Token}
      {distance otherDistance : Option Nat}
      {marked : Bool} :
      outline.MeetsOption distance otherDistance marked →
      change.Avoids outline name.lexeme →
      Expr.Aligned outline (.reference name distance)
        (.reference (change.token marked name) otherDistance)
  | assign
      {outline : Outline}
      {name : Token}
      {value other : Expr}
      {distance otherDistance : Option Nat}
      {marked : Bool} :
      Expr.Aligned outline value other →
      outline.MeetsOption distance otherDistance marked →
      change.Avoids outline name.lexeme →
      Expr.Aligned outline (.assign name value distance)
        (.assign (change.token marked name) other otherDistance)
  | call
      {outline : Outline}
      (closing : Token)
      {callee other : Expr}
      {arguments otherArguments : List Expr} :
      Expr.Aligned outline callee other →
      Expr.AllAligned outline arguments otherArguments →
      Expr.Aligned outline (.call callee closing arguments)
        (.call other closing otherArguments)
  | property
      {outline : Outline}
      (name : Token)
      {object other : Expr} :
      Expr.Aligned outline object other →
      Expr.Aligned outline (.property object name) (.property other name)
  | setProperty
      {outline : Outline}
      (name : Token)
      {object other value otherValue : Expr} :
      Expr.Aligned outline object other →
      Expr.Aligned outline value otherValue →
      Expr.Aligned outline (.setProperty object name value)
        (.setProperty other name otherValue)
  | receiver
      {outline : Outline}
      {keyword : Token}
      {distance otherDistance : Option Nat}
      {marked : Bool} :
      outline.MeetsOption distance otherDistance marked →
      change.Keeps outline marked keyword.lexeme →
      Expr.Aligned outline (.receiver keyword distance)
        (.receiver keyword otherDistance)
  | missing
      {outline : Outline} :
      Expr.Aligned outline .missing .missing

/-- Expressions that are aligned, one by one. -/
inductive Expr.AllAligned : Outline → List Expr → List Expr → Prop where
  | nil
      {outline : Outline} :
      Expr.AllAligned outline [] []
  | cons
      {outline : Outline}
      {first other : Expr}
      {rest otherRest : List Expr} :
      Expr.Aligned outline first other →
      Expr.AllAligned outline rest otherRest →
      Expr.AllAligned outline (first :: rest) (other :: otherRest)

end

/-- Expressions that may be absent and are aligned. -/
inductive Expr.OptionAligned :
    Outline → Option Expr → Option Expr → Prop where
  | absent
      {outline : Outline} :
      Expr.OptionAligned outline none none
  | present
      {outline : Outline}
      {value other : Expr} :
      Expr.Aligned change outline value other →
      Expr.OptionAligned outline (some value) (some other)

mutual

/-- Statements that are aligned. -/
inductive Stmt.Aligned : Outline → Stmt → Stmt → Prop where
  | expression
      {outline : Outline}
      {value other : Expr} :
      Expr.Aligned change outline value other →
      Stmt.Aligned outline (.expression value) (.expression other)
  | print
      {outline : Outline}
      {value other : Expr} :
      Expr.Aligned change outline value other →
      Stmt.Aligned outline (.print value) (.print other)
  | variableDecl
      {outline : Outline}
      {name : Token}
      {initial other : Option Expr}
      {marked : Bool} :
      outline.Common marked →
      change.Avoids outline name.lexeme →
      Expr.OptionAligned change outline initial other →
      Stmt.Aligned outline (.variableDecl name initial)
        (.variableDecl (change.token marked name) other)
  | block
      {outline : Outline}
      (marked : Bool)
      {body other : List Stmt} :
      Stmt.AllAligned (.both marked :: outline) body other →
      Stmt.Aligned outline (.block body) (.block other)
  | conditional
      {outline : Outline}
      {condition other : Expr}
      {consequent otherConsequent : Stmt} :
      Expr.Aligned change outline condition other →
      Stmt.Aligned outline consequent otherConsequent →
      Stmt.Aligned outline (.conditional condition consequent none)
        (.conditional other otherConsequent none)
  | choice
      {outline : Outline}
      {condition other : Expr}
      {consequent otherConsequent alternative otherAlternative : Stmt} :
      Expr.Aligned change outline condition other →
      Stmt.Aligned outline consequent otherConsequent →
      Stmt.Aligned outline alternative otherAlternative →
      Stmt.Aligned outline (.conditional condition consequent (some alternative))
        (.conditional other otherConsequent (some otherAlternative))
  | loop
      {outline : Outline}
      {condition other : Expr}
      {body otherBody : Stmt} :
      Expr.Aligned change outline condition other →
      Stmt.Aligned outline body otherBody →
      Stmt.Aligned outline (.loop condition body) (.loop other otherBody)
  | functionDecl
      {outline : Outline}
      {function other : FunctionDecl}
      {marked : Bool} :
      outline.Common marked →
      change.Keeps outline marked function.name.lexeme →
      FunctionDecl.Aligned outline function other →
      Stmt.Aligned outline (.functionDecl function) (.functionDecl other)
  | returning
      {outline : Outline}
      (keyword : Token)
      {value other : Option Expr} :
      Expr.OptionAligned change outline value other →
      Stmt.Aligned outline (.returning keyword value) (.returning keyword other)
  | classDecl
      {outline : Outline}
      {name : Token}
      {methods other : List FunctionDecl}
      {marked : Bool} :
      outline.Common marked →
      change.Keeps outline marked name.lexeme →
      FunctionDecl.AllAligned (.both false :: outline) methods other →
      Stmt.Aligned outline (.classDecl name methods) (.classDecl name other)
  | missing
      {outline : Outline} :
      Stmt.Aligned outline .missing .missing

/-- Statements in a row that are aligned. -/
inductive Stmt.AllAligned : Outline → List Stmt → List Stmt → Prop where
  | nil
      {outline : Outline} :
      Stmt.AllAligned outline [] []
  | cons
      {outline : Outline}
      {first other : Stmt}
      {rest otherRest : List Stmt} :
      Stmt.Aligned outline first other →
      Stmt.AllAligned outline rest otherRest →
      Stmt.AllAligned outline (first :: rest) (other :: otherRest)

/-- Functions that are aligned. -/
inductive FunctionDecl.Aligned :
    Outline → FunctionDecl → FunctionDecl → Prop where
  | mk
      {outline : Outline}
      (marked : Bool)
      (name : Token)
      {parameters : List Token}
      {body other : List Stmt} :
      (∀ parameter ∈ parameters,
        change.Avoids (.both marked :: outline) parameter.lexeme) →
      Stmt.AllAligned (.both marked :: outline) body other →
      FunctionDecl.Aligned outline { name, parameters, body }
        { name, parameters := parameters.map (change.token marked),
          body := other }

/-- Methods that are aligned, one by one. -/
inductive FunctionDecl.AllAligned :
    Outline → List FunctionDecl → List FunctionDecl → Prop where
  | nil
      {outline : Outline} :
      FunctionDecl.AllAligned outline [] []
  | cons
      {outline : Outline}
      {first other : FunctionDecl}
      {rest otherRest : List FunctionDecl} :
      FunctionDecl.Aligned outline first other →
      FunctionDecl.AllAligned outline rest otherRest →
      FunctionDecl.AllAligned outline (first :: rest) (other :: otherRest)

end

end Relation

/-- A function keeps its name. -/
theorem FunctionDecl.Aligned.name_eq
    {change : Change}
    {outline : Outline}
    {function other : FunctionDecl}
    (aligned : function.Aligned change outline other) :
    other.name = function.name := by
  cases aligned
  rfl

theorem FunctionDecl.Aligned.arity_eq
    {change : Change}
    {outline : Outline}
    {function other : FunctionDecl}
    (aligned : function.Aligned change outline other) :
    other.arity = function.arity := by
  cases aligned
  simp [FunctionDecl.arity]

section Unmarked

variable {change : Change} {outline : Outline}

/-! In a scope that is not marked a name is the same in both trees. -/

theorem Expr.Aligned.reference_unmarked
    {name : Token}
    {distance otherDistance : Option Nat}
    (meets : outline.MeetsOption distance otherDistance false)
    (avoids : change.Avoids outline name.lexeme) :
    Expr.Aligned change outline (.reference name distance)
      (.reference name otherDistance) := by
  have aligned := Expr.Aligned.reference meets avoids
  rwa [change.token_false] at aligned

theorem Expr.Aligned.assign_unmarked
    {name : Token}
    {value other : Expr}
    {distance otherDistance : Option Nat}
    (values : value.Aligned change outline other)
    (meets : outline.MeetsOption distance otherDistance false)
    (avoids : change.Avoids outline name.lexeme) :
    Expr.Aligned change outline (.assign name value distance)
      (.assign name other otherDistance) := by
  have aligned := Expr.Aligned.assign values meets avoids
  rwa [change.token_false] at aligned

theorem Stmt.Aligned.variableDecl_unmarked
    {name : Token}
    {initial other : Option Expr}
    (common : outline.Common false)
    (avoids : change.Avoids outline name.lexeme)
    (initials : Expr.OptionAligned change outline initial other) :
    Stmt.Aligned change outline (.variableDecl name initial)
      (.variableDecl name other) := by
  have aligned := Stmt.Aligned.variableDecl common avoids initials
  rwa [change.token_false] at aligned

theorem FunctionDecl.Aligned.unmarked
    (name : Token)
    {parameters : List Token}
    {body other : List Stmt}
    (avoids :
      ∀ parameter ∈ parameters,
        change.Avoids (.both false :: outline) parameter.lexeme)
    (bodies : Stmt.AllAligned change (.both false :: outline) body other) :
    FunctionDecl.Aligned change outline { name, parameters, body }
      { name, parameters, body := other } := by
  have aligned := FunctionDecl.Aligned.mk false name avoids bodies
  rwa [change.map_token_false] at aligned

end Unmarked

section Unchanged

variable (change : Change) {outline : Outline}

theorem Outline.shared_both
    (shared : ∀ side ∈ outline, side = .both false) :
    ∀ side ∈ Side.both false :: outline, side = .both false := by
  simpa using shared

theorem Outline.common_of_shared
    (shared : ∀ side ∈ outline, side = .both false) :
    outline.Common false :=
  .refl shared 0

mutual

/-- An expression is aligned with itself where both programs have all scopes, and none
of them is marked. -/
theorem Expr.Aligned.refl
    (shared : ∀ side ∈ outline, side = .both false) :
    (expr : Expr) →
    expr.Aligned change outline expr
  | .literal value =>
      .literal value
  | .group inner =>
      .group (Expr.Aligned.refl shared inner)
  | .unary operator operand =>
      .unary operator (Expr.Aligned.refl shared operand)
  | .binary left operator right =>
      .binary operator (Expr.Aligned.refl shared left)
        (Expr.Aligned.refl shared right)
  | .logical left operator right =>
      .logical operator (Expr.Aligned.refl shared left)
        (Expr.Aligned.refl shared right)
  | .reference _ distance =>
      .reference_unmarked (.refl shared distance)
        (Change.avoids_of_shared shared _)
  | .assign _ value distance =>
      .assign_unmarked (Expr.Aligned.refl shared value)
        (.refl shared distance) (Change.avoids_of_shared shared _)
  | .call callee closing arguments =>
      .call closing (Expr.Aligned.refl shared callee)
        (Expr.AllAligned.refl shared arguments)
  | .property object name =>
      .property name (Expr.Aligned.refl shared object)
  | .setProperty object name value =>
      .setProperty name (Expr.Aligned.refl shared object)
        (Expr.Aligned.refl shared value)
  | .receiver _ distance =>
      .receiver (.refl shared distance) (Change.keeps_of_shared shared _)
  | .missing =>
      .missing

theorem Expr.AllAligned.refl
    (shared : ∀ side ∈ outline, side = .both false) :
    (exprs : List Expr) →
    Expr.AllAligned change outline exprs exprs
  | [] =>
      .nil
  | first :: rest =>
      .cons (Expr.Aligned.refl shared first)
        (Expr.AllAligned.refl shared rest)

end

theorem Expr.OptionAligned.refl
    (shared : ∀ side ∈ outline, side = .both false)
    (value : Option Expr) :
    Expr.OptionAligned change outline value value := by
  cases value with
  | none =>
      exact .absent
  | some value =>
      exact .present (.refl change shared value)

mutual

/-- A statement is aligned with itself where both programs have all scopes, and none of
them is marked. -/
theorem Stmt.Aligned.refl
    {outline : Outline}
    (shared : ∀ side ∈ outline, side = .both false) :
    (stmt : Stmt) →
    stmt.Aligned change outline stmt
  | .expression value =>
      .expression (.refl change shared value)
  | .print value =>
      .print (.refl change shared value)
  | .variableDecl _ initial =>
      .variableDecl_unmarked (Outline.common_of_shared shared)
        (Change.avoids_of_shared shared _) (.refl change shared initial)
  | .block body =>
      .block false (Stmt.AllAligned.refl (Outline.shared_both shared) body)
  | .conditional condition consequent none =>
      .conditional (.refl change shared condition)
        (Stmt.Aligned.refl shared consequent)
  | .conditional condition consequent (some alternative) =>
      .choice (.refl change shared condition)
        (Stmt.Aligned.refl shared consequent)
        (Stmt.Aligned.refl shared alternative)
  | .loop condition body =>
      .loop (.refl change shared condition) (Stmt.Aligned.refl shared body)
  | .functionDecl function =>
      .functionDecl (Outline.common_of_shared shared)
        (Change.keeps_of_shared shared _)
        (FunctionDecl.Aligned.refl shared function)
  | .returning keyword value =>
      .returning keyword (.refl change shared value)
  | .classDecl _ methods =>
      .classDecl (Outline.common_of_shared shared)
        (Change.keeps_of_shared shared _)
        (FunctionDecl.AllAligned.refl (Outline.shared_both shared) methods)
  | .missing =>
      .missing

theorem Stmt.AllAligned.refl
    {outline : Outline}
    (shared : ∀ side ∈ outline, side = .both false) :
    (stmts : List Stmt) →
    Stmt.AllAligned change outline stmts stmts
  | [] =>
      .nil
  | first :: rest =>
      .cons (Stmt.Aligned.refl shared first)
        (Stmt.AllAligned.refl shared rest)

/-- A function is aligned with itself where both programs have all scopes, and none of
them is marked. -/
theorem FunctionDecl.Aligned.refl
    {outline : Outline}
    (shared : ∀ side ∈ outline, side = .both false) :
    (function : FunctionDecl) →
    function.Aligned change outline function
  | { name, body, .. } =>
      .unmarked name
        (fun parameter _ =>
          Change.avoids_of_shared (Outline.shared_both shared) parameter.lexeme)
        (Stmt.AllAligned.refl (Outline.shared_both shared) body)

theorem FunctionDecl.AllAligned.refl
    {outline : Outline}
    (shared : ∀ side ∈ outline, side = .both false) :
    (functions : List FunctionDecl) →
    FunctionDecl.AllAligned change outline functions functions
  | [] =>
      .nil
  | first :: rest =>
      .cons (FunctionDecl.Aligned.refl shared first)
        (FunctionDecl.AllAligned.refl shared rest)

end

end Unchanged

end Script
