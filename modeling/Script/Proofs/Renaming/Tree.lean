import Script.Scope.Distance

namespace Script

/-!
# Renaming a variable

A local variable belongs to the scope in which it is declared.  Renaming it changes
its declaration and the uses that scope analysis binds to it: those with its name
whose distance leads to its scope.  Everything else stays, also what has the same
name in other scopes.

A scope is found by its address: from the outside in, the numbers of the
statements, branches and methods on the way to the block or function that opens
it.
-/

/-- An old name and the new one for it. -/
structure Renaming where
  old : Text
  new : Text

namespace Renaming

/-- What a name is called in a scope: the old name is changed in a marked one. -/
def name
    (names : Renaming)
    (marked : Bool)
    (name : Text) :
    Text :=
  if marked = true ∧ name = names.old then
    names.new
  else
    name

/-- A token with the name that it has in a scope. -/
def token
    (names : Renaming)
    (marked : Bool)
    (token : Token) :
    Token :=
  { token with lexeme := names.name marked token.lexeme }

/-- Neither name is that of the receiver, and they differ. -/
structure IsProper (names : Renaming) : Prop where
  differ : names.new ≠ names.old
  old : names.old ≠ Site.receiverName
  new : names.new ≠ Site.receiverName

@[simp]
theorem name_false
    (names : Renaming)
    (name : Text) :
    names.name false name = name := by
  simp [Renaming.name]

@[simp]
theorem token_false
    (names : Renaming)
    (token : Token) :
    names.token false token = token := by
  simp [Renaming.token]

@[simp]
theorem token_lexeme
    (names : Renaming)
    (marked : Bool)
    (token : Token) :
    (names.token marked token).lexeme = names.name marked token.lexeme :=
  rfl

variable {names : Renaming}

/-- Every name but the old one stays. -/
theorem name_of_ne
    {name : Text}
    (differs : name ≠ names.old)
    (marked : Bool) :
    names.name marked name = name := by
  simp [Renaming.name, differs]

/-- Different names stay different in a scope that has no new name yet. -/
theorem name_inj
    {marked : Bool}
    {first second : Text}
    (firstAvoids : marked = true → first ≠ names.new)
    (secondAvoids : marked = true → second ≠ names.new) :
    names.name marked first = names.name marked second ↔ first = second := by
  cases marked with
  | false =>
      simp
  | true =>
      have firstDiffers := firstAvoids rfl
      have secondDiffers := secondAvoids rfl
      unfold Renaming.name
      constructor
      · intro same
        split at same <;> split at same <;> simp_all
      · rintro rfl
        rfl

end Renaming

/-- For every scope around a place, the innermost one first, whether a name is
changed in it. -/
abbrev Marks :=
  List Bool

namespace Marks

/-- Whether the innermost scope is marked. -/
def innermost (marks : Marks) : Bool :=
  marks.headD false

/-- Whether a distance leads to a marked scope. -/
def atDistance
    (marks : Marks) :
    (distance : Option Nat) →
    Bool
  | some distance =>
      marks.getD distance false
  | none =>
      false

end Marks

/-- The way to a scope. -/
abbrev Address :=
  List Nat

/-- Scopes, by their addresses. -/
abbrev ScopeSet :=
  Address → Bool

namespace ScopeSet

/-- The scopes inside of a part, with their addresses from there. -/
def inside
    (chosen : ScopeSet)
    (part : Nat) :
    ScopeSet :=
  fun address => chosen (part :: address)

/-- The scopes beyond the first one of several parts, which are counted anew. -/
def beyond (chosen : ScopeSet) : ScopeSet
  | [] =>
      false
  | part :: address =>
      chosen ((part + 1) :: address)

end ScopeSet

namespace Stmt

/-- The variable that a statement declares. -/
def variableName? : Stmt → Option Token
  | .variableDecl name _ =>
      some name
  | _ =>
      none

end Stmt

/-- What declares variables in a scope: its parameters, if it is that of a
function, and its statements. -/
structure LocalScope where
  parameters : List Token
  body : List Stmt

namespace LocalScope

/-- The declarations of the variables and parameters of a scope. -/
def declarations (scope : LocalScope) : List Token :=
  scope.parameters ++ scope.body.filterMap Stmt.variableName?

end LocalScope

mutual

/-- The scope at an address inside of a statement. -/
def Stmt.scopeAt? : Stmt → Address → Option LocalScope
  | .block body, [] =>
      some { parameters := [], body }
  | .block body, part :: address =>
      Stmt.scopeAmong? body (part :: address)
  | .conditional _ consequent _, 0 :: address =>
      consequent.scopeAt? address
  | .conditional _ _ (some alternative), 1 :: address =>
      alternative.scopeAt? address
  | .loop _ body, 0 :: address =>
      body.scopeAt? address
  | .functionDecl function, address =>
      function.scopeAt? address
  | .classDecl _ methods, address =>
      FunctionDecl.scopeAmong? methods address
  | _, _ =>
      none

/-- The scope at an address inside of statements in a row. -/
def Stmt.scopeAmong? : List Stmt → Address → Option LocalScope
  | first :: _, 0 :: address =>
      first.scopeAt? address
  | _ :: rest, (part + 1) :: address =>
      Stmt.scopeAmong? rest (part :: address)
  | _, _ =>
      none

/-- The scope at an address inside of a function. -/
def FunctionDecl.scopeAt? : FunctionDecl → Address → Option LocalScope
  | { parameters, body, .. }, [] =>
      some { parameters, body }
  | { body, .. }, part :: address =>
      Stmt.scopeAmong? body (part :: address)

/-- The scope at an address inside of methods. -/
def FunctionDecl.scopeAmong? :
    List FunctionDecl → Address → Option LocalScope
  | first :: _, 0 :: address =>
      first.scopeAt? address
  | _ :: rest, (part + 1) :: address =>
      FunctionDecl.scopeAmong? rest (part :: address)
  | _, _ =>
      none

end

/-- The declarations of the variables and parameters of the scope at an address in
a program. -/
def Stmt.variablesAt
    (program : List Stmt)
    (address : Address) :
    List Token :=
  ((Stmt.scopeAmong? program address).map LocalScope.declarations).getD []

section Trees

variable (names : Renaming)

mutual

/-- An expression in which the uses of marked scopes are renamed. -/
def Expr.rename
    (marks : Marks) :
    Expr → Expr
  | .literal value =>
      .literal value
  | .group inner =>
      .group (inner.rename marks)
  | .unary operator operand =>
      .unary operator (operand.rename marks)
  | .binary left operator right =>
      .binary (left.rename marks) operator (right.rename marks)
  | .logical left operator right =>
      .logical (left.rename marks) operator (right.rename marks)
  | .reference name distance =>
      .reference (names.token (marks.atDistance distance) name) distance
  | .assign name value distance =>
      .assign (names.token (marks.atDistance distance) name)
        (value.rename marks) distance
  | .call callee closing arguments =>
      .call (callee.rename marks) closing (Expr.renameAll marks arguments)
  | .property object name =>
      .property (object.rename marks) name
  | .setProperty object name value =>
      .setProperty (object.rename marks) name (value.rename marks)
  | .receiver keyword distance =>
      .receiver keyword distance
  | .missing =>
      .missing

/-- Expressions in which the uses of marked scopes are renamed. -/
def Expr.renameAll
    (marks : Marks) :
    List Expr → List Expr
  | [] =>
      []
  | first :: rest =>
      first.rename marks :: Expr.renameAll marks rest

end

mutual

/-- A statement in which the variables of chosen scopes are renamed, and those of
the marked scopes around it. -/
def Stmt.rename
    (chosen : ScopeSet)
    (marks : Marks) :
    Stmt → Stmt
  | .expression value =>
      .expression (value.rename names marks)
  | .print value =>
      .print (value.rename names marks)
  | .variableDecl name initial =>
      .variableDecl (names.token marks.innermost name)
        (initial.map (Expr.rename names marks))
  | .block body =>
      .block (Stmt.renameAll chosen (chosen [] :: marks) body)
  | .conditional condition consequent none =>
      .conditional (condition.rename names marks)
        (consequent.rename (chosen.inside 0) marks) none
  | .conditional condition consequent (some alternative) =>
      .conditional (condition.rename names marks)
        (consequent.rename (chosen.inside 0) marks)
        (some (alternative.rename (chosen.inside 1) marks))
  | .loop condition body =>
      .loop (condition.rename names marks)
        (body.rename (chosen.inside 0) marks)
  | .functionDecl function =>
      .functionDecl (function.rename chosen marks)
  | .returning keyword value =>
      .returning keyword (value.map (Expr.rename names marks))
  | .classDecl name methods =>
      .classDecl name (FunctionDecl.renameAll chosen (false :: marks) methods)
  | .missing =>
      .missing

/-- Statements in a row in which variables are renamed. -/
def Stmt.renameAll
    (chosen : ScopeSet)
    (marks : Marks) :
    List Stmt → List Stmt
  | [] =>
      []
  | first :: rest =>
      first.rename (chosen.inside 0) marks ::
        Stmt.renameAll chosen.beyond marks rest

/-- A function in which variables are renamed. -/
def FunctionDecl.rename
    (chosen : ScopeSet)
    (marks : Marks) :
    FunctionDecl → FunctionDecl
  | { name, parameters, body } =>
      { name
        parameters := parameters.map (names.token (chosen []))
        body := Stmt.renameAll chosen (chosen [] :: marks) body }

/-- Methods in which variables are renamed. -/
def FunctionDecl.renameAll
    (chosen : ScopeSet)
    (marks : Marks) :
    List FunctionDecl → List FunctionDecl
  | [] =>
      []
  | first :: rest =>
      first.rename (chosen.inside 0) marks ::
        FunctionDecl.renameAll chosen.beyond marks rest

end

end Trees

/-- A program in which one variable is renamed: the one that has the old name in
the scope at an address. -/
def Stmt.renameVariable
    (names : Renaming)
    (address : Address)
    (program : List Stmt) :
    List Stmt :=
  Stmt.renameAll names (· == address) [] program

section Distances

variable (names : Renaming)

mutual

/-- Renaming changes no distance. -/
theorem Expr.distances_rename
    (marks : Marks) :
    (expr : Expr) →
    (expr.rename names marks).distances = expr.distances
  | .literal _ | .reference _ _ | .receiver _ _ | .missing => by
      simp [Expr.rename, Expr.distances]
  | .group inner => by
      simp [Expr.rename, Expr.distances, inner.distances_rename marks]
  | .unary _ operand => by
      simp [Expr.rename, Expr.distances, operand.distances_rename marks]
  | .binary left _ right | .logical left _ right => by
      simp [Expr.rename, Expr.distances, left.distances_rename marks,
        right.distances_rename marks]
  | .assign _ value _ => by
      simp [Expr.rename, Expr.distances, value.distances_rename marks]
  | .call callee _ arguments => by
      simp [Expr.rename, Expr.distances, callee.distances_rename marks,
        Expr.allDistances_renameAll marks arguments]
  | .property object _ => by
      simp [Expr.rename, Expr.distances, object.distances_rename marks]
  | .setProperty object _ value => by
      simp [Expr.rename, Expr.distances, object.distances_rename marks,
        value.distances_rename marks]

theorem Expr.allDistances_renameAll
    (marks : Marks) :
    (exprs : List Expr) →
    Expr.allDistances (Expr.renameAll names marks exprs) =
      Expr.allDistances exprs
  | [] => by
      simp [Expr.renameAll, Expr.allDistances]
  | first :: rest => by
      simp [Expr.renameAll, Expr.allDistances, first.distances_rename marks,
        Expr.allDistances_renameAll marks rest]

end

theorem Expr.optionalDistances_rename
    (marks : Marks)
    (value : Option Expr) :
    Expr.optionalDistances (value.map (Expr.rename names marks)) =
      Expr.optionalDistances value := by
  cases value with
  | none =>
      rfl
  | some expr =>
      exact expr.distances_rename names marks

mutual

theorem Stmt.distances_rename
    (chosen : ScopeSet)
    (marks : Marks) :
    (stmt : Stmt) →
    (stmt.rename names chosen marks).distances = stmt.distances
  | .expression value | .print value => by
      simp [Stmt.rename, Stmt.distances, value.distances_rename names marks]
  | .variableDecl _ value | .returning _ value => by
      simp [Stmt.rename, Stmt.distances,
        Expr.optionalDistances_rename names marks value]
  | .block body => by
      simp [Stmt.rename, Stmt.distances,
        Stmt.allDistances_renameAll chosen _ body]
  | .conditional condition consequent none => by
      simp [Stmt.rename, Stmt.distances,
        condition.distances_rename names marks,
        consequent.distances_rename _ marks]
  | .conditional condition consequent (some alternative) => by
      simp [Stmt.rename, Stmt.distances,
        condition.distances_rename names marks,
        consequent.distances_rename _ marks,
        alternative.distances_rename _ marks]
  | .loop condition body => by
      simp [Stmt.rename, Stmt.distances,
        condition.distances_rename names marks, body.distances_rename _ marks]
  | .functionDecl function => by
      simp [Stmt.rename, Stmt.distances,
        function.distances_rename chosen marks]
  | .classDecl _ methods => by
      simp [Stmt.rename, Stmt.distances,
        FunctionDecl.allDistances_renameAll chosen _ methods]
  | .missing => by
      simp [Stmt.rename, Stmt.distances]

theorem Stmt.allDistances_renameAll
    (chosen : ScopeSet)
    (marks : Marks) :
    (stmts : List Stmt) →
    Stmt.allDistances (Stmt.renameAll names chosen marks stmts) =
      Stmt.allDistances stmts
  | [] => by
      simp [Stmt.renameAll, Stmt.allDistances]
  | first :: rest => by
      simp [Stmt.renameAll, Stmt.allDistances,
        first.distances_rename _ marks,
        Stmt.allDistances_renameAll chosen.beyond marks rest]

theorem FunctionDecl.distances_rename
    (chosen : ScopeSet)
    (marks : Marks) :
    (function : FunctionDecl) →
    (function.rename names chosen marks).distances = function.distances
  | { name, parameters, body } => by
      simp [FunctionDecl.rename, FunctionDecl.distances,
        Stmt.allDistances_renameAll chosen _ body]

theorem FunctionDecl.allDistances_renameAll
    (chosen : ScopeSet)
    (marks : Marks) :
    (functions : List FunctionDecl) →
    FunctionDecl.allDistances
        (FunctionDecl.renameAll names chosen marks functions) =
      FunctionDecl.allDistances functions
  | [] => by
      simp [FunctionDecl.renameAll, FunctionDecl.allDistances]
  | first :: rest => by
      simp [FunctionDecl.renameAll, FunctionDecl.allDistances,
        first.distances_rename _ marks,
        FunctionDecl.allDistances_renameAll chosen.beyond marks rest]

end

end Distances

end Script
