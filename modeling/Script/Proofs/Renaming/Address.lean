import Script.Proofs.Renaming.Variable

namespace Script.Lexical

/-!
# Addresses of local variables

The path to a position, from the outside in, is an address.  In a resolved program
every variable that is declared inside of a block or a function is one of the
variables at the address of this block or function, and so is every parameter: each
local variable can be renamed.
-/

namespace Position

/-- The way to a position, from the outside in. -/
def address (position : Position) : Address :=
  position.path.reverse

/-- The way to the innermost scope around a position of a statement. -/
def scopeAddress (position : Position) : Address :=
  position.path.tail.reverse

section Moves

variable (position : Position)

@[simp]
theorem path_declare (name : Text) :
    (position.declare name).path = position.path := by
  unfold declare
  split <;> rfl

@[simp]
theorem path_declaring (stmt : Stmt) :
    (position.declaring stmt).path = position.path := by
  unfold declaring
  split <;> simp

theorem levels_declare (name : Text) :
    (position.declare name).levels = [] ↔ position.levels = [] := by
  unfold declare
  split
  · rfl
  · rename_i levels
    simp [levels]

theorem levels_declaring (stmt : Stmt) :
    (position.declaring stmt).levels = [] ↔ position.levels = [] := by
  unfold declaring
  split
  · exact levels_declare position _
  · rfl

end Moves

end Position

/-- The variables that statements at a position declare in a scope are variables at
the address of this scope. -/
def Declares
    (position : Position)
    (stmts : List Stmt) :
    Prop :=
  position.levels ≠ [] →
    ∀ stmt ∈ stmts, ∀ name, stmt.variableName? = some name →
      name ∈ Stmt.variablesAt position.origin.statements position.scopeAddress

/-- The scopes inside of code are scopes of its tree, at the addresses that begin
with that of the position.  Statements and methods in a row are counted from the
one at the position. -/
def Addressed (position : Position) : Code → Prop
  | .expr _ =>
      True
  | .stmt stmt =>
      (∀ address,
        Stmt.scopeAmong? position.origin.statements
            (position.address ++ address) =
          stmt.scopeAt? address) ∧
        Declares position [stmt]
  | .stmts stmts =>
      ∃ index outer,
        position.path = index :: outer ∧
          (∀ part address,
            Stmt.scopeAmong? position.origin.statements
                (outer.reverse ++ (index + part) :: address) =
              Stmt.scopeAmong? stmts (part :: address)) ∧
          Declares position stmts
  | .function function =>
      ∀ address,
        Stmt.scopeAmong? position.origin.statements
            (position.address ++ address) =
          function.scopeAt? address
  | .methods methods =>
      ∃ index outer,
        position.path = index :: outer ∧
          ∀ part address,
            Stmt.scopeAmong? position.origin.statements
                (outer.reverse ++ (index + part) :: address) =
              FunctionDecl.scopeAmong? methods (part :: address)

section Moves

variable {position : Position}

/-- What declares nothing declares no variable. -/
theorem declares_of_declaredName?
    {stmt : Stmt}
    (declaresNothing : stmt.declaredName? = none) :
    Declares position [stmt] := by
  intro _ other member name declares
  obtain rfl := List.mem_singleton.mp member
  rw [Stmt.declaredName?_of_variableName? declares] at declaresNothing
  cases declaresNothing

/-- The body of a scope whose address is that of the position. -/
theorem Addressed.body
    {form : ScopeForm}
    {declared : List Text}
    (parameters : List Token)
    {body : List Stmt}
    (here :
      Stmt.scopeAmong? position.origin.statements position.address =
        some { parameters, body })
    (inside :
      ∀ part address,
        Stmt.scopeAmong? position.origin.statements
            (position.address ++ part :: address) =
          Stmt.scopeAmong? body (part :: address)) :
    Addressed (position.enter form declared) (.stmts body) := by
  refine ⟨0, position.path, rfl, fun part address => ?_,
    fun _ stmt member name declares => ?_⟩
  · rw [Nat.zero_add]
    exact inside part address
  · change name ∈ Stmt.variablesAt position.origin.statements position.address
    unfold Stmt.variablesAt
    rw [here]
    exact List.mem_append_right parameters
      (List.mem_filterMap.mpr ⟨stmt, member, declares⟩)

/-- A branch or a body of a loop, which declares nothing. -/
theorem Addressed.branch
    {whole branch : Stmt}
    (addressed : Addressed position (.stmt whole))
    (part : Nat)
    (inside :
      ∀ address, whole.scopeAt? (part :: address) = branch.scopeAt? address)
    (declaresNothing : branch.declaredName? = none) :
    Addressed (position.inside part) (.stmt branch) := by
  refine ⟨fun address => ?_, declares_of_declaredName? declaresNothing⟩
  have found := addressed.1 (part :: address)
  rw [inside] at found
  simpa [Position.address, Position.inside] using found

theorem Addressed.firstStatement
    {first : Stmt}
    {rest : List Stmt}
    (addressed : Addressed position (.stmts (first :: rest))) :
    Addressed position (.stmt first) := by
  obtain ⟨index, outer, path, inside, declares⟩ := addressed
  refine ⟨fun address => ?_, fun isLocal stmt member => ?_⟩
  · have found := inside 0 address
    simpa [Position.address, path, Stmt.scopeAmong?] using found
  · obtain rfl := List.mem_singleton.mp member
    exact declares isLocal stmt List.mem_cons_self

theorem Addressed.laterStatements
    {first : Stmt}
    {rest : List Stmt}
    (addressed : Addressed position (.stmts (first :: rest))) :
    Addressed (position.declaring first).next (.stmts rest) := by
  obtain ⟨index, outer, path, inside, declares⟩ := addressed
  have moved :
      (position.declaring first).next.path = (index + 1) :: outer := by
    simp [Position.next, path]
  refine ⟨index + 1, outer, moved, fun part address => ?_,
    fun isLocal stmt member name declared => ?_⟩
  · have found := inside (part + 1) address
    rw [show index + (part + 1) = index + 1 + part by omega] at found
    simpa [Stmt.scopeAmong?] using found
  · have wasLocal : position.levels ≠ [] := by
      rwa [Position.levels_next, Ne, Position.levels_declaring] at isLocal
    have found :=
      declares wasLocal stmt (List.mem_cons_of_mem first member) name declared
    simpa [Position.scopeAddress, moved, path] using found

theorem Addressed.firstMethod
    {first : FunctionDecl}
    {rest : List FunctionDecl}
    (addressed : Addressed position (.methods (first :: rest))) :
    Addressed position (.function first) := by
  obtain ⟨index, outer, path, inside⟩ := addressed
  intro address
  have found := inside 0 address
  simpa [Position.address, path, FunctionDecl.scopeAmong?] using found

theorem Addressed.laterMethods
    {first : FunctionDecl}
    {rest : List FunctionDecl}
    (addressed : Addressed position (.methods (first :: rest))) :
    Addressed position.next (.methods rest) := by
  obtain ⟨index, outer, path, inside⟩ := addressed
  refine ⟨index + 1, outer, by simp [Position.next, path],
    fun part address => ?_⟩
  have found := inside (part + 1) address
  rw [show index + (part + 1) = index + 1 + part by omega] at found
  simpa [FunctionDecl.scopeAmong?] using found

theorem Addressed.functionBody
    {function : FunctionDecl}
    (addressed : Addressed position (.function function)) :
    Addressed (position.inFunction function) (.stmts function.body) := by
  rcases function with ⟨name, parameters, body⟩
  refine .body parameters ?_ fun part address => ?_
  · simpa [FunctionDecl.scopeAt?] using addressed []
  · simpa [FunctionDecl.scopeAt?] using addressed (part :: address)

end Moves

/-- Code of a resolved tree is at the addresses that its positions give. -/
theorem Occurs.addressed
    {origin : Origin}
    {plain : List Stmt}
    (shape :
      origin.statements = (Resolution.ofStatements plain).statements)
    (formed : ∀ stmt ∈ plain, stmt.WellFormed SpelledToken)
    (silent : (Resolution.ofStatements plain).problems = [])
    {position : Position}
    {code : Code}
    (occurs : Occurs position code)
    (same : position.origin = origin) :
    Addressed position code := by
  induction occurs with
  | program origin =>
      exact ⟨0, [], rfl, fun part address => by simp [Position.top],
        fun isLocal => (isLocal rfl).elim⟩
  | firstStatement _ whole =>
      exact (whole same).firstStatement
  | laterStatements _ whole =>
      exact (whole (by simpa using same)).laterStatements
  | blockBody _ whole =>
      have addressed := (whole same).1
      refine .body [] ?_ fun part address => ?_
      · simpa [Stmt.scopeAt?] using addressed []
      · simpa [Stmt.scopeAt?] using addressed (part :: address)
  | @consequent _ _ _ alternative stands whole =>
      obtain ⟨-, site, -, resolves⟩ :=
        stands.traced ⟨plain, shape, formed, silent⟩ same
      refine (whole same).branch 0 (fun address => ?_) resolves.conditional.1.2
      cases alternative <;> simp [Stmt.scopeAt?]
  | alternative stands whole =>
      obtain ⟨-, site, -, resolves⟩ :=
        stands.traced ⟨plain, shape, formed, silent⟩ same
      exact (whole same).branch 1 (fun _ => rfl)
        (resolves.conditional.2 _ rfl).2
  | loopBody stands whole =>
      obtain ⟨-, site, -, resolves⟩ :=
        stands.traced ⟨plain, shape, formed, silent⟩ same
      exact (whole same).branch 0 (fun _ => rfl) resolves.loop.2
  | functionDecl _ whole =>
      intro address
      simpa [Position.address, Stmt.scopeAt?] using
        (whole (by simpa using same)).1 address
  | functionBody _ whole =>
      exact (whole same).functionBody
  | @classMethods position name _ _ whole =>
      refine ⟨0, position.path, by simp [Position.inClass, Position.enter],
        fun part address => ?_⟩
      have found :=
        (whole (by simpa [Position.inClass, Position.enter] using same)).1
          (part :: address)
      simpa [Position.address, Position.inClass, Position.enter,
        Stmt.scopeAt?] using found
  | firstMethod _ whole =>
      exact (whole same).firstMethod
  | laterMethods _ whole =>
      exact (whole (by simpa using same)).laterMethods
  | expressionValue | printValue | initializer | condition | loopCondition
  | returnValue | grouped | unaryOperand | binaryLeft | binaryRight
  | logicalLeft | logicalRight | assigned | callee | argument
  | propertyObject | fieldObject | fieldValue =>
      trivial

section Variables

variable {position : Position} {plain : List Stmt} {name : Token}

/-- A variable that is declared inside of a scope is one of the variables at the
address of this scope. -/
theorem Occurs.mem_variablesAt_variable
    (shape :
      position.origin.statements =
        (Resolution.ofStatements plain).statements)
    (formed : ∀ stmt ∈ plain, stmt.WellFormed SpelledToken)
    (silent : (Resolution.ofStatements plain).problems = [])
    {initial : Option Expr}
    (occurs : Occurs position (.stmt (.variableDecl name initial)))
    (isLocal : position.levels ≠ []) :
    name ∈
      Stmt.variablesAt position.origin.statements position.scopeAddress :=
  (occurs.addressed shape formed silent rfl).2 isLocal _
    (List.mem_singleton_self _) name rfl

/-- A parameter is one of the variables at the address of its function. -/
theorem Occurs.mem_variablesAt_parameter
    (shape :
      position.origin.statements =
        (Resolution.ofStatements plain).statements)
    (formed : ∀ stmt ∈ plain, stmt.WellFormed SpelledToken)
    (silent : (Resolution.ofStatements plain).problems = [])
    {function : FunctionDecl}
    (occurs : Occurs position (.function function))
    (isParameter : name ∈ function.parameters) :
    name ∈ Stmt.variablesAt position.origin.statements position.address := by
  have found := occurs.addressed shape formed silent rfl []
  rw [List.append_nil] at found
  cases function
  unfold Stmt.variablesAt
  rw [found]
  exact List.mem_append_left _ isParameter

end Variables

end Script.Lexical
