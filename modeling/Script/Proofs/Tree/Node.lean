import Script.Proofs.Tree.Building

namespace Script

/-!
# The nodes of surviving trees

What parsing leaves of a list of tokens, whatever problems the list has, is made
of nodes that scope analysis and evaluation know how to handle: no node is a
hole, the tokens of a node are tokens of the list and of the kinds that the node
calls for, and no branch and no body of a loop is a declaration.
-/

/-- A node of a tree. -/
inductive Node where
  | ofExpr (expr : Expr)
  | ofStmt (stmt : Stmt)
  | ofFunction (function : FunctionDecl)

namespace Node

/-- The nodes right inside of a node. -/
def parts : Node → List Node
  | .ofExpr expr =>
      expr.operands.map .ofExpr
  | .ofStmt (.expression value) | .ofStmt (.print value) =>
      [.ofExpr value]
  | .ofStmt (.variableDecl _ initial) =>
      initial.toList.map .ofExpr
  | .ofStmt (.block body) =>
      body.map .ofStmt
  | .ofStmt (.conditional condition consequent alternative) =>
      .ofExpr condition :: .ofStmt consequent :: alternative.toList.map .ofStmt
  | .ofStmt (.loop condition body) =>
      [.ofExpr condition, .ofStmt body]
  | .ofStmt (.functionDecl function) =>
      [.ofFunction function]
  | .ofStmt (.returning _ value) =>
      value.toList.map .ofExpr
  | .ofStmt (.classDecl _ methods) =>
      methods.map .ofFunction
  | .ofStmt .missing =>
      []
  | .ofFunction function =>
      function.body.map .ofStmt

/-- The tokens that are kept in a node itself. -/
def tokens : Node → List Token
  | .ofExpr (.unary token _) | .ofExpr (.binary _ token _)
  | .ofExpr (.logical _ token _) | .ofExpr (.reference token _)
  | .ofExpr (.assign token _ _) | .ofExpr (.call _ token _)
  | .ofExpr (.property _ token) | .ofExpr (.setProperty _ token _)
  | .ofExpr (.receiver token _) =>
      [token]
  | .ofExpr (.literal _) | .ofExpr (.group _) | .ofExpr .missing =>
      []
  | .ofStmt (.variableDecl token _) | .ofStmt (.returning token _)
  | .ofStmt (.classDecl token _) =>
      [token]
  | .ofStmt _ =>
      []
  | .ofFunction function =>
      function.name :: function.parameters

/-- What a node has to be by itself: it is no hole, its tokens are of the right
kinds, and its branches declare nothing. -/
def IsProper : Node → Prop
  | .ofExpr (.unary operator _) =>
      operator.kind ∈ TokenKind.unaryOperators
  | .ofExpr (.binary _ operator _) =>
      operator.kind ∈ TokenKind.binaryOperators
  | .ofExpr (.logical _ operator _) =>
      operator.kind ∈ TokenKind.logicalOperators
  | .ofExpr (.reference name _) | .ofExpr (.assign name _ _)
  | .ofExpr (.property _ name) | .ofExpr (.setProperty _ name _) =>
      name.kind = .identifier
  | .ofExpr (.call _ closing _) =>
      closing.kind = .rightParen
  | .ofExpr (.receiver keyword _) =>
      keyword.kind = .keyword .thisWord
  | .ofExpr (.literal _) | .ofExpr (.group _) =>
      True
  | .ofExpr .missing | .ofStmt .missing =>
      False
  | .ofStmt (.variableDecl name _) | .ofStmt (.classDecl name _) =>
      name.kind = .identifier
  | .ofStmt (.conditional _ consequent alternative) =>
      consequent.declaredName? = none ∧
        ∀ branch ∈ alternative, branch.declaredName? = none
  | .ofStmt (.loop _ body) =>
      body.declaredName? = none
  | .ofStmt (.returning keyword _) =>
      keyword.kind = .keyword .returnWord
  | .ofStmt (.expression _) | .ofStmt (.print _) | .ofStmt (.block _)
  | .ofStmt (.functionDecl _) =>
      True
  | .ofFunction function =>
      function.name.kind = .identifier ∧
        ∀ parameter ∈ function.parameters, parameter.kind = .identifier

/-- The nodes inside of a node, at any depth, and the node itself. -/
inductive Inside (whole : Node) : Node → Prop where
  | itself :
      Inside whole whole
  | part
      {node part : Node}
      (inside : Inside whole node)
      (member : part ∈ node.parts) :
      Inside whole part

/-- Nodes of trees as the parser makes them. -/
def WellFormed (known : Token → Prop) : Node → Prop
  | .ofExpr expr =>
      expr.WellFormed known
  | .ofStmt stmt =>
      stmt.WellFormed known
  | .ofFunction function =>
      function.WellFormed known

section WellFormed

variable {known : Token → Prop}

theorem wellFormed_map_expr
    {exprs : List Expr}
    (formed : ∀ expr ∈ exprs, expr.WellFormed known) :
    ∀ node ∈ exprs.map Node.ofExpr, node.WellFormed known :=
  List.forall_mem_map.mpr formed

theorem wellFormed_map_stmt
    {stmts : List Stmt}
    (formed : ∀ stmt ∈ stmts, stmt.WellFormed known) :
    ∀ node ∈ stmts.map Node.ofStmt, node.WellFormed known :=
  List.forall_mem_map.mpr formed

/-- The nodes right inside of a well-formed statement are well formed. -/
theorem wellFormed_parts_stmt
    {stmt : Stmt}
    (formed : stmt.WellFormed known) :
    ∀ part ∈ (Node.ofStmt stmt).parts, part.WellFormed known := by
  cases formed with
  | expression value | print value =>
      exact List.forall_mem_singleton.mpr value
  | variableDecl _ _ value | returning _ _ value =>
      exact wellFormed_map_expr fun expr member =>
        value expr (Option.mem_toList.mp member)
  | block body =>
      exact wellFormed_map_stmt body
  | conditional condition consequent _ alternative _ =>
      refine List.forall_mem_cons.mpr ⟨condition,
        List.forall_mem_cons.mpr ⟨consequent, ?_⟩⟩
      exact wellFormed_map_stmt fun branch member =>
        alternative branch (Option.mem_toList.mp member)
  | loop condition body =>
      exact List.forall_mem_cons.mpr ⟨condition,
        List.forall_mem_singleton.mpr body⟩
  | functionDecl named body =>
      exact List.forall_mem_singleton.mpr ⟨named, body⟩
  | classDecl _ _ named bodies =>
      exact List.forall_mem_map.mpr fun method member =>
        ⟨named method member, bodies method member⟩

/-- What is right inside of a well-formed node is well formed. -/
theorem WellFormed.part
    {node part : Node}
    (formed : node.WellFormed known)
    (member : part ∈ node.parts) :
    part.WellFormed known := by
  cases node with
  | ofExpr expr =>
      exact wellFormed_map_expr (fun _ => Expr.WellFormed.operand formed) part
        member
  | ofStmt stmt =>
      exact wellFormed_parts_stmt formed part member
  | ofFunction function =>
      exact wellFormed_map_stmt (FunctionDecl.WellFormed.body formed) part member

/-- What is inside of a well-formed node, at any depth, is well formed. -/
theorem Inside.wellFormed
    {whole node : Node}
    (inside : whole.Inside node)
    (formed : whole.WellFormed known) :
    node.WellFormed known := by
  induction inside with
  | itself =>
      exact formed
  | part _ member inductionHypothesis =>
      exact inductionHypothesis.part member

/-- A well-formed node is proper, and its tokens are known. -/
theorem WellFormed.isProper
    {node : Node}
    (formed : node.WellFormed known) :
    node.IsProper ∧ ∀ token ∈ node.tokens, known token := by
  cases node with
  | ofExpr expr =>
      cases (show expr.WellFormed known from formed) with
      | literal | group =>
          exact ⟨trivial, List.forall_mem_nil _⟩
      | unary isKnown kind | reference isKnown kind | assign isKnown kind
      | receiver isKnown kind =>
          exact ⟨kind, List.forall_mem_singleton.mpr isKnown⟩
      | binary _ isKnown kind | logical _ isKnown kind
      | call _ isKnown kind | property _ isKnown kind
      | setProperty _ isKnown kind =>
          exact ⟨kind, List.forall_mem_singleton.mpr isKnown⟩
  | ofStmt stmt =>
      cases (show stmt.WellFormed known from formed) with
      | expression | print | block | functionDecl =>
          exact ⟨trivial, List.forall_mem_nil _⟩
      | variableDecl isKnown kind | returning isKnown kind
      | classDecl isKnown kind =>
          exact ⟨kind, List.forall_mem_singleton.mpr isKnown⟩
      | conditional _ _ consequent _ alternative =>
          exact ⟨⟨consequent, alternative⟩, List.forall_mem_nil _⟩
      | loop _ _ body =>
          exact ⟨body, List.forall_mem_nil _⟩
  | ofFunction function =>
      have named := FunctionDecl.WellFormed.named formed
      exact ⟨⟨named.nameKind, named.parametersKind⟩,
        List.forall_mem_cons.mpr ⟨named.nameKnown, named.parametersKnown⟩⟩

end WellFormed

end Node

/-- Whatever problems a list of tokens has, no statement that survives has a hole,
and every node of it, at any depth, is proper and keeps tokens of the list. -/
theorem Program.surviving_nodes_proper
    {tokens : List Token}
    {stmt : Stmt}
    (survives : stmt ∈ (ofTokens tokens).statements) :
    stmt.hole? = none ∧
      ∀ node, (Node.ofStmt stmt).Inside node →
        node.IsProper ∧ ∀ token ∈ node.tokens, token ∈ tokens := by
  have formed : stmt.WellFormed (· ∈ tokens) :=
    statements_wellFormed (fun _ member => member) stmt survives
  refine ⟨formed.hole?_eq_none, fun node inside => ?_⟩
  have nodeFormed : node.WellFormed (· ∈ tokens) := inside.wellFormed formed
  exact nodeFormed.isProper

/-- A token of the given kind. -/
def plainToken (kind : TokenKind) : Token where
  kind
  lexeme := []
  literal := .nil
  line := 1

/-- A conditional with a declaration for a branch, and behind it a loop around an
assignment to a number. -/
def brokenSlice : List Token :=
  List.map plainToken
    [.keyword .ifWord, .leftParen, .number, .rightParen, .keyword .varWord,
     .identifier, .semicolon,
     .keyword .whileWord, .leftParen, .identifier, .rightParen,
     .number, .equal, .bang, .identifier, .leftParen, .rightParen, .semicolon]

/-- The call that is assigned in the broken slice. -/
def survivingCall : Expr :=
  .call (.reference (plainToken .identifier) none) (plainToken .rightParen) []

/-- What survives of the broken slice: the loop around the assigned value. -/
def survivingLoop : Stmt :=
  .loop (.reference (plainToken .identifier) none)
    (.expression (.unary (plainToken .bang) survivingCall))

theorem Program.surviving_nodes_proper_brokenSlice :
    (ofTokens brokenSlice).problems.length = 2 ∧
      survivingLoop ∈ (ofTokens brokenSlice).statements ∧
      survivingLoop.hole? = none ∧
      (Node.ofStmt survivingLoop).Inside (.ofExpr survivingCall) ∧
      (Node.ofExpr survivingCall).IsProper ∧
      ∀ token ∈ (Node.ofExpr survivingCall).tokens, token ∈ brokenSlice := by
  have statements : (ofTokens brokenSlice).statements = [survivingLoop] := by
    cbv
  have survives : survivingLoop ∈ (ofTokens brokenSlice).statements := by
    rw [statements]
    exact List.mem_singleton_self _
  have body :
      (Node.ofStmt survivingLoop).Inside
        (.ofExpr (.unary (plainToken .bang) survivingCall)) :=
    .part (.part .itself (.tail _ (.head _))) (.head _)
  have inside :
      (Node.ofStmt survivingLoop).Inside (.ofExpr survivingCall) :=
    .part body (.head _)
  obtain ⟨noHole, proper⟩ := surviving_nodes_proper survives
  exact ⟨by decide +kernel, survives, noHole, inside, proper _ inside⟩

end Script
