import Script.Proofs.Grammar.Statement

namespace Script

/-!
# Trees on other lines

The same text is on other lines when something stands before it.  Its tokens then
differ in their lines and in nothing else.  `relabel` changes the tokens in a
tree, and a derivation of some tokens is also one of the changed tokens.
-/

/-- A change of tokens that keeps all but their lines. -/
structure Relabels (change : Token → Token) : Prop where
  kind : ∀ token, (change token).kind = token.kind
  lexeme : ∀ token, (change token).lexeme = token.lexeme
  literal : ∀ token, (change token).literal = token.literal

theorem Relabels.kept
    {change : Token → Token}
    {token : Token}
    {kind : TokenKind}
    (relabels : Relabels change)
    (same : token.kind = kind) :
    (change token).kind = kind :=
  (relabels.kind token).trans same

theorem Relabels.comp
    {change second : Token → Token}
    (later : Relabels second)
    (earlier : Relabels change) :
    Relabels (second ∘ change) where
  kind token := (later.kind _).trans (earlier.kind token)
  lexeme token := (later.lexeme _).trans (earlier.lexeme token)
  literal token := (later.literal _).trans (earlier.literal token)

section Trees

variable (change : Token → Token)

mutual

/-- An expression with changed tokens. -/
def Expr.relabel : Expr → Expr
  | .literal value =>
      .literal value
  | .group inner =>
      .group inner.relabel
  | .unary operator operand =>
      .unary (change operator) operand.relabel
  | .binary left operator right =>
      .binary left.relabel (change operator) right.relabel
  | .logical left operator right =>
      .logical left.relabel (change operator) right.relabel
  | .reference name distance =>
      .reference (change name) distance
  | .assign name value distance =>
      .assign (change name) value.relabel distance
  | .call callee closing arguments =>
      .call callee.relabel (change closing) (Expr.relabelAll arguments)
  | .property object name =>
      .property object.relabel (change name)
  | .setProperty object name value =>
      .setProperty object.relabel (change name) value.relabel
  | .receiver keyword distance =>
      .receiver (change keyword) distance
  | .missing =>
      .missing

/-- Expressions with changed tokens. -/
def Expr.relabelAll : List Expr → List Expr
  | [] =>
      []
  | first :: rest =>
      first.relabel :: Expr.relabelAll rest

end

mutual

/-- A statement with changed tokens. -/
def Stmt.relabel : Stmt → Stmt
  | .expression value =>
      .expression (value.relabel change)
  | .print value =>
      .print (value.relabel change)
  | .variableDecl name initial =>
      .variableDecl (change name) (initial.map (Expr.relabel change))
  | .block body =>
      .block (Stmt.relabelAll body)
  | .conditional condition consequent none =>
      .conditional (condition.relabel change) consequent.relabel none
  | .conditional condition consequent (some alternative) =>
      .conditional (condition.relabel change) consequent.relabel
        (some alternative.relabel)
  | .loop condition body =>
      .loop (condition.relabel change) body.relabel
  | .functionDecl function =>
      .functionDecl function.relabel
  | .returning keyword value =>
      .returning (change keyword) (value.map (Expr.relabel change))
  | .classDecl name methods =>
      .classDecl (change name) (FunctionDecl.relabelAll methods)
  | .missing =>
      .missing

/-- Statements with changed tokens. -/
def Stmt.relabelAll : List Stmt → List Stmt
  | [] =>
      []
  | first :: rest =>
      first.relabel :: Stmt.relabelAll rest

/-- A function with changed tokens. -/
def FunctionDecl.relabel : FunctionDecl → FunctionDecl
  | { name, parameters, body } =>
      { name := change name
        parameters := parameters.map change
        body := Stmt.relabelAll body }

/-- Functions with changed tokens. -/
def FunctionDecl.relabelAll : List FunctionDecl → List FunctionDecl
  | [] =>
      []
  | first :: rest =>
      first.relabel :: FunctionDecl.relabelAll rest

end

end Trees

section Functions

variable {change : Token → Token}

theorem FunctionDecl.arity_relabel (function : FunctionDecl) :
    (function.relabel change).arity = function.arity := by
  cases function
  simp [FunctionDecl.relabel, FunctionDecl.arity]

/-- A function has its name on every line. -/
theorem FunctionDecl.lexeme_relabel
    (relabels : Relabels change)
    (function : FunctionDecl) :
    (function.relabel change).name.lexeme = function.name.lexeme := by
  cases function
  rw [FunctionDecl.relabel]
  exact relabels.lexeme _

theorem FunctionDecl.body_relabel (function : FunctionDecl) :
    (function.relabel change).body = Stmt.relabelAll change function.body := by
  cases function
  rw [FunctionDecl.relabel]

end Functions

section Twice

variable (change second : Token → Token)

mutual

theorem Expr.relabel_relabel :
    (expr : Expr) →
    (expr.relabel change).relabel second = expr.relabel (second ∘ change)
  | .literal _ | .reference _ _ | .receiver _ _ | .missing => by
      simp [Expr.relabel]
  | .group inner => by
      simp [Expr.relabel, inner.relabel_relabel]
  | .unary _ operand => by
      simp [Expr.relabel, operand.relabel_relabel]
  | .binary left _ right | .logical left _ right => by
      simp [Expr.relabel, left.relabel_relabel, right.relabel_relabel]
  | .assign _ value _ => by
      simp [Expr.relabel, value.relabel_relabel]
  | .call callee _ arguments => by
      simp [Expr.relabel, callee.relabel_relabel,
        Expr.relabelAll_relabelAll arguments]
  | .property object _ => by
      simp [Expr.relabel, object.relabel_relabel]
  | .setProperty object _ value => by
      simp [Expr.relabel, object.relabel_relabel, value.relabel_relabel]

theorem Expr.relabelAll_relabelAll :
    (exprs : List Expr) →
    Expr.relabelAll second (Expr.relabelAll change exprs) =
      Expr.relabelAll (second ∘ change) exprs
  | [] => by
      simp [Expr.relabelAll]
  | first :: rest => by
      simp [Expr.relabelAll, first.relabel_relabel,
        Expr.relabelAll_relabelAll rest]

end

theorem Expr.map_relabel_relabel (value : Option Expr) :
    (value.map (Expr.relabel change)).map (Expr.relabel second) =
      value.map (Expr.relabel (second ∘ change)) := by
  cases value with
  | none =>
      rfl
  | some expr =>
      simp [expr.relabel_relabel]

mutual

theorem Stmt.relabel_relabel :
    (stmt : Stmt) →
    (stmt.relabel change).relabel second = stmt.relabel (second ∘ change)
  | .expression value | .print value => by
      simp [Stmt.relabel, value.relabel_relabel]
  | .variableDecl _ value | .returning _ value => by
      simp only [Stmt.relabel, Expr.map_relabel_relabel, Function.comp]
  | .block body => by
      simp [Stmt.relabel, Stmt.relabelAll_relabelAll body]
  | .conditional condition consequent none => by
      simp [Stmt.relabel, condition.relabel_relabel,
        consequent.relabel_relabel]
  | .conditional condition consequent (some alternative) => by
      simp [Stmt.relabel, condition.relabel_relabel,
        consequent.relabel_relabel, alternative.relabel_relabel]
  | .loop condition body => by
      simp [Stmt.relabel, condition.relabel_relabel, body.relabel_relabel]
  | .functionDecl function => by
      simp [Stmt.relabel, function.relabel_relabel]
  | .classDecl _ methods => by
      simp [Stmt.relabel, FunctionDecl.relabelAll_relabelAll methods]
  | .missing => by
      simp [Stmt.relabel]

theorem Stmt.relabelAll_relabelAll :
    (stmts : List Stmt) →
    Stmt.relabelAll second (Stmt.relabelAll change stmts) =
      Stmt.relabelAll (second ∘ change) stmts
  | [] => by
      simp [Stmt.relabelAll]
  | first :: rest => by
      simp [Stmt.relabelAll, first.relabel_relabel,
        Stmt.relabelAll_relabelAll rest]

theorem FunctionDecl.relabel_relabel :
    (function : FunctionDecl) →
    (function.relabel change).relabel second =
      function.relabel (second ∘ change)
  | { name, parameters, body } => by
      simp [FunctionDecl.relabel, Stmt.relabelAll_relabelAll body]

theorem FunctionDecl.relabelAll_relabelAll :
    (functions : List FunctionDecl) →
    FunctionDecl.relabelAll second
        (FunctionDecl.relabelAll change functions) =
      FunctionDecl.relabelAll (second ∘ change) functions
  | [] => by
      simp [FunctionDecl.relabelAll]
  | first :: rest => by
      simp [FunctionDecl.relabelAll, first.relabel_relabel,
        FunctionDecl.relabelAll_relabelAll rest]

end

end Twice

/-! Changing no token changes no tree. -/

mutual

theorem Expr.relabel_id :
    (expr : Expr) →
    expr.relabel id = expr
  | .literal _ | .reference _ _ | .receiver _ _ | .missing => by
      simp [Expr.relabel]
  | .group inner => by
      simp [Expr.relabel, inner.relabel_id]
  | .unary _ operand => by
      simp [Expr.relabel, operand.relabel_id]
  | .binary left _ right | .logical left _ right => by
      simp [Expr.relabel, left.relabel_id, right.relabel_id]
  | .assign _ value _ => by
      simp [Expr.relabel, value.relabel_id]
  | .call callee _ arguments => by
      simp [Expr.relabel, callee.relabel_id, Expr.relabelAll_id arguments]
  | .property object _ => by
      simp [Expr.relabel, object.relabel_id]
  | .setProperty object _ value => by
      simp [Expr.relabel, object.relabel_id, value.relabel_id]

theorem Expr.relabelAll_id :
    (exprs : List Expr) →
    Expr.relabelAll id exprs = exprs
  | [] => by
      simp [Expr.relabelAll]
  | first :: rest => by
      simp [Expr.relabelAll, first.relabel_id, Expr.relabelAll_id rest]

end

theorem Expr.map_relabel_id (value : Option Expr) :
    value.map (Expr.relabel id) = value := by
  cases value with
  | none =>
      rfl
  | some expr =>
      simp [expr.relabel_id]

mutual

theorem Stmt.relabel_id :
    (stmt : Stmt) →
    stmt.relabel id = stmt
  | .expression value | .print value => by
      simp [Stmt.relabel, value.relabel_id]
  | .variableDecl _ value | .returning _ value => by
      simp [Stmt.relabel, Expr.map_relabel_id]
  | .block body => by
      simp [Stmt.relabel, Stmt.relabelAll_id body]
  | .conditional condition consequent none => by
      simp [Stmt.relabel, condition.relabel_id, consequent.relabel_id]
  | .conditional condition consequent (some alternative) => by
      simp [Stmt.relabel, condition.relabel_id, consequent.relabel_id,
        alternative.relabel_id]
  | .loop condition body => by
      simp [Stmt.relabel, condition.relabel_id, body.relabel_id]
  | .functionDecl function => by
      simp [Stmt.relabel, function.relabel_id]
  | .classDecl _ methods => by
      simp [Stmt.relabel, FunctionDecl.relabelAll_id methods]
  | .missing => by
      simp [Stmt.relabel]

theorem Stmt.relabelAll_id :
    (stmts : List Stmt) →
    Stmt.relabelAll id stmts = stmts
  | [] => by
      simp [Stmt.relabelAll]
  | first :: rest => by
      simp [Stmt.relabelAll, first.relabel_id, Stmt.relabelAll_id rest]

theorem FunctionDecl.relabel_id :
    (function : FunctionDecl) →
    function.relabel id = function
  | { name, parameters, body } => by
      simp [FunctionDecl.relabel, Stmt.relabelAll_id body]

theorem FunctionDecl.relabelAll_id :
    (functions : List FunctionDecl) →
    FunctionDecl.relabelAll id functions = functions
  | [] => by
      simp [FunctionDecl.relabelAll]
  | first :: rest => by
      simp [FunctionDecl.relabelAll, first.relabel_id,
        FunctionDecl.relabelAll_id rest]

end

namespace Grammar

variable {change : Token → Token}

/-- The tree of a phrase with changed tokens. -/
def ExprPhrase.relabel
    (change : Token → Token) :
    (phrase : ExprPhrase) → phrase.Tree → phrase.Tree
  | .expression, tree =>
      Expr.relabel change tree
  | .operation _, tree =>
      Expr.relabel change tree
  | .operand, tree =>
      Expr.relabel change tree
  | .call, tree =>
      Expr.relabel change tree
  | .arguments, trees =>
      Expr.relabelAll change trees
  | .primary, tree =>
      Expr.relabel change tree

theorem relabel_combine
    (level : Nat)
    (left : Expr)
    (operator : Token)
    (right : Expr) :
    (combine level left operator right).relabel change =
      combine level (left.relabel change) (change operator)
        (right.relabel change) := by
  unfold combine
  split <;> rw [Expr.relabel]

theorem length_relabelAll (exprs : List Expr) :
    (Expr.relabelAll change exprs).length = exprs.length := by
  induction exprs with
  | nil =>
      rw [Expr.relabelAll]
  | cons first rest inductionHypothesis =>
      rw [Expr.relabelAll, List.length_cons, inductionHypothesis,
        List.length_cons]

/-- What is derived is derived on other lines. -/
theorem DerivesExpr.relabel
    {phrase : ExprPhrase}
    {room : Nat}
    {tokens : List Token}
    {tree : phrase.Tree}
    (relabels : Relabels change)
    (derived : DerivesExpr phrase room tokens tree) :
    DerivesExpr phrase room (tokens.map change)
      (phrase.relabel change tree) := by
  induction derived with
  | assignName nameKind equalsKind _ value =>
      simp only [List.map_cons, ExprPhrase.relabel, Expr.relabel]
      exact .assignName (relabels.kept nameKind)
        (relabels.kept equalsKind) value
  | assignProperty _ dotKind nameKind equalsKind _ object value =>
      simp only [List.map_append, List.map_cons, ExprPhrase.relabel,
        Expr.relabel]
      exact .assignProperty object (relabels.kept dotKind)
        (relabels.kept nameKind)
        (relabels.kept equalsKind) value
  | operation _ inner =>
      exact .operation inner
  | join _ kind _ left right =>
      simp only [List.map_append, List.map_cons, ExprPhrase.relabel,
        relabel_combine]
      exact .join left (by rw [relabels.kind]; exact kind) right
  | tighter level _ inner =>
      exact .tighter level inner
  | tightest _ inner =>
      exact .tightest inner
  | unary kind _ operand =>
      simp only [List.map_cons, ExprPhrase.relabel, Expr.relabel]
      exact .unary (by rw [relabels.kind]; exact kind) operand
  | plain _ inner =>
      exact .plain inner
  | primary _ inner =>
      exact .primary inner
  | callNothing _ openingKind closingKind callee =>
      simp only [List.map_append, List.map_cons, List.map_nil,
        ExprPhrase.relabel, Expr.relabel, Expr.relabelAll]
      exact .callNothing callee (relabels.kept openingKind)
        (relabels.kept closingKind)
  | callArguments _ openingKind _ few closingKind callee arguments =>
      simp only [List.map_append, List.map_cons, List.map_nil,
        ExprPhrase.relabel, Expr.relabel]
      exact .callArguments callee (relabels.kept openingKind)
        arguments (by rw [length_relabelAll]; exact few)
        (relabels.kept closingKind)
  | property _ dotKind nameKind object =>
      simp only [List.map_append, List.map_cons, List.map_nil,
        ExprPhrase.relabel, Expr.relabel]
      exact .property object (relabels.kept dotKind)
        (relabels.kept nameKind)
  | lastArgument _ argument =>
      simp only [ExprPhrase.relabel, Expr.relabelAll]
      exact .lastArgument argument
  | moreArguments _ commaKind _ first rest =>
      simp only [List.map_append, List.map_cons, ExprPhrase.relabel,
        Expr.relabelAll]
      exact .moreArguments first (relabels.kept commaKind) rest
  | falseWord kind =>
      exact .falseWord (relabels.kept kind)
  | trueWord kind =>
      exact .trueWord (relabels.kept kind)
  | nilWord kind =>
      exact .nilWord (relabels.kept kind)
  | @literal room token kind =>
      simp only [List.map_cons, List.map_nil, ExprPhrase.relabel, Expr.relabel]
      rw [← relabels.literal token]
      exact .literal (by rw [relabels.kind]; exact kind)
  | thisWord kind =>
      exact .thisWord (relabels.kept kind)
  | name kind =>
      exact .name (relabels.kept kind)
  | group openingKind _ closingKind inner =>
      simp only [List.map_append, List.map_cons, List.map_nil,
        ExprPhrase.relabel, Expr.relabel]
      exact .group (relabels.kept openingKind) inner
        (relabels.kept closingKind)

theorem DerivesParameters.relabel
    {tokens names : List Token}
    (relabels : Relabels change)
    (derived : DerivesParameters tokens names) :
    DerivesParameters (tokens.map change) (names.map change) := by
  induction derived with
  | last kind =>
      exact .last (relabels.kept kind)
  | more kind commaKind _ rest =>
      exact .more (relabels.kept kind)
        (relabels.kept commaKind) rest

theorem DerivesParameterList.relabel
    {tokens names : List Token}
    (relabels : Relabels change)
    (derived : DerivesParameterList tokens names) :
    DerivesParameterList (tokens.map change) (names.map change) := by
  cases derived with
  | nothing =>
      exact .nothing
  | something derived few =>
      exact .something (derived.relabel relabels)
        (by rw [List.length_map]; exact few)

theorem DerivesOptional.relabel
    {room : Nat}
    {tokens : List Token}
    {value : Option Expr}
    (relabels : Relabels change)
    (derived : DerivesOptional room tokens value) :
    DerivesOptional room (tokens.map change)
      (value.map (Expr.relabel change)) := by
  cases derived with
  | nothing =>
      exact .nothing
  | something derived =>
      exact .something (derived.relabel relabels)

theorem DerivesVariable.relabel
    {room : Nat}
    {tokens : List Token}
    {tree : Stmt}
    (relabels : Relabels change)
    (derived : DerivesVariable room tokens tree) :
    DerivesVariable room (tokens.map change) (tree.relabel change) := by
  cases derived with
  | bare keywordKind nameKind semicolonKind =>
      simp only [List.map_cons, List.map_nil, Stmt.relabel, Option.map_none]
      exact .bare (relabels.kept keywordKind)
        (relabels.kept nameKind)
        (relabels.kept semicolonKind)
  | initialized keywordKind nameKind equalsKind initial semicolonKind =>
      simp only [List.map_cons, List.map_append, List.map_nil, Stmt.relabel,
        Option.map_some]
      exact .initialized (relabels.kept keywordKind)
        (relabels.kept nameKind)
        (relabels.kept equalsKind) (initial.relabel relabels)
        (relabels.kept semicolonKind)

theorem DerivesInitial.relabel
    {room : Nat}
    {tokens : List Token}
    {initial : Option Stmt}
    (relabels : Relabels change)
    (derived : DerivesInitial room tokens initial) :
    DerivesInitial room (tokens.map change)
      (initial.map (Stmt.relabel change)) := by
  cases derived with
  | nothing kind =>
      exact .nothing (relabels.kept kind)
  | declared derived =>
      exact .declared (derived.relabel relabels)
  | expression derived kind =>
      simp only [List.map_append, List.map_cons, List.map_nil,
        Option.map_some, Stmt.relabel]
      exact .expression (derived.relabel relabels)
        (relabels.kept kind)

/-- The tree of a phrase with changed tokens. -/
def Phrase.relabel
    (change : Token → Token) :
    (phrase : Phrase) → phrase.Tree → phrase.Tree
  | .declarations, trees =>
      Stmt.relabelAll change trees
  | .declaration, tree =>
      Stmt.relabel change tree
  | .statement _, tree =>
      Stmt.relabel change tree
  | .function, tree =>
      FunctionDecl.relabel change tree
  | .methods, trees =>
      FunctionDecl.relabelAll change trees

theorem relabel_forLoop
    (initial : Option Stmt)
    (condition increment : Option Expr)
    (body : Stmt) :
    (forLoop initial condition increment body).relabel change =
      forLoop (initial.map (Stmt.relabel change))
        (condition.map (Expr.relabel change))
        (increment.map (Expr.relabel change)) (body.relabel change) := by
  cases initial <;> cases condition <;> cases increment <;>
    simp [forLoop, Stmt.relabel, Stmt.relabelAll, Expr.relabel]

/-- What is derived is derived on other lines. -/
theorem Derives.relabel
    {nearest : Bool}
    {phrase : Phrase}
    {room : Nat}
    {tokens : List Token}
    {tree : phrase.Tree}
    (relabels : Relabels change)
    (derived : Derives nearest phrase room tokens tree) :
    Derives nearest phrase room (tokens.map change)
      (phrase.relabel change tree) := by
  induction derived with
  | nothing =>
      simp only [List.map_nil, Phrase.relabel, Stmt.relabelAll]
      exact .nothing
  | more _ _ first rest =>
      simp only [List.map_append, Phrase.relabel, Stmt.relabelAll]
      exact .more first rest
  | classDecl keywordKind nameKind openingKind _ closingKind methods =>
      simp only [List.map_append, List.map_cons, List.map_nil, Phrase.relabel,
        Stmt.relabel]
      exact .classDecl (relabels.kept keywordKind)
        (relabels.kept nameKind)
        (relabels.kept openingKind) methods
        (relabels.kept closingKind)
  | functionDecl keywordKind _ function =>
      simp only [List.map_cons, Phrase.relabel, Stmt.relabel]
      exact .functionDecl (relabels.kept keywordKind) function
  | variableDecl derived =>
      exact .variableDecl (derived.relabel relabels)
  | statement _ statement =>
      exact .statement statement
  | noMethod =>
      simp only [List.map_nil, Phrase.relabel, FunctionDecl.relabelAll]
      exact .noMethod
  | moreMethods _ _ first rest =>
      simp only [List.map_append, Phrase.relabel, FunctionDecl.relabelAll]
      exact .moreMethods first rest
  | function nameKind openingKind parameters closingKind openingBraceKind _
      closingBraceKind body =>
      simp only [List.map_append, List.map_cons, List.map_nil, Phrase.relabel,
        FunctionDecl.relabel]
      exact .function (relabels.kept nameKind)
        (relabels.kept openingKind) (parameters.relabel relabels)
        (relabels.kept closingKind)
        (relabels.kept openingBraceKind) body
        (relabels.kept closingBraceKind)
  | expression derived kind =>
      simp only [List.map_append, List.map_cons, List.map_nil, Phrase.relabel,
        Stmt.relabel]
      exact .expression (derived.relabel relabels)
        (relabels.kept kind)
  | print keywordKind derived kind =>
      simp only [List.map_append, List.map_cons, List.map_nil, Phrase.relabel,
        Stmt.relabel]
      exact .print (relabels.kept keywordKind)
        (derived.relabel relabels) (relabels.kept kind)
  | returning keywordKind derived kind =>
      simp only [List.map_append, List.map_cons, List.map_nil, Phrase.relabel,
        Stmt.relabel]
      exact .returning (relabels.kept keywordKind)
        (derived.relabel relabels) (relabels.kept kind)
  | whileLoop keywordKind openingKind derived closingKind _ body =>
      simp only [List.map_append, List.map_cons, Phrase.relabel, Stmt.relabel]
      exact .whileLoop (relabels.kept keywordKind)
        (relabels.kept openingKind) (derived.relabel relabels)
        (relabels.kept closingKind) body
  | forLoop keywordKind openingKind initial condition semicolonKind increment
      closingKind _ body =>
      simp only [List.map_append, List.map_cons, Phrase.relabel,
        relabel_forLoop]
      exact .forLoop (relabels.kept keywordKind)
        (relabels.kept openingKind) (initial.relabel relabels)
        (condition.relabel relabels) (relabels.kept semicolonKind)
        (increment.relabel relabels) (relabels.kept closingKind) body
  | ifThen keywordKind openingKind derived closingKind _ consequent =>
      simp only [List.map_append, List.map_cons, Phrase.relabel, Stmt.relabel]
      exact .ifThen (relabels.kept keywordKind)
        (relabels.kept openingKind) (derived.relabel relabels)
        (relabels.kept closingKind) consequent
  | ifElse keywordKind openingKind derived closingKind _ closed elseKind _
      consequent alternative =>
      simp only [List.map_append, List.map_cons, Phrase.relabel, Stmt.relabel]
      exact .ifElse (relabels.kept keywordKind)
        (relabels.kept openingKind) (derived.relabel relabels)
        (relabels.kept closingKind) consequent closed
        (relabels.kept elseKind) alternative
  | block openingKind _ closingKind body =>
      simp only [List.map_append, List.map_cons, List.map_nil, Phrase.relabel,
        Stmt.relabel]
      exact .block (relabels.kept openingKind) body
        (relabels.kept closingKind)

end Grammar

end Script
