import Script.Proofs.Relabel.ExprParser
import Script.Tree.Program

namespace Script

/-!
# Parsing statements on other lines

As with expressions, numbering the lines in another way changes the lines of the
trees and of the problems and nothing else, recovery from problems included; and
problems that were reported earlier are kept and change nothing.
-/

theorem Stmt.relabelAll_eq_map
    (change : Token → Token)
    (stmts : List Stmt) :
    Stmt.relabelAll change stmts = stmts.map (Stmt.relabel change) := by
  induction stmts with
  | nil =>
      rw [Stmt.relabelAll, List.map_nil]
  | cons first rest inductionHypothesis =>
      rw [Stmt.relabelAll, List.map_cons, inductionHypothesis]

theorem FunctionDecl.relabelAll_eq_map
    (change : Token → Token)
    (functions : List FunctionDecl) :
    FunctionDecl.relabelAll change functions =
      functions.map (FunctionDecl.relabel change) := by
  induction functions with
  | nil =>
      rw [FunctionDecl.relabelAll, List.map_nil]
  | cons first rest inductionHypothesis =>
      rw [FunctionDecl.relabelAll, List.map_cons, inductionHypothesis]

namespace ForClauses

/-- The clauses of a loop with changed tokens. -/
def relabel
    (change : Token → Token)
    (clauses : ForClauses) :
    ForClauses where
  initial := clauses.initial.map (Stmt.relabel change)
  condition := clauses.condition.map (Expr.relabel change)
  increment := clauses.increment.map (Expr.relabel change)

theorem unfold_relabel
    (change : Token → Token)
    (clauses : ForClauses)
    (body : Stmt) :
    (clauses.relabel change).unfold (body.relabel change) =
      (clauses.unfold body).relabel change := by
  rcases clauses with ⟨initial, condition, increment⟩
  cases initial <;> cases condition <;> cases increment <;>
    simp [ForClauses.unfold, relabel, iteration, Stmt.relabel,
      Stmt.relabelAll, Expr.relabel]

end ForClauses

namespace Stmt.Parser

variable {number : Int → Int} {earlier : List Diagnostic}

theorem optionalExpr_reline
    (ending : TokenKind)
    (cursor : Cursor) :
    optionalExpr ending (cursor.reline number earlier) =
      (optionalExpr ending cursor).reline number earlier
        (Option.map (Expr.relabel (Token.reline number))) := by
  unfold optionalExpr
  rw [Cursor.sees_reline, Expr.parse_reline]
  split
  · rfl
  · exact Step.reline_map fun _ => rfl

/-- An expression and the token behind it, on other lines. -/
theorem terminated_reline
    (what : Expectation)
    (make : Expr → Stmt)
    (makes :
      ∀ value,
        make (value.relabel (Token.reline number)) =
          (make value).relabel (Token.reline number))
    (cursor : Cursor) :
    ((Expr.parse (cursor.reline number earlier)).bind fun value cursor =>
        (cursor.expect .semicolon what).map fun _ => make value) =
      ((Expr.parse cursor).bind fun value cursor =>
        (cursor.expect .semicolon what).map fun _ => make value).reline
          number earlier (Stmt.relabel (Token.reline number)) := by
  rw [Expr.parse_reline]
  refine Step.reline_bind fun value cursor => ?_
  rw [Cursor.expect_reline]
  exact Step.reline_map fun _ => makes value

theorem expressionStatement_reline (cursor : Cursor) :
    expressionStatement (cursor.reline number earlier) =
      (expressionStatement cursor).reline number earlier
        (Stmt.relabel (Token.reline number)) :=
  terminated_reline _ .expression (fun _ => by rw [Stmt.relabel]) cursor

theorem printStatement_reline (cursor : Cursor) :
    printStatement (cursor.reline number earlier) =
      (printStatement cursor).reline number earlier
        (Stmt.relabel (Token.reline number)) :=
  terminated_reline _ .print (fun _ => by rw [Stmt.relabel]) cursor

theorem returnStatement_reline
    (keyword : Token)
    (cursor : Cursor) :
    returnStatement (keyword.reline number) (cursor.reline number earlier) =
      (returnStatement keyword cursor).reline number earlier
        (Stmt.relabel (Token.reline number)) := by
  rw [returnStatement, optionalExpr_reline]
  refine Step.reline_bind fun value cursor => ?_
  rw [Cursor.expect_reline]
  exact Step.reline_map fun _ => by rw [Stmt.relabel]

theorem variableDeclaration_reline (cursor : Cursor) :
    variableDeclaration (cursor.reline number earlier) =
      (variableDeclaration cursor).reline number earlier
        (Stmt.relabel (Token.reline number)) := by
  rw [variableDeclaration, Cursor.expect_reline]
  refine Step.reline_bind fun name cursor => ?_
  have ends (initial : Option Expr) (cursor : Cursor) :
      (((cursor.reline number earlier).expect
          .semicolon .variableEnd).map fun _ =>
          .variableDecl (name.reline number)
            (initial.map (Expr.relabel (Token.reline number)))) =
        ((cursor.expect .semicolon .variableEnd).map fun _ =>
          .variableDecl name initial).reline number earlier
            (Stmt.relabel (Token.reline number)) := by
    rw [Cursor.expect_reline]
    exact Step.reline_map fun _ => by rw [Stmt.relabel]
  rw [Cursor.accept?_reline]
  cases cursor.accept? .equal with
  | some found =>
      have initial :
          (Expr.parse (found.2.reline number earlier)).map some =
            ((Expr.parse found.2).map some).reline number earlier
              (Option.map (Expr.relabel (Token.reline number))) := by
        rw [Expr.parse_reline]
        exact Step.reline_map fun _ => rfl
      simp only [Option.map_some, Prod.map, initial]
      exact Step.reline_bind ends
  | none =>
      exact ends none cursor

theorem countParameter_reline
    (collected : List Token)
    (cursor : Cursor) :
    countParameter (collected.map (Token.reline number))
        (cursor.reline number earlier) =
      (countParameter collected cursor).reline number earlier := by
  unfold countParameter
  rw [List.length_map]
  split
  · rw [Cursor.peek_reline, Cursor.report_reline]
  · rfl

theorem parameterNames_reline
    (fuel : Nat)
    (collected : List Token)
    (cursor : Cursor) :
    parameterNames fuel (collected.map (Token.reline number))
        (cursor.reline number earlier) =
      (parameterNames fuel collected cursor).reline number earlier
        (List.map (Token.reline number)) := by
  induction fuel generalizing collected cursor with
  | zero =>
      rfl
  | succ fuel inductionHypothesis =>
      rw [parameterNames, parameterNames, countParameter_reline,
        Cursor.expect_reline]
      refine Step.reline_bind fun parameter cursor => ?_
      rw [Cursor.accept?_reline]
      cases cursor.accept? .comma with
      | some found =>
          exact inductionHypothesis (parameter :: collected) found.2
      | none =>
          simp [Step.reline]

/-- The name and the parameters of a function with changed tokens. -/
def relabelHead
    (change : Token → Token)
    (head : Token × List Token) :
    Token × List Token :=
  (change head.1, head.2.map change)

theorem functionHead_reline
    (form : FunctionForm)
    (cursor : Cursor) :
    functionHead form (cursor.reline number earlier) =
      (functionHead form cursor).reline number earlier
        (relabelHead (Token.reline number)) := by
  rw [functionHead, Cursor.expect_reline]
  refine Step.reline_bind fun name cursor => ?_
  rw [Cursor.expect_reline]
  refine Step.reline_bind fun _ cursor => ?_
  have parameters :
      (if (cursor.reline number earlier).sees .rightParen then
          .done [] (cursor.reline number earlier)
        else
          parameterNames ((cursor.reline number earlier).rest.length + 1) []
            (cursor.reline number earlier)) =
        (if cursor.sees .rightParen then
          .done [] cursor
        else
          parameterNames (cursor.rest.length + 1) [] cursor).reline
            number earlier (List.map (Token.reline number)) := by
    rw [Cursor.sees_reline]
    split
    · rfl
    · have length :
          (cursor.reline number earlier).rest.length = cursor.rest.length :=
        List.length_map _
      rw [length]
      exact parameterNames_reline _ [] cursor
  dsimp only
  rw [parameters]
  refine Step.reline_bind fun parameters cursor => ?_
  rw [Cursor.expect_reline]
  exact Step.reline_map fun _ => rfl

theorem initialClause_reline (cursor : Cursor) :
    initialClause (cursor.reline number earlier) =
      (initialClause cursor).reline number earlier
        (Option.map (Stmt.relabel (Token.reline number))) := by
  rw [initialClause, initialClause, Cursor.accept?_reline]
  cases cursor.accept? .semicolon with
  | some found =>
      rfl
  | none =>
      simp only [Option.map_none, Cursor.accept?_reline]
      cases cursor.accept? (.keyword .varWord) with
      | some found =>
          simp only [Option.map_some, Prod.map, variableDeclaration_reline]
          exact Step.reline_map fun _ => rfl
      | none =>
          simp only [Option.map_none, expressionStatement_reline]
          exact Step.reline_map fun _ => rfl

theorem forClauses_reline (cursor : Cursor) :
    forClauses (cursor.reline number earlier) =
      (forClauses cursor).reline number earlier
        (ForClauses.relabel (Token.reline number)) := by
  rw [forClauses, Cursor.expect_reline]
  refine Step.reline_bind fun _ cursor => ?_
  rw [initialClause_reline]
  refine Step.reline_bind fun initial cursor => ?_
  rw [optionalExpr_reline]
  refine Step.reline_bind fun condition cursor => ?_
  rw [Cursor.expect_reline]
  refine Step.reline_bind fun _ cursor => ?_
  rw [optionalExpr_reline]
  refine Step.reline_bind fun increment cursor => ?_
  rw [Cursor.expect_reline]
  exact Step.reline_map fun _ => rfl

theorem condition_reline
    (start ending : Expectation)
    (cursor : Cursor) :
    condition start ending (cursor.reline number earlier) =
      (condition start ending cursor).reline number earlier
        (Expr.relabel (Token.reline number)) := by
  rw [condition, Cursor.expect_reline]
  refine Step.reline_bind fun _ cursor => ?_
  rw [Expr.parse_reline]
  refine Step.reline_bind fun condition cursor => ?_
  rw [Cursor.expect_reline]
  exact Step.reline_map fun _ => rfl

/-- The functions for statements go the same way on other lines within a
bound. -/
structure Relines
    (number : Int → Int)
    (earlier : List Diagnostic)
    (fuel : Nat) :
    Prop where
  declaration :
    ∀ cursor : Cursor,
      declaration fuel (cursor.reline number earlier) =
        (declaration fuel cursor).reline number earlier
          (Stmt.relabel (Token.reline number))
  statement :
    ∀ cursor : Cursor,
      statement fuel (cursor.reline number earlier) =
        (statement fuel cursor).reline number earlier
          (Stmt.relabel (Token.reline number))
  block :
    ∀ (opening : Token) (cursor : Cursor),
      block fuel (opening.reline number) (cursor.reline number earlier) =
        (block fuel opening cursor).reline number earlier
          (Stmt.relabelAll (Token.reline number))
  declarations :
    ∀ (inBlock : Bool) (collected : List Stmt) (cursor : Cursor),
      declarations fuel inBlock
          (Stmt.relabelAll (Token.reline number) collected)
          (cursor.reline number earlier) =
        (declarations fuel inBlock collected cursor).map
          (Stmt.relabelAll (Token.reline number)) (Cursor.reline number earlier)
  function :
    ∀ (form : FunctionForm) (cursor : Cursor),
      function fuel form (cursor.reline number earlier) =
        (function fuel form cursor).reline number earlier
          (FunctionDecl.relabel (Token.reline number))
  classDeclaration :
    ∀ cursor : Cursor,
      classDeclaration fuel (cursor.reline number earlier) =
        (classDeclaration fuel cursor).reline number earlier
          (Stmt.relabel (Token.reline number))
  methods :
    ∀ (collected : List FunctionDecl) (cursor : Cursor),
      methods fuel (FunctionDecl.relabelAll (Token.reline number) collected)
          (cursor.reline number earlier) =
        (methods fuel collected cursor).reline number earlier
          (FunctionDecl.relabelAll (Token.reline number))

variable {fuel : Nat}

theorem relines_zero : Relines number earlier 0 where
  declaration _ := by
    rw [declaration, declaration]
    rfl
  statement _ := by
    rw [statement, statement]
    rfl
  block _ _ := by
    rw [block, block]
    rfl
  declarations _ collected _ := by
    rw [declarations, declarations]
    simp [Stmt.relabelAll_eq_map]
  function _ _ := by
    rw [function, function]
    rfl
  classDeclaration _ := by
    rw [classDeclaration, classDeclaration]
    rfl
  methods _ _ := by
    rw [methods, methods]
    rfl

theorem declaration_reline
    (smaller : Relines number earlier fuel)
    (cursor : Cursor) :
    declaration (fuel + 1) (cursor.reline number earlier) =
      (declaration (fuel + 1) cursor).reline number earlier
        (Stmt.relabel (Token.reline number)) := by
  have whole := smaller.statement cursor
  rcases cursor with ⟨_ | ⟨first, rest⟩, ending, depth, reported⟩
  · rw [declaration, declaration]
    exact whole
  · let behind := Cursor.mk rest ending depth reported
    rw [declaration, declaration]
    simp only [Cursor.reline, List.map_cons]
    rw [show (first.reline number).kind = first.kind from rfl]
    split
    · exact smaller.classDeclaration behind
    · show (function fuel _ (behind.reline number earlier)).map _ = _
      rw [smaller.function]
      exact Step.reline_map fun _ => by rw [Stmt.relabel]
    · exact variableDeclaration_reline behind
    · exact whole

theorem statement_reline
    (smaller : Relines number earlier fuel)
    (cursor : Cursor) :
    statement (fuel + 1) (cursor.reline number earlier) =
      (statement (fuel + 1) cursor).reline number earlier
        (Stmt.relabel (Token.reline number)) := by
  have whole :
      expressionStatement (cursor.reline number earlier) =
        (expressionStatement cursor).reline number earlier
          (Stmt.relabel (Token.reline number)) :=
    expressionStatement_reline cursor
  rcases cursor with ⟨_ | ⟨first, rest⟩, ending, depth, reported⟩
  · rw [statement, statement]
    exact whole
  · let behind := Cursor.mk rest ending depth reported
    rw [statement, statement]
    simp only [Cursor.reline, List.map_cons]
    rw [show (first.reline number).kind = first.kind from rfl]
    split
    · show (forClauses (behind.reline number earlier)).bind _ = _
      rw [forClauses_reline]
      refine Step.reline_bind fun clauses cursor => ?_
      rw [smaller.statement]
      exact Step.reline_map fun body => clauses.unfold_relabel _ body
    · show (condition _ _ (behind.reline number earlier)).bind _ = _
      rw [condition_reline]
      refine Step.reline_bind fun condition cursor => ?_
      rw [smaller.statement]
      refine Step.reline_bind fun consequent cursor => ?_
      rw [Cursor.accept?_reline]
      cases cursor.accept? (.keyword .elseWord) with
      | some found =>
          simp only [Option.map_some, Prod.map, smaller.statement]
          exact Step.reline_map fun _ => by rw [Stmt.relabel]
      | none =>
          simp only [Option.map_none, Step.reline, Stmt.relabel]
    · exact printStatement_reline behind
    · exact returnStatement_reline first behind
    · show (condition _ _ (behind.reline number earlier)).bind _ = _
      rw [condition_reline]
      refine Step.reline_bind fun condition cursor => ?_
      rw [smaller.statement]
      exact Step.reline_map fun _ => by rw [Stmt.relabel]
    · show (block fuel (first.reline number)
          (behind.reline number earlier)).map _ = _
      rw [smaller.block]
      exact Step.reline_map fun _ => by rw [Stmt.relabel]
    · exact whole

theorem block_reline
    (smaller : Relines number earlier fuel)
    (opening : Token)
    (cursor : Cursor) :
    block (fuel + 1) (opening.reline number) (cursor.reline number earlier) =
      (block (fuel + 1) opening cursor).reline number earlier
        (Stmt.relabelAll (Token.reline number)) := by
  rw [block, block]
  refine cursor.nested_reline opening fun inner => ?_
  have inside := smaller.declarations true [] inner
  rw [Stmt.relabelAll] at inside
  rw [inside]
  simp only [Prod.map, Cursor.expect_reline]
  exact Step.reline_map fun _ => rfl

theorem declarations_reline
    (smaller : Relines number earlier fuel)
    (inBlock : Bool)
    (collected : List Stmt)
    (cursor : Cursor) :
    declarations (fuel + 1) inBlock
        (Stmt.relabelAll (Token.reline number) collected)
        (cursor.reline number earlier) =
      (declarations (fuel + 1) inBlock collected cursor).map
        (Stmt.relabelAll (Token.reline number))
        (Cursor.reline number earlier) := by
  have empty :
      (cursor.reline number earlier).rest.isEmpty = cursor.rest.isEmpty :=
    List.isEmpty_map
  rw [declarations, declarations, Cursor.sees_reline, empty,
    smaller.declaration]
  split
  · simp [Stmt.relabelAll_eq_map]
  · cases declaration fuel cursor with
    | done statement after =>
        exact smaller.declarations inBlock (statement :: collected) after
    | failed after =>
        simp only [Step.reline, Cursor.synchronize_reline,
          smaller.declarations]

theorem function_reline
    (smaller : Relines number earlier fuel)
    (form : FunctionForm)
    (cursor : Cursor) :
    function (fuel + 1) form (cursor.reline number earlier) =
      (function (fuel + 1) form cursor).reline number earlier
        (FunctionDecl.relabel (Token.reline number)) := by
  rw [function, function, functionHead_reline]
  refine Step.reline_bind fun head cursor => ?_
  rcases head with ⟨name, parameters⟩
  simp only [relabelHead, Cursor.expect_reline]
  refine Step.reline_bind fun opening cursor => ?_
  rw [smaller.block]
  exact Step.reline_map fun _ => by rw [FunctionDecl.relabel]

theorem classDeclaration_reline
    (smaller : Relines number earlier fuel)
    (cursor : Cursor) :
    classDeclaration (fuel + 1) (cursor.reline number earlier) =
      (classDeclaration (fuel + 1) cursor).reline number earlier
        (Stmt.relabel (Token.reline number)) := by
  rw [classDeclaration, classDeclaration, Cursor.expect_reline]
  refine Step.reline_bind fun name cursor => ?_
  rw [Cursor.expect_reline]
  refine Step.reline_bind fun _ cursor => ?_
  have methods := smaller.methods [] cursor
  rw [FunctionDecl.relabelAll] at methods
  rw [methods]
  refine Step.reline_bind fun methods cursor => ?_
  rw [Cursor.expect_reline]
  exact Step.reline_map fun _ => by rw [Stmt.relabel]

theorem methods_reline
    (smaller : Relines number earlier fuel)
    (collected : List FunctionDecl)
    (cursor : Cursor) :
    methods (fuel + 1)
        (FunctionDecl.relabelAll (Token.reline number) collected)
        (cursor.reline number earlier) =
      (methods (fuel + 1) collected cursor).reline number earlier
        (FunctionDecl.relabelAll (Token.reline number)) := by
  have empty :
      (cursor.reline number earlier).rest.isEmpty = cursor.rest.isEmpty :=
    List.isEmpty_map
  rw [methods, methods, Cursor.sees_reline, empty]
  split
  · simp [Step.reline, FunctionDecl.relabelAll_eq_map]
  · rw [smaller.function]
    exact Step.reline_bind fun method cursor =>
      smaller.methods (method :: collected) cursor

theorem relines
    (number : Int → Int)
    (earlier : List Diagnostic)
    (fuel : Nat) :
    Relines number earlier fuel := by
  induction fuel with
  | zero =>
      exact relines_zero
  | succ fuel smaller =>
      exact {
        declaration := declaration_reline smaller
        statement := statement_reline smaller
        block := block_reline smaller
        declarations := declarations_reline smaller
        function := function_reline smaller
        classDeclaration := classDeclaration_reline smaller
        methods := methods_reline smaller }

end Stmt.Parser

namespace Cursor

/-- Parsing begins with the same tokens on other lines. -/
theorem start_reline
    (number : Int → Int)
    {tokens : List Token}
    (someToken : tokens ≠ []) :
    start (tokens.map (Token.reline number)) =
      (start tokens).reline number [] := by
  have isEnd :
      (fun token : Token => token.kind == .endOfInput) ∘
          Token.reline number =
        fun token => token.kind == .endOfInput :=
    rfl
  have notEnd :
      (fun token : Token => !(token.kind == .endOfInput)) ∘
          Token.reline number =
        fun token => !(token.kind == .endOfInput) :=
    rfl
  have lastLine :
      ((tokens.map (Token.reline number)).getLast?.map Token.line).getD 1 =
        number ((tokens.getLast?.map Token.line).getD 1) := by
    rw [List.getLast?_map, List.getLast?_eq_some_getLast someToken]
    rfl
  unfold start reline
  simp only [List.takeWhile_map, List.find?_map, isEnd, notEnd, lastLine,
    List.map_nil]
  cases tokens.find? fun token => token.kind == .endOfInput <;> rfl

end Cursor

/-- A program with other numbers for its lines. -/
def Program.reline
    (number : Int → Int)
    (program : Program) :
    Program where
  statements := Stmt.relabelAll (Token.reline number) program.statements
  problems := program.problems.map (Diagnostic.reline number)

/-- The same tokens on other lines are the same program on other lines. -/
theorem Program.ofTokens_reline
    (number : Int → Int)
    {tokens : List Token}
    (someToken : tokens ≠ []) :
    ofTokens (tokens.map (Token.reline number)) =
      (ofTokens tokens).reline number := by
  have length :
      ((Cursor.start tokens).reline number []).rest.length =
        (Cursor.start tokens).rest.length :=
    List.length_map _
  have run :=
    (Stmt.Parser.relines number []
      (6 * (Cursor.start tokens).rest.length + 6)).declarations false []
        (Cursor.start tokens)
  rw [Stmt.relabelAll] at run
  unfold ofTokens
  rw [Cursor.start_reline number someToken]
  simp only [length, run]
  simp [Program.reline, Cursor.reline]

end Script
