import Script.Proofs.Nesting.Statement
import Script.Proofs.Parsing.Bound

namespace Script

/-!
# Balanced nesting

Whatever a parsing function comes to, it leaves as many constructs open as it
found, and while it runs no more are open than may be.  So no declaration of a
program finds anything open, however many went wrong before it: what is left of
the program is parsed as a program of its own.
-/

/-- A parsing function with its arguments, apart from its bound and the cursor. -/
inductive ParsingFunction : Type → Type where
  | expression : ParsingFunction Expr
  | operation (level : Nat) : ParsingFunction Expr
  | operators (level : Nat) (left : Expr) : ParsingFunction Expr
  | operand : ParsingFunction Expr
  | trailers (callee : Expr) : ParsingFunction Expr
  | arguments (collected : List Expr) : ParsingFunction (List Expr)
  | primary : ParsingFunction Expr
  | wholeExpression : ParsingFunction Expr
  | optionalExpr (ending : TokenKind) : ParsingFunction (Option Expr)
  | expressionStatement : ParsingFunction Stmt
  | printStatement : ParsingFunction Stmt
  | returnStatement (keyword : Token) : ParsingFunction Stmt
  | variableDeclaration : ParsingFunction Stmt
  | parameterNames (collected : List Token) : ParsingFunction (List Token)
  | functionHead (form : FunctionForm) : ParsingFunction (Token × List Token)
  | initialClause : ParsingFunction (Option Stmt)
  | forClauses : ParsingFunction ForClauses
  | condition (start ending : Expectation) : ParsingFunction Expr
  | declaration : ParsingFunction Stmt
  | statement : ParsingFunction Stmt
  | block (opening : Token) : ParsingFunction (List Stmt)
  | declarations (inBlock : Bool) (collected : List Stmt) :
      ParsingFunction (List Stmt)
  | function (form : FunctionForm) : ParsingFunction FunctionDecl
  | classDeclaration : ParsingFunction Stmt
  | methods (collected : List FunctionDecl) :
      ParsingFunction (List FunctionDecl)

namespace ParsingFunction

/-- What the parser does for a parsing function. -/
def parse :
    {α : Type} → ParsingFunction α → Nat → Cursor → Step α
  | _, .expression, bound, cursor =>
      Expr.Parser.expression bound cursor
  | _, .operation level, bound, cursor =>
      Expr.Parser.operation bound level cursor
  | _, .operators level left, bound, cursor =>
      Expr.Parser.operators bound level left cursor
  | _, .operand, bound, cursor =>
      Expr.Parser.operand bound cursor
  | _, .trailers callee, bound, cursor =>
      Expr.Parser.trailers bound callee cursor
  | _, .arguments collected, bound, cursor =>
      Expr.Parser.arguments bound collected cursor
  | _, .primary, bound, cursor =>
      Expr.Parser.primary bound cursor
  | _, .wholeExpression, _, cursor =>
      Expr.parse cursor
  | _, .optionalExpr ending, _, cursor =>
      Stmt.Parser.optionalExpr ending cursor
  | _, .expressionStatement, _, cursor =>
      Stmt.Parser.expressionStatement cursor
  | _, .printStatement, _, cursor =>
      Stmt.Parser.printStatement cursor
  | _, .returnStatement keyword, _, cursor =>
      Stmt.Parser.returnStatement keyword cursor
  | _, .variableDeclaration, _, cursor =>
      Stmt.Parser.variableDeclaration cursor
  | _, .parameterNames collected, bound, cursor =>
      Stmt.Parser.parameterNames bound collected cursor
  | _, .functionHead form, _, cursor =>
      Stmt.Parser.functionHead form cursor
  | _, .initialClause, _, cursor =>
      Stmt.Parser.initialClause cursor
  | _, .forClauses, _, cursor =>
      Stmt.Parser.forClauses cursor
  | _, .condition start ending, _, cursor =>
      Stmt.Parser.condition start ending cursor
  | _, .declaration, bound, cursor =>
      Stmt.Parser.declaration bound cursor
  | _, .statement, bound, cursor =>
      Stmt.Parser.statement bound cursor
  | _, .block opening, bound, cursor =>
      Stmt.Parser.block bound opening cursor
  | _, .declarations inBlock collected, bound, cursor =>
      let read := Stmt.Parser.declarations bound inBlock collected cursor
      .done read.1 read.2
  | _, .function form, bound, cursor =>
      Stmt.Parser.function bound form cursor
  | _, .classDeclaration, bound, cursor =>
      Stmt.Parser.classDeclaration bound cursor
  | _, .methods collected, bound, cursor =>
      Stmt.Parser.methods bound collected cursor

/-- The text of a parsing function. -/
def routine :
    {α : Type} → ParsingFunction α → Nat → Routine α
  | _, .expression, bound =>
      Routine.expression bound
  | _, .operation level, bound =>
      Routine.operation bound level
  | _, .operators level left, bound =>
      Routine.operators bound level left
  | _, .operand, bound =>
      Routine.operand bound
  | _, .trailers callee, bound =>
      Routine.trailers bound callee
  | _, .arguments collected, bound =>
      Routine.arguments bound collected
  | _, .primary, bound =>
      Routine.primary bound
  | _, .wholeExpression, _ =>
      Routine.expr
  | _, .optionalExpr ending, _ =>
      Routine.optionalExpr ending
  | _, .expressionStatement, _ =>
      Routine.expressionStatement
  | _, .printStatement, _ =>
      Routine.printStatement
  | _, .returnStatement keyword, _ =>
      Routine.returnStatement keyword
  | _, .variableDeclaration, _ =>
      Routine.variableDeclaration
  | _, .parameterNames collected, bound =>
      Routine.parameterNames bound collected
  | _, .functionHead form, _ =>
      Routine.functionHead form
  | _, .initialClause, _ =>
      Routine.initialClause
  | _, .forClauses, _ =>
      Routine.forClauses
  | _, .condition start ending, _ =>
      Routine.condition start ending
  | _, .declaration, bound =>
      Routine.declaration bound
  | _, .statement, bound =>
      Routine.statement bound
  | _, .block opening, bound =>
      Routine.block bound opening
  | _, .declarations inBlock collected, bound =>
      Routine.declarations bound inBlock collected
  | _, .function form, bound =>
      Routine.function bound form
  | _, .classDeclaration, bound =>
      Routine.classDeclaration bound
  | _, .methods collected, bound =>
      Routine.methods bound collected

variable {α : Type}

/-- Running the text of a parsing function is what the parser does for it. -/
theorem run_routine
    (function : ParsingFunction α)
    (bound : Nat)
    (cursor : Cursor) :
    (function.routine bound).run cursor = function.parse bound cursor := by
  have runsExpr := Routine.runsExpr bound
  have runsStmt := Routine.runsStmt bound
  cases function with
  | expression =>
      exact runsExpr.expression cursor
  | operation level =>
      exact runsExpr.operation level cursor
  | operators level left =>
      exact runsExpr.operators level left cursor
  | operand =>
      exact runsExpr.operand cursor
  | trailers callee =>
      exact runsExpr.trailers callee cursor
  | arguments collected =>
      exact runsExpr.arguments collected cursor
  | primary =>
      exact runsExpr.primary cursor
  | wholeExpression =>
      exact Routine.run_expr cursor
  | optionalExpr ending =>
      exact Routine.run_optionalExpr ending cursor
  | expressionStatement =>
      exact Routine.run_expressionStatement cursor
  | printStatement =>
      exact Routine.run_printStatement cursor
  | returnStatement keyword =>
      exact Routine.run_returnStatement keyword cursor
  | variableDeclaration =>
      exact Routine.run_variableDeclaration cursor
  | parameterNames collected =>
      exact Routine.run_parameterNames bound collected cursor
  | functionHead form =>
      exact Routine.run_functionHead form cursor
  | initialClause =>
      exact Routine.run_initialClause cursor
  | forClauses =>
      exact Routine.run_forClauses cursor
  | condition start ending =>
      exact Routine.run_condition start ending cursor
  | declaration =>
      exact runsStmt.declaration cursor
  | statement =>
      exact runsStmt.statement cursor
  | block opening =>
      exact runsStmt.block opening cursor
  | declarations inBlock collected =>
      exact runsStmt.declarations inBlock collected cursor
  | function form =>
      exact runsStmt.function form cursor
  | classDeclaration =>
      exact runsStmt.classDeclaration cursor
  | methods collected =>
      exact runsStmt.methods collected cursor

/-- A parsing function leaves as many constructs open as it found. -/
theorem depth_parse
    (function : ParsingFunction α)
    (bound : Nat)
    (cursor : Cursor) :
    (function.parse bound cursor).cursor.depth = cursor.depth := by
  rw [← function.run_routine bound cursor]
  exact (function.routine bound).depth_run cursor

end ParsingFunction

/-! The declarations of a program. -/

/-- A declaration that is tried at the top level of a program. -/
structure Attempt where
  /-- Where it begins. -/
  start : Cursor
  /-- The bound on the calls of the parser. -/
  bound : Nat

namespace Attempt

/-- What became of the declaration. -/
def result (attempt : Attempt) : Step Stmt :=
  Stmt.Parser.declaration attempt.bound attempt.start

/-- The statement that it gave, if it did not fail. -/
def statement? (attempt : Attempt) : Option Stmt :=
  match attempt.result with
  | .done statement _ =>
      some statement
  | .failed _ =>
      none

/-- Where parsing goes on behind it. -/
def next (attempt : Attempt) : Cursor :=
  match attempt.result with
  | .done _ after =>
      after
  | .failed after =>
      after.synchronize

/-- The tokens from its beginning to the end of the input. -/
def tokens (attempt : Attempt) : List Token :=
  attempt.start.rest ++ [attempt.start.ending]

/-- The declarations that are tried one after the other from a cursor on. -/
def inTurn
    (bound : Nat)
    (cursor : Cursor) :
    List Attempt :=
  match bound with
  | 0 =>
      []
  | bound + 1 =>
      if cursor.rest.isEmpty then
        []
      else
        let attempt : Attempt := { start := cursor, bound }
        attempt :: inTurn bound attempt.next

/-! One declaration after another one. -/

variable (attempt : Attempt)

/-- A declaration leads on, and reads a token unless it fails. -/
theorem result_builds :
    attempt.result.Builds attempt.start 1
      (Stmt.WellFormed fun _ => True) :=
  (Stmt.Parser.build (fun _ => True) attempt.bound).declaration attempt.start
    fun _ _ => trivial

/-- Parsing goes on in the same run. -/
theorem leads_next : attempt.start.Leads attempt.next := by
  have built := attempt.result_builds
  unfold next
  cases read : attempt.result with
  | done statement after =>
      rw [read] at built
      exact built.1
  | failed after =>
      rw [read] at built
      exact built.trans after.leads_synchronize

/-- Something is read or skipped where there is something. -/
theorem length_next_lt (remaining : attempt.start.rest ≠ []) :
    attempt.next.rest.length < attempt.start.rest.length := by
  have built := attempt.result_builds
  unfold next
  cases read : attempt.result with
  | done statement after =>
      rw [read] at built
      exact built.2.1
  | failed after =>
      exact Slice.length_synchronize_lt remaining read

/-- The statements of a program are those of its first declaration, and those
behind it. -/
theorem declarations_attempt (remaining : attempt.start.rest ≠ []) :
    let behind :=
      Stmt.Parser.declarations attempt.bound false [] attempt.next
    Stmt.Parser.declarations (attempt.bound + 1) false [] attempt.start =
      (attempt.statement?.toList ++ behind.1, behind.2) := by
  have goesOn :
      ¬(attempt.start.rest.isEmpty ||
        false && attempt.start.sees .rightBrace) = true := by
    simpa using remaining
  rw [Stmt.Parser.declarations, if_neg goesOn]
  unfold next statement? result
  cases Stmt.Parser.declaration attempt.bound attempt.start with
  | done statement after =>
      exact Stmt.Parser.declarations_collected attempt.bound false [statement]
        after
  | failed after =>
      rfl

/-- The statements that are read are those of the declarations that are tried. -/
theorem statements_inTurn
    (bound : Nat)
    (cursor : Cursor) :
    (Stmt.Parser.declarations bound false [] cursor).1 =
      (inTurn bound cursor).filterMap statement? := by
  induction bound generalizing cursor with
  | zero =>
      rfl
  | succ bound inductionHypothesis =>
      let attempt : Attempt := { start := cursor, bound }
      by_cases nothing : cursor.rest = []
      · rw [Stmt.Parser.declarations_of_nil false [] nothing, inTurn, nothing]
        rfl
      · have tried :
            inTurn (bound + 1) cursor = attempt :: inTurn bound attempt.next := by
          rw [inTurn, if_neg (by simpa using nothing)]
        rw [attempt.declarations_attempt nothing, tried,
          inductionHypothesis attempt.next]
        cases shape : attempt.statement? <;> simp [shape]

/-- The declarations from one on are read behind the statements of those in
front of it, in the same run and within a bound that suffices. -/
theorem declarations_inTurn
    {attempt : Attempt}
    {later : List Attempt}
    (earlier : List Attempt)
    {bound : Nat}
    {cursor : Cursor}
    (tried : inTurn bound cursor = earlier ++ attempt :: later)
    (enough : 6 * cursor.rest.length + 6 ≤ bound) :
    let behind :=
      Stmt.Parser.declarations (attempt.bound + 1) false [] attempt.start
    cursor.Leads attempt.start ∧
      6 * attempt.start.rest.length + 6 ≤ attempt.bound + 1 ∧
      Stmt.Parser.declarations bound false [] cursor =
        (earlier.filterMap statement? ++ behind.1, behind.2) := by
  induction earlier generalizing bound cursor with
  | nil =>
      obtain ⟨bound, rfl⟩ : ∃ less, bound = less + 1 := ⟨bound - 1, by omega⟩
      rw [inTurn] at tried
      split at tried
      · contradiction
      · obtain ⟨rfl, -⟩ := List.cons.inj tried
        exact ⟨.refl cursor, enough, rfl⟩
  | cons first earlier inductionHypothesis =>
      obtain ⟨bound, rfl⟩ : ∃ less, bound = less + 1 := ⟨bound - 1, by omega⟩
      rw [inTurn] at tried
      split at tried
      · contradiction
      · rename_i remaining
        obtain ⟨rfl, triedNext⟩ := List.cons.inj tried
        let first : Attempt := { start := cursor, bound }
        have remaining : first.start.rest ≠ [] := by
          simpa using remaining
        -- One call of the bound is gone, and at least one token with it.
        have shorter : first.next.rest.length < cursor.rest.length :=
          first.length_next_lt remaining
        obtain ⟨leads, sufficient, reads⟩ :=
          inductionHypothesis triedNext
            (show 6 * first.next.rest.length + 6 ≤ bound by omega)
        refine ⟨first.leads_next.trans leads, sufficient, ?_⟩
        rw [first.declarations_attempt remaining, reads]
        cases shape : first.statement? <;> simp [first, shape]

end Attempt

namespace Program

/-- The declarations that are tried at the top level of a list of tokens. -/
def attempts (tokens : List Token) : List Attempt :=
  let cursor := Cursor.start tokens
  Attempt.inTurn (6 * cursor.rest.length + 6) cursor

/-- Nothing is open where a declaration of a program begins, and what is left of
the program is parsed as a program of its own. -/
theorem ofTokens_attempts
    {tokens : List Token}
    {earlier later : List Attempt}
    {attempt : Attempt}
    (tried : attempts tokens = earlier ++ attempt :: later) :
    attempt.start.depth = 0 ∧
      ofTokens tokens =
        { statements :=
            earlier.filterMap Attempt.statement? ++
              (ofTokens attempt.tokens).statements
          problems :=
            attempt.start.reported.reverse ++
              (ofTokens attempt.tokens).problems } := by
  obtain ⟨leads, enough, reads⟩ :=
    Attempt.declarations_inTurn earlier tried le_rfl
  have shallow : attempt.start.depth = 0 := leads.depth
  have ends : attempt.start.Ends := by
    have wholeEnds := Cursor.start_ends tokens
    exact
      { notEnd := fun token member =>
          wholeEnds.notEnd token (leads.rest.subset member)
        isEnd := leads.ending ▸ wholeEnds.isEnd }
  refine ⟨shallow, ?_⟩
  -- Earlier problems apart, this is the start of the tokens that are left.
  let fresh : Cursor := { attempt.start with reported := [] }
  have alone : Cursor.start attempt.tokens = fresh := by
    rw [Attempt.tokens, Grammar.start_of_ending ends.notEnd ends.isEnd]
    simp only [fresh, shallow]
  have readsAlone :
      Stmt.Parser.declarations (attempt.bound + 1) false [] fresh =
        Stmt.Parser.declarations (6 * fresh.rest.length + 6) false []
          fresh :=
    Stmt.Parser.declarations_bound false [] ⟨ends.notEnd, ends.isEnd⟩
      (show 6 * attempt.start.rest.length + 3 ≤ _ by omega)
      (Nat.add_le_add_left (by decide) _)
  have readsBehind :=
    Stmt.Parser.declarations_reported (attempt.bound + 1) false fresh
      attempt.start.reported
  rw [readsAlone] at readsBehind
  have reads :=
    reads.trans
      (congrArg
        (fun read : List Stmt × Cursor =>
          (earlier.filterMap Attempt.statement? ++ read.1, read.2))
        readsBehind)
  unfold ofTokens
  simp only [reads, alone, List.reverse_append]

end Program

/-- Nesting is balanced.  A parsing function that begins where no more constructs
are open than may be leaves as many open as it found, whether it gives a value or
fails, and at no cursor on its way are more of them open than may be.  So nothing
is open where a declaration of a program begins, whatever went wrong before it,
and what is left of the program is parsed as a program of its own. -/
theorem ParsingFunction.nesting_balanced :
    (∀ {α : Type} (function : ParsingFunction α) (bound : Nat)
        (cursor : Cursor),
      cursor.depth ≤ Cursor.maximalDepth →
      (function.routine bound).run cursor = function.parse bound cursor ∧
        (function.parse bound cursor).cursor.depth = cursor.depth ∧
        Cursor.Track cursor ((function.routine bound).visits cursor)
          (function.parse bound cursor).cursor ∧
        ∀ between ∈ (function.routine bound).visits cursor,
          between.depth ≤ Cursor.maximalDepth) ∧
      ∀ tokens : List Token,
        (Program.ofTokens tokens).statements =
            (Program.attempts tokens).filterMap Attempt.statement? ∧
          ∀ (earlier later : List Attempt) (attempt : Attempt),
            Program.attempts tokens = earlier ++ attempt :: later →
            attempt.start.depth = 0 ∧
              Program.ofTokens tokens =
                { statements :=
                    earlier.filterMap Attempt.statement? ++
                      (Program.ofTokens attempt.tokens).statements
                  problems :=
                    attempt.start.reported.reverse ++
                      (Program.ofTokens attempt.tokens).problems } := by
  refine ⟨fun function bound cursor shallow => ?_, fun tokens => ?_⟩
  · have track := (function.routine bound).visits_track cursor
    rw [function.run_routine bound cursor] at track
    exact ⟨function.run_routine bound cursor,
      function.depth_parse bound cursor, track,
      fun between => (function.routine bound).depth_visits_le shallow⟩
  · have statements :=
      Attempt.statements_inTurn (6 * (Cursor.start tokens).rest.length + 6)
        (Cursor.start tokens)
    exact ⟨statements,
      fun earlier later attempt => Program.ofTokens_attempts⟩

/-- A grouping where as many constructs are open as may be. -/
def groupingAtBottom : Cursor where
  rest := Grammar.tokensOf [.leftParen, .number, .rightParen]
  ending := .endAt 1
  depth := 1000
  reported := []

/-- A number behind one more minus than may be, and a statement behind it. -/
def deepMinus : List Token :=
  Grammar.tokensOf
    (List.replicate 1001 .minus ++
      [.number, .semicolon, .keyword .printWord, .number, .semicolon])

/-- The grouping is refused, and as much is open behind it as in front of it.
The declaration behind the minuses begins where nothing is open, and is parsed
as a program of its own. -/
theorem ParsingFunction.nesting_balanced_deepMinus :
    groupingAtBottom.depth ≤ Cursor.maximalDepth ∧
      (primary.parse 24 groupingAtBottom).cursor.reported.map
          Diagnostic.problem = [.tooMuchNesting] ∧
      (primary.parse 24 groupingAtBottom).cursor.depth = 1000 ∧
      (∀ between ∈ (primary.routine 24).visits groupingAtBottom,
        between.depth ≤ Cursor.maximalDepth) ∧
      ∃ first second : Attempt,
        Program.attempts deepMinus = [first, second] ∧
          second.start.reported.map Diagnostic.problem = [.tooMuchNesting] ∧
          second.start.depth = 0 ∧
          (Program.ofTokens deepMinus).problems =
            second.start.reported.reverse ++
              (Program.ofTokens second.tokens).problems := by
  obtain ⟨everywhere, topLevel⟩ := nesting_balanced
  have bottom : groupingAtBottom.depth ≤ Cursor.maximalDepth := by
    decide
  have refused :
      (primary.parse 24 groupingAtBottom).cursor.reported.map
        Diagnostic.problem = [.tooMuchNesting] := by
    decide
  have two : (Program.attempts deepMinus).length = 2 := by
    decide +kernel
  have before :
      (Program.attempts deepMinus).map
          (·.start.reported.map Diagnostic.problem) =
        [[], [.tooMuchNesting]] := by
    decide +kernel
  obtain ⟨-, closes, -, below⟩ := everywhere primary 24 groupingAtBottom bottom
  obtain ⟨first, second, tried⟩ := List.length_eq_two.mp two
  obtain ⟨shallow, alone⟩ := (topLevel deepMinus).2 [first] [] second tried
  rw [tried] at before
  exact ⟨bottom, refused, closes, below, first, second, tried,
    (List.cons.inj (List.cons.inj before).2).1, shallow,
    congrArg Program.problems alone⟩

end Script
