import Script.Proofs.Relabel.Tree
import Script.Tree.ExprParser

namespace Script

/-!
# Parsing expressions on other lines

The parser never looks at lines, nor at the problems that it has reported.  When
the lines of its tokens are numbered in another way and other problems were
reported earlier, it takes the same steps, and gives the same trees and the same
problems on the new lines, behind the earlier ones.
-/

namespace Token

/-- A token with another number for its line. -/
def reline
    (number : Int → Int)
    (token : Token) :
    Token :=
  { token with line := number token.line }

theorem reline_relabels (number : Int → Int) : Relabels (reline number) where
  kind _ := rfl
  lexeme _ := rfl
  literal _ := rfl

end Token

section Reline

variable (number : Int → Int)

/-- A problem with another number for its line. -/
def Diagnostic.reline (problem : Diagnostic) : Diagnostic :=
  { problem with line := number problem.line }

variable (earlier : List Diagnostic)

/-- A cursor in tokens with other numbers for their lines, behind problems that
were reported earlier. -/
def Cursor.reline (cursor : Cursor) : Cursor where
  rest := cursor.rest.map (Token.reline number)
  ending := cursor.ending.reline number
  depth := cursor.depth
  reported := cursor.reported.map (Diagnostic.reline number) ++ earlier

/-- A step on tokens with other numbers for their lines and behind earlier
problems, its value changed in its own way. -/
def Step.reline
    (onValue : α → β) :
    Step α → Step β
  | .done value cursor =>
      .done (onValue value) (cursor.reline number earlier)
  | .failed cursor =>
      .failed (cursor.reline number earlier)

end Reline

namespace Cursor

variable (number : Int → Int) (earlier : List Diagnostic) (cursor : Cursor)

@[simp]
theorem peek_reline :
    (cursor.reline number earlier).peek = cursor.peek.reline number := by
  rcases cursor with ⟨_ | ⟨first, rest⟩, ending, depth, reported⟩ <;> rfl

@[simp]
theorem sees_reline (kind : TokenKind) :
    (cursor.reline number earlier).sees kind = cursor.sees kind := by
  rw [sees, sees, peek_reline]
  rfl

@[simp]
theorem report_reline
    (token : Token)
    (problem : Problem) :
    (cursor.reline number earlier).report (token.reline number) problem =
      (cursor.report token problem).reline number earlier :=
  rfl

@[simp]
theorem accept?_reline (kind : TokenKind) :
    (cursor.reline number earlier).accept? kind =
      (cursor.accept? kind).map
        (Prod.map (Token.reline number) (reline number earlier)) := by
  rcases cursor with ⟨_ | ⟨first, rest⟩, ending, depth, reported⟩
  · rfl
  · simp only [accept?, reline, List.map_cons]
    split
    · rename_i same
      have kept : first.kind = kind := same
      simp [kept, reline]
    · rename_i different
      have kept : first.kind ≠ kind := different
      simp [kept]

@[simp]
theorem expect_reline
    (kind : TokenKind)
    (what : Expectation) :
    (cursor.reline number earlier).expect kind what =
      (cursor.expect kind what).reline number earlier
        (Token.reline number) := by
  unfold expect
  rw [accept?_reline]
  cases cursor.accept? kind with
  | none =>
      simp [Step.reline]
  | some found =>
      rfl

@[simp]
theorem synchronize_reline :
    (cursor.reline number earlier).synchronize =
      cursor.synchronize.reline number earlier := by
  have next (previous : Token) (rest : List Token) :
      nextStatement (previous.reline number) (rest.map (Token.reline number)) =
        (nextStatement previous rest).map (Token.reline number) := by
    induction rest generalizing previous with
    | nil =>
        rfl
    | cons first rest inductionHypothesis =>
        simp only [List.map_cons, nextStatement, inductionHypothesis]
        split <;> split <;> first | rfl | simp_all [Token.reline]
  rcases cursor with ⟨_ | ⟨first, rest⟩, ending, depth, reported⟩
  · rfl
  · simp [synchronize, reline, next]

end Cursor

namespace Step

variable {number : Int → Int} {earlier : List Diagnostic}

/-- Steps in a row go the same way on other lines when each of them does. -/
theorem reline_bind
    {onValue : α → β}
    {onResult : γ → δ}
    {step : Step α}
    {next : α → Cursor → Step γ}
    {relined : β → Cursor → Step δ}
    (same :
      ∀ value cursor,
        relined (onValue value) (cursor.reline number earlier) =
          (next value cursor).reline number earlier onResult) :
    (step.reline number earlier onValue).bind relined =
      (step.bind next).reline number earlier onResult := by
  cases step with
  | done value cursor =>
      exact same value cursor
  | failed cursor =>
      rfl

theorem reline_map
    {onValue : α → β}
    {onResult : γ → δ}
    {step : Step α}
    {change : α → γ}
    {relined : β → δ}
    (same : ∀ value, relined (onValue value) = onResult (change value)) :
    (step.reline number earlier onValue).map relined =
      (step.map change).reline number earlier onResult :=
  reline_bind fun value cursor => by
    rw [same]
    rfl

end Step

namespace Cursor

variable {number : Int → Int} {earlier : List Diagnostic}

/-- Nesting is the same on other lines. -/
theorem nested_reline
    {onValue : α → β}
    {body : Cursor → Step α}
    {relined : Cursor → Step β}
    (cursor : Cursor)
    (opening : Token)
    (same :
      ∀ inner,
        relined (inner.reline number earlier) =
          (body inner).reline number earlier onValue) :
    (cursor.reline number earlier).nested (opening.reline number) relined =
      (cursor.nested opening body).reline number earlier onValue := by
  have opens :
      (cursor.reline number earlier).enter (opening.reline number) =
        (cursor.enter opening).reline number earlier id := by
    unfold enter
    rw [show (cursor.reline number earlier).depth = cursor.depth from rfl]
    split <;> rfl
  unfold nested
  rw [opens]
  refine Step.reline_bind fun _ inner => ?_
  rw [same]
  cases body inner <;> rfl

end Cursor

namespace Expr

theorem join_relabel
    {change : Token → Token}
    (relabels : Relabels change)
    (left : Expr)
    (operator : Token)
    (right : Expr) :
    join (left.relabel change) (change operator) (right.relabel change) =
      (join left operator right).relabel change := by
  unfold join
  rw [relabels.kind]
  split <;> rw [Expr.relabel]

variable (number : Int → Int) (earlier : List Diagnostic)

theorem assignTo_reline
    (target : Expr)
    (equals : Token)
    (value : Expr)
    (cursor : Cursor) :
    assignTo (target.relabel (Token.reline number)) (equals.reline number)
        (value.relabel (Token.reline number)) (cursor.reline number earlier) =
      (assignTo target equals value cursor).reline number earlier
        (Expr.relabel (Token.reline number)) := by
  cases target <;>
    simp [assignTo, Expr.relabel, Step.reline]

theorem ofToken?_reline (token : Token) :
    ofToken? (token.reline number) =
      (ofToken? token).map (Expr.relabel (Token.reline number)) := by
  unfold ofToken?
  rw [show (token.reline number).kind = token.kind from rfl]
  split <;> simp [Expr.relabel, Token.reline]

theorem countArgument_reline
    (collected : List Expr)
    (cursor : Cursor) :
    countArgument (relabelAll (Token.reline number) collected)
        (cursor.reline number earlier) =
      (countArgument collected cursor).reline number earlier := by
  unfold countArgument
  rw [Grammar.length_relabelAll]
  split
  · rw [Cursor.peek_reline, Cursor.report_reline]
  · rfl

theorem relabelAll_eq_map
    (change : Token → Token)
    (exprs : List Expr) :
    relabelAll change exprs = exprs.map (relabel change) := by
  induction exprs with
  | nil =>
      rw [relabelAll, List.map_nil]
  | cons first rest inductionHypothesis =>
      rw [relabelAll, List.map_cons, inductionHypothesis]

namespace Parser

/-- The functions for expressions go the same way on other lines within a
bound. -/
structure Relines
    (number : Int → Int)
    (earlier : List Diagnostic)
    (fuel : Nat) :
    Prop where
  expression :
    ∀ cursor : Cursor,
      expression fuel (cursor.reline number earlier) =
        (expression fuel cursor).reline number earlier
          (relabel (Token.reline number))
  operation :
    ∀ (level : Nat) (cursor : Cursor),
      operation fuel level (cursor.reline number earlier) =
        (operation fuel level cursor).reline number earlier
          (relabel (Token.reline number))
  operators :
    ∀ (level : Nat) (left : Expr) (cursor : Cursor),
      operators fuel level (left.relabel (Token.reline number))
          (cursor.reline number earlier) =
        (operators fuel level left cursor).reline number earlier
          (relabel (Token.reline number))
  operand :
    ∀ cursor : Cursor,
      operand fuel (cursor.reline number earlier) =
        (operand fuel cursor).reline number earlier
          (relabel (Token.reline number))
  trailers :
    ∀ (callee : Expr) (cursor : Cursor),
      trailers fuel (callee.relabel (Token.reline number))
          (cursor.reline number earlier) =
        (trailers fuel callee cursor).reline number earlier
          (relabel (Token.reline number))
  arguments :
    ∀ (collected : List Expr) (cursor : Cursor),
      arguments fuel (relabelAll (Token.reline number) collected)
          (cursor.reline number earlier) =
        (arguments fuel collected cursor).reline number earlier
          (relabelAll (Token.reline number))
  primary :
    ∀ cursor : Cursor,
      primary fuel (cursor.reline number earlier) =
        (primary fuel cursor).reline number earlier
          (relabel (Token.reline number))

variable {number} {earlier} {fuel : Nat}

theorem relines_zero : Relines number earlier 0 where
  expression _ := by
    rw [expression, expression]
    rfl
  operation _ _ := by
    rw [operation, operation]
    rfl
  operators _ _ _ := by
    rw [operators, operators]
    rfl
  operand _ := by
    rw [operand, operand]
    rfl
  trailers _ _ := by
    rw [trailers, trailers]
    rfl
  arguments _ _ := by
    rw [arguments, arguments]
    rfl
  primary _ := by
    rw [primary, primary]
    rfl

theorem expression_reline
    (smaller : Relines number earlier fuel)
    (cursor : Cursor) :
    expression (fuel + 1) (cursor.reline number earlier) =
      (expression (fuel + 1) cursor).reline number earlier
        (relabel (Token.reline number)) := by
  rw [expression, expression, smaller.operation]
  refine Step.reline_bind fun target cursor => ?_
  rw [Cursor.accept?_reline]
  cases cursor.accept? .equal with
  | none =>
      rfl
  | some found =>
      rcases found with ⟨equals, cursor⟩
      show (expression fuel (cursor.reline number earlier)).bind _ = _
      rw [smaller.expression]
      exact Step.reline_bind fun value cursor =>
        assignTo_reline number earlier target equals value cursor

theorem operation_reline
    (smaller : Relines number earlier fuel)
    (level : Nat)
    (cursor : Cursor) :
    operation (fuel + 1) level (cursor.reline number earlier) =
      (operation (fuel + 1) level cursor).reline number earlier
        (relabel (Token.reline number)) := by
  rw [operation, operation, smaller.operand]
  exact Step.reline_bind fun left cursor =>
    smaller.operators level left cursor

theorem operators_reline
    (smaller : Relines number earlier fuel)
    (level : Nat)
    (left : Expr)
    (cursor : Cursor) :
    operators (fuel + 1) level (left.relabel (Token.reline number))
        (cursor.reline number earlier) =
      (operators (fuel + 1) level left cursor).reline number earlier
        (relabel (Token.reline number)) := by
  rcases cursor with ⟨_ | ⟨operator, rest⟩, ending, depth, reported⟩
  · rw [operators, operators]
    rfl
  · rw [operators, operators]
    simp only [Cursor.reline, List.map_cons]
    rw [show (operator.reline number).kind = operator.kind from rfl]
    cases operator.kind.precedence? with
    | none =>
        rfl
    | some precedence =>
        dsimp only
        split
        · rfl
        · have right :=
            smaller.operation (precedence + 1)
              { rest, ending, depth, reported }
          rw [Cursor.reline] at right
          rw [right]
          refine Step.reline_bind fun right cursor => ?_
          rw [join_relabel (Token.reline_relabels number), smaller.operators]

theorem operand_reline
    (smaller : Relines number earlier fuel)
    (cursor : Cursor) :
    operand (fuel + 1) (cursor.reline number earlier) =
      (operand (fuel + 1) cursor).reline number earlier
        (relabel (Token.reline number)) := by
  rw [operand, operand, Cursor.accept?_reline, Cursor.accept?_reline,
    ← Option.map_or]
  cases (cursor.accept? .bang).or (cursor.accept? .minus) with
  | none =>
      show (primary fuel (cursor.reline number earlier)).bind _ = _
      rw [smaller.primary]
      exact Step.reline_bind fun callee cursor =>
        smaller.trailers callee cursor
  | some found =>
      rcases found with ⟨operator, cursor⟩
      refine cursor.nested_reline operator fun inner => ?_
      rw [smaller.operand]
      exact Step.reline_map fun operand => by rw [Expr.relabel]

theorem trailers_reline
    (smaller : Relines number earlier fuel)
    (callee : Expr)
    (cursor : Cursor) :
    trailers (fuel + 1) (callee.relabel (Token.reline number))
        (cursor.reline number earlier) =
      (trailers (fuel + 1) callee cursor).reline number earlier
        (relabel (Token.reline number)) := by
  rw [trailers, trailers, Cursor.accept?_reline]
  cases cursor.accept? .leftParen with
  | some found =>
      rcases found with ⟨opening, cursor⟩
      simp only [Option.map_some, Prod.map, Cursor.accept?_reline]
      cases cursor.accept? .rightParen with
      | some found =>
          rcases found with ⟨closing, cursor⟩
          have later := smaller.trailers (.call callee closing []) cursor
          rw [Expr.relabel, relabelAll] at later
          exact later
      | none =>
          have inside := smaller.arguments [] cursor
          rw [relabelAll] at inside
          show (arguments fuel [] (cursor.reline number earlier)).bind _ = _
          rw [inside]
          refine Step.reline_bind fun arguments cursor => ?_
          rw [Cursor.expect_reline]
          refine Step.reline_bind fun closing cursor => ?_
          have later := smaller.trailers (.call callee closing arguments) cursor
          rw [Expr.relabel] at later
          exact later
  | none =>
      simp only [Option.map_none, Cursor.accept?_reline]
      cases cursor.accept? .dot with
      | some found =>
          rcases found with ⟨dot, cursor⟩
          show ((cursor.reline number earlier).expect _ _).bind _ = _
          rw [Cursor.expect_reline]
          refine Step.reline_bind fun name cursor => ?_
          have later := smaller.trailers (.property callee name) cursor
          rw [Expr.relabel] at later
          exact later
      | none =>
          rfl

theorem arguments_reline
    (smaller : Relines number earlier fuel)
    (collected : List Expr)
    (cursor : Cursor) :
    arguments (fuel + 1) (relabelAll (Token.reline number) collected)
        (cursor.reline number earlier) =
      (arguments (fuel + 1) collected cursor).reline number earlier
        (relabelAll (Token.reline number)) := by
  rw [arguments, arguments, countArgument_reline, smaller.expression]
  refine Step.reline_bind fun argument cursor => ?_
  rw [Cursor.accept?_reline]
  cases cursor.accept? .comma with
  | some found =>
      rcases found with ⟨comma, cursor⟩
      exact smaller.arguments (argument :: collected) cursor
  | none =>
      simp [Step.reline, relabelAll_eq_map]

theorem primary_reline
    (smaller : Relines number earlier fuel)
    (cursor : Cursor) :
    primary (fuel + 1) (cursor.reline number earlier) =
      (primary (fuel + 1) cursor).reline number earlier
        (relabel (Token.reline number)) := by
  rcases cursor with ⟨_ | ⟨token, rest⟩, ending, depth, reported⟩
  · rw [primary, primary]
    rfl
  · rw [primary, primary]
    simp only [Cursor.reline, List.map_cons]
    rw [ofToken?_reline]
    cases ofToken? token with
    | some expr =>
        rfl
    | none =>
        simp only [Option.map_none]
        rw [show (token.reline number).kind = token.kind from rfl]
        split
        · refine Cursor.nested_reline { rest, ending, depth, reported } token
            fun inner => ?_
          rw [smaller.expression]
          refine Step.reline_bind fun expr cursor => ?_
          rw [Cursor.expect_reline]
          exact Step.reline_map fun _ => by rw [Expr.relabel]
        · rfl

theorem relines
    (number : Int → Int)
    (earlier : List Diagnostic)
    (fuel : Nat) :
    Relines number earlier fuel := by
  induction fuel with
  | zero =>
      exact relines_zero
  | succ fuel smaller =>
      exact {
        expression := expression_reline smaller
        operation := operation_reline smaller
        operators := operators_reline smaller
        operand := operand_reline smaller
        trailers := trailers_reline smaller
        arguments := arguments_reline smaller
        primary := primary_reline smaller }

end Parser

/-- Parsing an expression goes the same way on other lines. -/
theorem parse_reline (cursor : Cursor) :
    parse (cursor.reline number earlier) =
      (parse cursor).reline number earlier
          (relabel (Token.reline number)) := by
  have length :
      (cursor.reline number earlier).rest.length = cursor.rest.length :=
    List.length_map _
  rw [parse, length]
  exact (Parser.relines number earlier _).expression cursor

end Expr

end Script
