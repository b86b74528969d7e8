import Script.Proofs.Slice.Total

namespace Script

/-!
# Missing closing braces

A block or the body of a class whose closing brace is missing is a problem at
the end of the input.  The parser counts well: as long as it has given up no
declaration, it misses a closing brace only if the input has more opening braces
than closing ones.  Behind a declaration that it gave up it may have skipped the
brace that it asks for.
-/

namespace Problem

/-- Whether the parser gives up the declaration that has the problem. -/
def isFatal : Problem → Bool
  | .invalidTarget =>
      false
  | .tooManyArguments =>
      false
  | .tooManyParameters =>
      false
  | _ =>
      true

/-- Whether the problem is that a closing brace is missing. -/
def missesBrace : Problem → Bool
  | .expected .blockEnd =>
      true
  | .expected .classEnd =>
      true
  | _ =>
      false

end Problem

/-- The first problem for which the parser gave up a declaration. -/
def Diagnostic.firstFatal? (problems : List Diagnostic) : Option Diagnostic :=
  problems.find? (·.problem.isFatal)

/-- What a token of some kind adds to the braces that are to be closed. -/
def TokenKind.opens : TokenKind → Int
  | .leftBrace =>
      1
  | .rightBrace =>
      -1
  | _ =>
      0

/-- How many more opening than closing braces there are before the first end of
the input. -/
def braceExcess : List Token → Int
  | [] =>
      0
  | token :: rest =>
      if token.kind = .endOfInput then
        0
      else
        token.kind.opens + braceExcess rest

/-- An end of the input behind everything adds no brace. -/
theorem braceExcess_append_ending
    (tokens : List Token)
    {ending : Token}
    (isEnd : ending.kind = .endOfInput) :
    braceExcess (tokens ++ [ending]) = braceExcess tokens := by
  induction tokens with
  | nil =>
      simp [braceExcess, isEnd]
  | cons token rest inductionHypothesis =>
      simp only [List.cons_append, braceExcess, inductionHypothesis]

namespace Slice

/-- How many more opening than closing braces are behind a place. -/
def Place.excess
    (tokens : List Token)
    (place : Place) :
    Int :=
  braceExcess (tokens.drop place.current)

/-- The first problem so far for which a declaration was given up. -/
def Place.fatal? (place : Place) : Option Diagnostic :=
  Diagnostic.firstFatal? place.reported.reverse

/-- A declaration has been given up, and not for a missing closing brace. -/
def Place.Spoiled (place : Place) : Prop :=
  ∃ first, place.fatal? = some first ∧ first.problem.missesBrace = false

/-- A place inside of `level` braces.  Until a declaration is given up, the
tokens behind the place close at least as many more braces than they open; and
the first declaration is not given up for a missing closing brace. -/
structure Place.Counts
    (tokens : List Token)
    (level : Nat)
    (place : Place) :
    Prop where
  clean : place.fatal? = none → place.excess tokens + level ≤ 0
  spoiled : place.fatal? ≠ none → place.Spoiled

/-- A run that goes on from a place with a property, or gives up for something
else than a missing closing brace. -/
def Ran.Reaches (property : Place → Prop) : Ran α → Prop
  | .done _ place =>
      property place
  | .failed place =>
      place.Spoiled
  | .outside =>
      True
  | .exhausted =>
      True

/-- A run that goes on inside of `level` braces. -/
abbrev Ran.Counts
    (tokens : List Token)
    (level : Nat)
    (ran : Ran α) :
    Prop :=
  ran.Reaches (Place.Counts tokens level)

variable {tokens : List Token} {level final : Nat} {place : Place}
  {property target : Place → Prop}

/-- Behind a spoiled place nothing is counted. -/
theorem Place.Spoiled.counts (spoiled : place.Spoiled) :
    place.Counts tokens level := by
  obtain ⟨first, found, other⟩ := spoiled
  exact ⟨fun clean => by simp [clean] at found, fun _ => ⟨first, found, other⟩⟩

/-- What one more problem does to the first fatal one. -/
theorem Place.fatal?_report
    (place : Place)
    (token : Token)
    (problem : Problem) :
    Place.fatal?
        { place with
          reported := .atToken token problem :: place.reported } =
      place.fatal?.or
        (if problem.isFatal then
          some (.atToken token problem)
        else
          none) := by
  cases fatal : problem.isFatal <;>
    simp [Place.fatal?, Diagnostic.firstFatal?, Diagnostic.atToken, fatal]

/-- The excess behind a token that is read. -/
theorem Place.excess_eq
    {token : Token}
    (there : tokens[place.current]? = some token)
    (notEnd : token.kind ≠ .endOfInput) :
    place.excess tokens =
      token.kind.opens + braceExcess (tokens.drop (place.current + 1)) := by
  obtain ⟨inside, rfl⟩ := List.getElem?_eq_some_iff.mp there
  rw [Place.excess, List.drop_eq_getElem_cons inside, braceExcess,
    if_neg notEnd]

/-- Nothing is behind the end of the input. -/
theorem Place.excess_eq_zero
    {token : Token}
    (there : tokens[place.current]? = some token)
    (isEnd : token.kind = .endOfInput) :
    place.excess tokens = 0 := by
  obtain ⟨inside, rfl⟩ := List.getElem?_eq_some_iff.mp there
  rw [Place.excess, List.drop_eq_getElem_cons inside, braceExcess, if_pos isEnd]

/-! Running one piece after another. -/

theorem Place.Counts.done
    (counts : place.Counts tokens level)
    (value : α) :
    (Ran.done value place).Counts tokens level :=
  counts

/-- One piece of the parser behind another one. -/
theorem Ran.Reaches.bind
    {first : Parser α}
    {next : α → Parser β}
    (here : (first tokens place).Reaches property)
    (later :
      ∀ value after,
        first tokens place = .done value after →
        property after →
        (next value tokens after).Reaches target) :
    ((first >>= next) tokens place).Reaches target := by
  rw [bind_apply]
  cases ran : first tokens place with
  | done value after =>
      rw [ran] at here
      exact later value after ran here
  | failed after =>
      rw [ran] at here
      exact here
  | outside | exhausted =>
      trivial

/-- Looking at the next token. -/
theorem peek_reaches
    {next : Token → Parser α}
    (later :
      ∀ token,
        tokens[place.current]? = some token →
        (next token tokens place).Reaches property) :
    ((peek >>= next) tokens place).Reaches property := by
  rw [bind_apply, peek, look]
  cases there : tokens[place.current]? with
  | none =>
      trivial
  | some token =>
      exact later token there

theorem check_of_there
    {token : Token}
    (there : tokens[place.current]? = some token)
    (kind : TokenKind) :
    check kind tokens place = .done (token.kind == kind) place := by
  rw [check, bind_apply, peek, look, there]
  rfl

/-- Asking for the kind of the next token. -/
theorem check_reaches
    {next : Bool → Parser α}
    {kind : TokenKind}
    (yes :
      ∀ token,
        tokens[place.current]? = some token →
        token.kind = kind →
        (next true tokens place).Reaches property)
    (no :
      ∀ token,
        tokens[place.current]? = some token →
        token.kind ≠ kind →
        (next false tokens place).Reaches property) :
    ((check kind >>= next) tokens place).Reaches property := by
  cases there : tokens[place.current]? with
  | none =>
      rw [bind_apply, check, bind_apply, peek, look, there]
      trivial
  | some token =>
      rw [bind_of_done _ (check_of_there there kind)]
      by_cases same : token.kind = kind
      · simpa only [same, beq_self_eq_true] using yes token there same
      · have differs : (token.kind == kind) = false := by simpa using same
        simpa only [differs] using no token there same

/-- Looking back at the token just read. -/
theorem previous_reaches (here : property place) :
    (previous tokens place).Reaches property := by
  unfold previous look
  split
  · trivial
  · split
    · exact here
    · trivial

theorem bind_bind
    (first : Parser α)
    (next : α → Parser β)
    (last : β → Parser γ) :
    (first >>= next >>= last) tokens place =
      (first >>= fun value => next value >>= last) tokens place := by
  simp only [bind_apply]
  cases first tokens place <;> rfl

namespace Place.Counts

/-- Behind a token that is read one brace more or less is open. -/
theorem skip
    {token : Token}
    (counts : place.Counts tokens level)
    (there : tokens[place.current]? = some token)
    (notEnd : token.kind ≠ .endOfInput)
    (levels : (level : Int) + token.kind.opens = final) :
    Place.Counts tokens final { place with current := place.current + 1 } := by
  refine ⟨fun clean => ?_, counts.spoiled⟩
  have bounded := counts.clean clean
  rw [Place.excess_eq there notEnd] at bounded
  show braceExcess (tokens.drop (place.current + 1)) + (final : Int) ≤ 0
  omega

/-- Going on by a token. -/
theorem advance
    {token : Token}
    (counts : place.Counts tokens level)
    (there : tokens[place.current]? = some token)
    (levels : (level : Int) + token.kind.opens = final) :
    (Slice.advance tokens place).Counts tokens final := by
  unfold Slice.advance atEnd
  refine check_reaches (fun same isThere isEnd => ?_) (fun same isThere notEnd => ?_)
  · rw [there, Option.some.injEq] at isThere
    obtain rfl := isThere
    rw [isEnd, show TokenKind.endOfInput.opens = 0 from rfl] at levels
    obtain rfl : level = final := by omega
    exact previous_reaches counts
  · rw [there, Option.some.injEq] at isThere
    obtain rfl := isThere
    exact previous_reaches (counts.skip there notEnd levels)

/-- Going on by a token that is no brace. -/
theorem advance_bind
    {next : Token → Parser α}
    {token : Token}
    (counts : place.Counts tokens level)
    (there : tokens[place.current]? = some token)
    (plain : token.kind.opens = 0)
    (later :
      ∀ token after,
        after.Counts tokens level →
        (next token tokens after).Counts tokens final) :
    ((Slice.advance >>= next) tokens place).Counts tokens final :=
  (counts.advance there (by simp [plain])).bind
    fun token after _ counts => later token after counts

/-- Reading a token that is no brace if it is there. -/
theorem accept_bind
    {next : Bool → Parser α}
    {kind : TokenKind}
    (counts : place.Counts tokens level)
    (plain : kind.opens = 0)
    (yes :
      ∀ after,
        after.Counts tokens level →
        (next true tokens after).Counts tokens final)
    (no : (next false tokens place).Counts tokens final) :
    ((Slice.accept kind >>= next) tokens place).Counts tokens final := by
  unfold Slice.accept
  rw [bind_bind]
  refine check_reaches (fun token there same => ?_) (fun _ _ _ => no)
  rw [if_pos rfl, bind_bind]
  exact counts.advance_bind there (same ▸ plain) fun _ after counts =>
    yes after counts

/-- A problem for which nothing is given up. -/
theorem report
    {problem : Problem}
    (counts : place.Counts tokens level)
    (token : Token)
    (mild : problem.isFatal = false) :
    (Slice.report token problem tokens place).Counts tokens level := by
  have same := place.fatal?_report token problem
  rw [mild] at same
  simp only [Bool.false_eq_true, if_false, Option.or_none] at same
  refine ⟨fun clean => counts.clean (same ▸ clean), fun found => ?_⟩
  obtain ⟨first, isFirst, other⟩ := counts.spoiled (same ▸ found)
  exact ⟨first, same.trans isFirst, other⟩

/-- Giving up, for a missing closing brace only when something else was given
up before. -/
theorem fail
    {problem : Problem}
    (counts : place.Counts tokens level)
    (token : Token)
    (fatal : problem.isFatal = true)
    (excused : problem.missesBrace = true → place.fatal? ≠ none) :
    (Slice.fail token problem tokens place : Ran α).Counts tokens final := by
  have grown := place.fatal?_report token problem
  rw [fatal] at grown
  simp only [if_true] at grown
  show Place.Spoiled _
  cases found : place.fatal? with
  | none =>
      rw [found, Option.none_or] at grown
      refine ⟨_, grown, ?_⟩
      by_contra misses
      exact excused (by simpa [Diagnostic.atToken] using misses) found
  | some first =>
      obtain ⟨same, isFirst, other⟩ := counts.spoiled (by simp [found])
      rw [isFirst, Option.some_or] at grown
      exact ⟨same, grown, other⟩

/-- Reading a token that has to be there and is no closing brace. -/
theorem expect_bind
    {next : Token → Parser α}
    {kind : TokenKind}
    {what : Expectation}
    {inner : Nat}
    (counts : place.Counts tokens level)
    (levels : (level : Int) + kind.opens = inner)
    (other : (Problem.expected what).missesBrace = false)
    (later :
      ∀ token after,
        after.Counts tokens inner →
        (next token tokens after).Counts tokens final) :
    ((Slice.expect kind what >>= next) tokens place).Counts tokens final := by
  have read : (Slice.expect kind what tokens place).Counts tokens inner := by
    unfold Slice.expect
    refine check_reaches (fun token there same => ?_)
      (fun token there differs => ?_)
    · exact counts.advance there (same ▸ levels)
    · exact peek_reaches fun token there =>
        counts.fail token rfl (by simp [other])
  exact read.bind fun token after _ counts => later token after counts

/-- Reading the closing brace of a list of declarations that ended. -/
theorem expectBrace
    {what : Expectation}
    {token : Token}
    (counts : place.Counts tokens (level + 1))
    (there : tokens[place.current]? = some token)
    (ends : token.kind = .endOfInput ∨ token.kind = .rightBrace) :
    (Slice.expect .rightBrace what tokens place).Counts tokens level := by
  unfold Slice.expect
  refine check_reaches (fun same isThere isBrace => ?_)
    (fun same isThere notBrace => ?_)
  · exact counts.advance isThere (by
      rw [isBrace, TokenKind.opens]
      omega)
  · rw [there, Option.some.injEq] at isThere
    obtain rfl := isThere
    have isEnd := ends.resolve_right notBrace
    refine peek_reaches fun token _ => counts.fail token rfl fun _ clean => ?_
    -- The braces that are open would have to be closed behind the end.
    have bounded := counts.clean clean
    rw [Place.excess_eq_zero there isEnd] at bounded
    omega

/-- What happens in a construct counts outside of it. -/
theorem nested
    {body : Parser α}
    (counts : place.Counts tokens level)
    (inside :
      ∀ after : Place,
        after.Counts tokens level →
        (body tokens after).Counts tokens final) :
    (Slice.nested body tokens place).Counts tokens final := by
  unfold Slice.nested
  split
  · have ended :=
      inside place.enter ⟨fun clean => counts.clean clean,
        fun found => counts.spoiled found⟩
    cases ran : body tokens place.enter with
    | done value after =>
        rw [ran] at ended
        exact ⟨fun clean => ended.clean clean, fun found => ended.spoiled found⟩
    | failed after =>
        rw [ran] at ended
        exact ended
    | outside | exhausted =>
        trivial
  · exact (previous_reaches counts).bind fun token after _ counts =>
      counts.fail token rfl (by simp [Problem.missesBrace])

theorem count
    {collected : List α}
    {problem : Problem}
    (counts : place.Counts tokens level)
    (mild : problem.isFatal = false) :
    (Slice.count collected problem tokens place).Counts tokens level := by
  unfold Slice.count
  split
  · exact peek_reaches fun token _ => counts.report token mild
  · exact counts.done ()

theorem assignTo
    (counts : place.Counts tokens level)
    (target : Expr)
    (equals : Token)
    (value : Expr) :
    (Slice.assignTo target equals value tokens place).Counts tokens level := by
  have refused :
      ((Slice.report equals .invalidTarget >>= fun _ => pure value)
          tokens place).Counts tokens level :=
    (counts.report equals rfl).bind fun _ _ _ counts => counts.done value
  cases target with
  | reference | property =>
      exact counts.done _
  | _ =>
      exact refused

end Place.Counts

/-! Expressions. -/

theorem opens_of_precedence
    {kind : TokenKind}
    {precedence : Nat}
    (operator : kind.precedence? = some precedence) :
    kind.opens = 0 := by
  cases kind <;> first | rfl | simp [TokenKind.precedence?] at operator

theorem opens_of_ofToken?
    {token : Token}
    {expr : Expr}
    (single : Expr.ofToken? token = some expr) :
    token.kind.opens = 0 := by
  unfold Expr.ofToken? at single
  cases kind : token.kind <;> first | rfl | simp [kind] at single

/-- A piece that leaves as many braces open as it finds. -/
def Even
    (tokens : List Token)
    (piece : Parser α) :
    Prop :=
  ∀ (level : Nat) (place : Place),
    place.Counts tokens level →
    (piece tokens place).Counts tokens level

theorem stop_even : Even tokens (stop : Parser α) :=
  fun _ _ _ => trivial

/-- The functions for expressions read no brace. -/
structure ExprEven
    (tokens : List Token)
    (fuel : Nat) :
    Prop where
  expression : Even tokens (expression fuel)
  operation : ∀ level, Even tokens (operation fuel level)
  operators : ∀ level left, Even tokens (operators fuel level left)
  operand : Even tokens (operand fuel)
  trailers : ∀ callee, Even tokens (trailers fuel callee)
  arguments : ∀ collected, Even tokens (arguments fuel collected)
  primary : Even tokens (primary fuel)

section Expressions

variable {fuel : Nat}

theorem expression_even (smaller : ExprEven tokens fuel) :
    Even tokens (expression (fuel + 1)) := by
  intro level place counts
  rw [expression]
  refine (smaller.operation 0 level place counts).bind
    fun target after _ counts => ?_
  refine counts.accept_bind rfl (fun after counts => ?_) (counts.done target)
  refine (previous_reaches counts).bind fun equals after _ counts => ?_
  exact (smaller.expression level after counts).bind fun value after _ counts =>
    counts.assignTo target equals value

theorem operators_even
    (smaller : ExprEven tokens fuel)
    (least : Nat)
    (left : Expr) :
    Even tokens (operators (fuel + 1) least left) := by
  intro level place counts
  rw [operators]
  refine peek_reaches fun token there => ?_
  cases found : token.kind.precedence? with
  | none =>
      exact counts.done left
  | some precedence =>
      dsimp only
      split
      · exact counts.done left
      · refine counts.advance_bind there
          (opens_of_precedence found) fun operator after counts => ?_
        exact (smaller.operation (precedence + 1) level after counts).bind
          fun right after _ counts =>
            smaller.operators least (.join left operator right) level after
              counts

theorem operand_even (smaller : ExprEven tokens fuel) :
    Even tokens (operand (fuel + 1)) := by
  intro level place counts
  rw [operand]
  refine peek_reaches fun token there => ?_
  by_cases isUnary : token.kind = .bang ∨ token.kind = .minus
  · have plain : token.kind.opens = 0 := by
      rcases isUnary with bang | minus
      · rw [bang]
        rfl
      · rw [minus]
        rfl
    rw [if_pos isUnary]
    refine counts.advance_bind there plain fun operator after counts => ?_
    exact counts.nested fun after counts =>
      (smaller.operand level after counts).bind fun _ _ _ counts =>
        counts.done _
  · rw [if_neg isUnary]
    exact (smaller.primary level place counts).bind
      fun callee after _ counts => smaller.trailers callee level after counts

theorem trailers_even
    (smaller : ExprEven tokens fuel)
    (callee : Expr) :
    Even tokens (trailers (fuel + 1) callee) := by
  intro level place counts
  rw [trailers]
  refine counts.accept_bind rfl (fun after counts => ?_) ?_
  · refine check_reaches (fun _ _ _ => ?_) (fun _ _ _ => ?_)
    · exact counts.expect_bind (Int.add_zero _) rfl fun closing after counts =>
        smaller.trailers (.call callee closing []) level after counts
    · refine (smaller.arguments [] level after counts).bind
        fun arguments after _ counts => ?_
      exact counts.expect_bind (Int.add_zero _) rfl fun closing after counts =>
        smaller.trailers (.call callee closing arguments) level after counts
  · refine counts.accept_bind rfl (fun after counts => ?_)
      (counts.done callee)
    exact counts.expect_bind (Int.add_zero _) rfl fun name after counts =>
      smaller.trailers (.property callee name) level after counts

theorem arguments_even
    (smaller : ExprEven tokens fuel)
    (collected : List Expr) :
    Even tokens (arguments (fuel + 1) collected) := by
  intro level place counts
  rw [arguments]
  refine (counts.count rfl).bind fun _ after _ counts => ?_
  refine (smaller.expression level after counts).bind
    fun argument after _ counts => ?_
  exact counts.accept_bind rfl
    (fun after counts =>
      smaller.arguments (argument :: collected) level after counts)
    (counts.done _)

theorem primary_even (smaller : ExprEven tokens fuel) :
    Even tokens (primary (fuel + 1)) := by
  intro level place counts
  rw [primary]
  refine peek_reaches fun token there => ?_
  cases single : Expr.ofToken? token with
  | some expr =>
      exact counts.advance_bind there (opens_of_ofToken? single)
        fun _ after counts => counts.done expr
  | none =>
      dsimp only
      split
      · rename_i opening
        have plain : token.kind.opens = 0 := by
          rw [opening]
          rfl
        refine counts.advance_bind there plain fun _ after counts => ?_
        refine counts.nested fun after counts => ?_
        refine (smaller.expression level after counts).bind
          fun inner after _ counts => ?_
        exact counts.expect_bind (Int.add_zero _) rfl fun _ after counts =>
          counts.done _
      · exact counts.fail token rfl (by simp [Problem.missesBrace])

end Expressions

theorem exprEven
    (tokens : List Token)
    (fuel : Nat) :
    ExprEven tokens fuel := by
  induction fuel with
  | zero =>
      constructor <;> intros <;> exact stop_even
  | succ fuel smaller =>
      exact {
        expression := expression_even smaller
        operation := fun least level place counts =>
          (smaller.operand level place counts).bind fun left after _ counts =>
            smaller.operators least left level after counts
        operators := operators_even smaller
        operand := operand_even smaller
        trailers := trailers_even smaller
        arguments := arguments_even smaller
        primary := primary_even smaller }

/-! Clauses of statements. -/

theorem optionalExpr_even
    (fuel : Nat)
    (ending : TokenKind) :
    Even tokens (optionalExpr fuel ending) := by
  intro level place counts
  refine check_reaches (fun _ _ _ => counts.done none) (fun _ _ _ => ?_)
  exact ((exprEven tokens fuel).expression level place counts).bind
    fun value after _ counts => counts.done (some value)

theorem terminated_even
    {what : Expectation}
    (fuel : Nat)
    (other : (Problem.expected what).missesBrace = false)
    (make : Expr → Stmt) :
    Even tokens (terminated fuel what make) := by
  intro level place counts
  refine ((exprEven tokens fuel).expression level place counts).bind
    fun value after _ counts => ?_
  exact counts.expect_bind (Int.add_zero _) other fun _ after counts =>
    counts.done (make value)

theorem returnStatement_even
    (fuel : Nat)
    (keyword : Token) :
    Even tokens (returnStatement fuel keyword) := by
  intro level place counts
  refine (optionalExpr_even fuel .semicolon level place counts).bind
    fun value after _ counts => ?_
  exact counts.expect_bind (Int.add_zero _) rfl fun _ after counts =>
    counts.done _

theorem variableDeclaration_even (fuel : Nat) :
    Even tokens (variableDeclaration fuel) := by
  intro level place counts
  refine counts.expect_bind (Int.add_zero _) rfl fun name after counts => ?_
  refine counts.accept_bind rfl (fun after counts => ?_) ?_
  · refine ((exprEven tokens fuel).expression level after counts).bind
      fun initial after _ counts => ?_
    exact counts.expect_bind (Int.add_zero _) rfl fun _ after counts =>
      counts.done _
  · exact counts.expect_bind (Int.add_zero _) rfl fun _ after counts =>
      counts.done _

theorem parameterNames_even
    (fuel : Nat)
    (collected : List Token) :
    Even tokens (parameterNames fuel collected) := by
  induction fuel generalizing collected with
  | zero =>
      exact stop_even
  | succ fuel inductionHypothesis =>
      intro level place counts
      rw [parameterNames]
      refine (counts.count rfl).bind fun _ after _ counts => ?_
      refine counts.expect_bind (Int.add_zero _) rfl
        fun parameter after counts => ?_
      exact counts.accept_bind rfl
        (fun after counts =>
          inductionHypothesis (parameter :: collected) level after counts)
        (counts.done _)

theorem functionHead_even
    (fuel : Nat)
    (form : FunctionForm) :
    Even tokens (functionHead fuel form) := by
  intro level place counts
  refine counts.expect_bind (Int.add_zero _) rfl fun name after counts => ?_
  refine counts.expect_bind (Int.add_zero _) rfl fun _ after counts => ?_
  have read : (parameters fuel tokens after).Counts tokens level :=
    check_reaches (fun _ _ _ => counts.done [])
      (fun _ _ _ => parameterNames_even fuel [] level after counts)
  refine read.bind fun parameters after _ counts => ?_
  exact counts.expect_bind (Int.add_zero _) rfl fun _ after counts =>
    counts.done (name, parameters)

theorem initialClause_even (fuel : Nat) :
    Even tokens (initialClause fuel) := by
  intro level place counts
  refine counts.accept_bind rfl (fun after counts => counts.done none) ?_
  refine counts.accept_bind rfl (fun after counts => ?_) ?_
  · exact (variableDeclaration_even fuel level after counts).bind
      fun statement after _ counts => counts.done (some statement)
  · exact (terminated_even fuel rfl .expression level place counts).bind
      fun statement after _ counts => counts.done (some statement)

theorem forClauses_even (fuel : Nat) :
    Even tokens (forClauses fuel) := by
  intro level place counts
  refine counts.expect_bind (Int.add_zero _) rfl fun _ after counts => ?_
  refine (initialClause_even fuel level after counts).bind
    fun initial after _ counts => ?_
  refine (optionalExpr_even fuel .semicolon level after counts).bind
    fun condition after _ counts => ?_
  refine counts.expect_bind (Int.add_zero _) rfl fun _ after counts => ?_
  refine (optionalExpr_even fuel .rightParen level after counts).bind
    fun increment after _ counts => ?_
  exact counts.expect_bind (Int.add_zero _) rfl fun _ after counts =>
    counts.done _

theorem condition_even
    {start ending : Expectation}
    (fuel : Nat)
    (otherStart : (Problem.expected start).missesBrace = false)
    (otherEnding : (Problem.expected ending).missesBrace = false) :
    Even tokens (condition fuel start ending) := by
  intro level place counts
  refine counts.expect_bind (Int.add_zero _) otherStart fun _ after counts => ?_
  refine ((exprEven tokens fuel).expression level after counts).bind
    fun condition after _ counts => ?_
  exact counts.expect_bind (Int.add_zero _) otherEnding fun _ after counts =>
    counts.done condition

/-! Where a list of declarations ends. -/

/-- The next token closes a list of declarations in braces. -/
def Place.AtClosing
    (tokens : List Token)
    (place : Place) :
    Prop :=
  ∃ token,
    tokens[place.current]? = some token ∧
      (token.kind = .endOfInput ∨ token.kind = .rightBrace)

/-- Asking whether a list of declarations ends. -/
theorem endsBody_reaches
    {next : Bool → Parser α}
    {inBlock : Bool}
    (yes :
      (inBlock = true → place.AtClosing tokens) →
      (next true tokens place).Reaches property)
    (no : (next false tokens place).Reaches property) :
    ((endsBody inBlock >>= next) tokens place).Reaches property := by
  unfold endsBody atEnd
  rw [bind_bind]
  refine check_reaches (fun token there isEnd => ?_) (fun _ _ _ => ?_)
  · exact yes fun _ => ⟨token, there, .inl isEnd⟩
  · cases inBlock with
    | false =>
        exact no
    | true =>
        exact check_reaches
          (fun token there closes => yes fun _ => ⟨token, there, .inr closes⟩)
          (fun _ _ _ => no)

/-! Recovering from a failure. -/

/-- Going on after a failure. -/
theorem attempt_reaches
    {piece : Parser α}
    {next : Option α → Parser β}
    (here : (piece tokens place).Reaches property)
    (some :
      ∀ value after,
        property after →
        (next (some value) tokens after).Reaches target)
    (none :
      ∀ after : Place,
        after.Spoiled →
        (next none tokens after).Reaches target) :
    ((attempt piece >>= next) tokens place).Reaches target := by
  rw [bind_apply, attempt]
  cases ran : piece tokens place with
  | done value after =>
      rw [ran] at here
      exact some value after here
  | failed after =>
      rw [ran] at here
      exact none after here
  | outside | exhausted =>
      trivial

theorem advance_spoiled (spoiled : place.Spoiled) :
    (advance tokens place).Reaches Place.Spoiled :=
  check_reaches (fun _ _ _ => previous_reaches spoiled) fun _ _ _ =>
    show (previous tokens { place with current := place.current + 1 }).Reaches
      Place.Spoiled from previous_reaches spoiled

/-- Looking for the next statement reports nothing. -/
theorem findStatement_spoiled
    (fuel : Nat)
    (spoiled : place.Spoiled) :
    (findStatement fuel tokens place).Reaches Place.Spoiled := by
  induction fuel generalizing place with
  | zero =>
      trivial
  | succ fuel inductionHypothesis =>
      rw [findStatement]
      refine check_reaches (fun _ _ _ => spoiled) (fun _ _ _ => ?_)
      refine (previous_reaches spoiled).bind fun token after _ spoiled => ?_
      split
      · exact spoiled
      · refine peek_reaches fun next _ => ?_
        split
        · exact spoiled
        · exact (advance_spoiled spoiled).bind fun _ after _ spoiled =>
            inductionHypothesis spoiled

theorem synchronize_spoiled
    (fuel : Nat)
    (spoiled : place.Spoiled) :
    (synchronize fuel tokens place).Reaches Place.Spoiled :=
  (advance_spoiled spoiled).bind fun _ _ _ spoiled =>
    findStatement_spoiled fuel spoiled

/-! Statements. -/

/-- A place inside of `level` braces where a list of declarations ends; inside of
a block or of the body of a class the next token shows it. -/
structure Place.Closes
    (tokens : List Token)
    (level : Nat)
    (inBlock : Bool)
    (place : Place) :
    Prop where
  counts : place.Counts tokens level
  closing : inBlock = true → place.AtClosing tokens

/-- The functions for statements close the braces that they open. -/
structure StmtEven
    (tokens : List Token)
    (fuel : Nat) :
    Prop where
  declaration : Even tokens (declaration fuel)
  statement : Even tokens (statement fuel)
  block :
    ∀ (level : Nat) (place : Place),
      place.Counts tokens (level + 1) →
      (block fuel tokens place).Counts tokens level
  declarations :
    ∀ inBlock collected (level : Nat) (place : Place),
      place.Counts tokens level →
      (declarations fuel inBlock collected tokens place).Reaches
        (Place.Closes tokens level inBlock)
  function : ∀ form, Even tokens (function fuel form)
  classDeclaration : Even tokens (classDeclaration fuel)
  methods :
    ∀ collected (level : Nat) (place : Place),
      place.Counts tokens level →
      (methods fuel collected tokens place).Reaches
        (Place.Closes tokens level true)

section Statements

variable {fuel : Nat}

theorem declaration_even (smaller : StmtEven tokens fuel) :
    Even tokens (declaration (fuel + 1)) := by
  intro level place counts
  have whole := smaller.statement level place counts
  rw [declaration]
  refine peek_reaches fun token there => ?_
  cases kind : token.kind with
  | keyword word =>
      have plain : token.kind.opens = 0 := by
        rw [kind]
        rfl
      cases word with
      | classWord =>
          exact counts.advance_bind there plain fun _ after counts =>
            smaller.classDeclaration level after counts
      | funWord =>
          refine counts.advance_bind there plain fun _ after counts => ?_
          exact (smaller.function .function level after counts).bind
            fun function after _ counts => counts.done _
      | varWord =>
          exact counts.advance_bind there plain fun _ after counts =>
            variableDeclaration_even fuel level after counts
      | _ =>
          exact whole
  | _ =>
      exact whole

theorem statement_even (smaller : StmtEven tokens fuel) :
    Even tokens (statement (fuel + 1)) := by
  intro level place counts
  have whole :
      (terminated fuel .expressionEnd .expression tokens place).Counts tokens
        level :=
    terminated_even fuel rfl .expression level place counts
  rw [statement]
  refine peek_reaches fun token there => ?_
  cases kind : token.kind with
  | keyword word =>
      have plain : token.kind.opens = 0 := by
        rw [kind]
        rfl
      cases word with
      | forWord =>
          refine counts.advance_bind there plain fun _ after counts => ?_
          refine (forClauses_even fuel level after counts).bind
            fun clauses after _ counts => ?_
          exact (smaller.statement level after counts).bind
            fun body after _ counts => counts.done (clauses.unfold body)
      | ifWord =>
          refine counts.advance_bind there plain fun _ after counts => ?_
          refine (condition_even fuel rfl rfl level after counts).bind
            fun condition after _ counts => ?_
          refine (smaller.statement level after counts).bind
            fun consequent after _ counts => ?_
          refine counts.accept_bind rfl (fun after counts => ?_)
            (counts.done _)
          exact (smaller.statement level after counts).bind
            fun alternative after _ counts => counts.done _
      | printWord =>
          exact counts.advance_bind there plain fun _ after counts =>
            terminated_even fuel rfl .print level after counts
      | returnWord =>
          exact counts.advance_bind there plain fun keyword after counts =>
            returnStatement_even fuel keyword level after counts
      | whileWord =>
          refine counts.advance_bind there plain fun _ after counts => ?_
          refine (condition_even fuel rfl rfl level after counts).bind
            fun condition after _ counts => ?_
          exact (smaller.statement level after counts).bind
            fun body after _ counts => counts.done _
      | _ =>
          exact whole
  | leftBrace =>
      have opened : (advance tokens place).Counts tokens (level + 1) :=
        counts.advance there (by rw [kind]; rfl)
      refine opened.bind fun _ after _ counts => ?_
      exact (smaller.block level after counts).bind fun body after _ counts =>
        counts.done (Stmt.block body)
  | _ =>
      exact whole

theorem block_counts
    (smaller : StmtEven tokens fuel)
    (level : Nat)
    (place : Place)
    (counts : place.Counts tokens (level + 1)) :
    (block (fuel + 1) tokens place).Counts tokens level := by
  rw [block]
  refine counts.nested fun after counts => ?_
  refine (smaller.declarations true [] (level + 1) after counts).bind
    fun statements after _ closes => ?_
  obtain ⟨token, there, ends⟩ := closes.closing rfl
  exact (closes.counts.expectBrace there ends).bind fun _ after _ counts =>
    counts.done statements

theorem declarations_counts
    (smaller : StmtEven tokens fuel)
    (inBlock : Bool)
    (collected : List Stmt)
    (level : Nat)
    (place : Place)
    (counts : place.Counts tokens level) :
    (declarations (fuel + 1) inBlock collected tokens place).Reaches
      (Place.Closes tokens level inBlock) := by
  rw [declarations]
  refine endsBody_reaches (fun closing => ⟨counts, closing⟩) ?_
  refine attempt_reaches (smaller.declaration level place counts)
    (fun statement after counts => ?_) (fun after spoiled => ?_)
  · exact smaller.declarations inBlock (statement :: collected) level after
      counts
  · exact (synchronize_spoiled fuel spoiled).bind fun _ after _ spoiled =>
      smaller.declarations inBlock collected level after spoiled.counts

theorem function_even
    (smaller : StmtEven tokens fuel)
    (form : FunctionForm) :
    Even tokens (function (fuel + 1) form) := by
  intro level place counts
  rw [function]
  refine (functionHead_even fuel form level place counts).bind
    fun head after _ counts => ?_
  refine counts.expect_bind rfl rfl fun _ after counts => ?_
  exact (smaller.block level after counts).bind fun body after _ counts =>
    counts.done _

theorem classDeclaration_even (smaller : StmtEven tokens fuel) :
    Even tokens (classDeclaration (fuel + 1)) := by
  intro level place counts
  rw [classDeclaration]
  refine counts.expect_bind (Int.add_zero _) rfl fun name after counts => ?_
  refine counts.expect_bind rfl rfl fun _ after counts => ?_
  refine (smaller.methods [] (level + 1) after counts).bind
    fun methods after _ closes => ?_
  obtain ⟨token, there, ends⟩ := closes.closing rfl
  exact (closes.counts.expectBrace there ends).bind fun _ after _ counts =>
    counts.done _

theorem methods_counts
    (smaller : StmtEven tokens fuel)
    (collected : List FunctionDecl)
    (level : Nat)
    (place : Place)
    (counts : place.Counts tokens level) :
    (methods (fuel + 1) collected tokens place).Reaches
      (Place.Closes tokens level true) := by
  rw [methods]
  refine endsBody_reaches (fun closing => ⟨counts, closing⟩) ?_
  exact (smaller.function .method level place counts).bind
    fun method after _ counts =>
      smaller.methods (method :: collected) level after counts

end Statements

theorem stmtEven
    (tokens : List Token)
    (fuel : Nat) :
    StmtEven tokens fuel := by
  induction fuel with
  | zero =>
      constructor <;> intros <;> first | exact stop_even | trivial
  | succ fuel smaller =>
      exact {
        declaration := declaration_even smaller
        statement := statement_even smaller
        block := block_counts smaller
        declarations := declarations_counts smaller
        function := function_even smaller
        classDeclaration := classDeclaration_even smaller
        methods := methods_counts smaller }

/-- Closing a slice adds no brace. -/
theorem braceExcess_closed (tokens : List Token) :
    braceExcess (closed tokens) = braceExcess tokens := by
  obtain ⟨same, -⟩ | added := closed_eq tokens
  · rw [same]
  · rw [added, braceExcess_append_ending tokens rfl]

end Slice

namespace Program

/-- As long as no declaration has been given up, every block and every body of a
class ends at its own closing brace: when there are not more opening than
closing braces, the first problem for which the parser gives up a declaration is
not that a closing brace is missing. -/
theorem ofTokens_braces
    {tokens : List Token}
    {first : Diagnostic}
    (enough : braceExcess tokens ≤ 0)
    (found : Diagnostic.firstFatal? (ofTokens tokens).problems = some first) :
    first.problem.missesBrace = false := by
  obtain ⟨place, parsed, problems, -⟩ :=
    @Slice.parse_done tokens _ le_rfl
  have counts :
      Slice.Place.Counts (Slice.closed tokens) 0
        { current := 0, depth := 0, reported := [] } := by
    refine ⟨fun _ => ?_, fun spoiled => (spoiled rfl).elim⟩
    rw [Slice.Place.excess, List.drop_zero, Slice.braceExcess_closed]
    simpa using enough
  have ended :=
    (Slice.stmtEven (Slice.closed tokens) (6 * tokens.length + 7)).declarations
      false [] 0 _ counts
  rw [← Slice.parse, parsed] at ended
  rw [← problems] at found
  obtain ⟨same, isFirst, other⟩ :=
    ended.counts.spoiled (ne_of_eq_of_ne found (Option.some_ne_none first))
  rw [Slice.Place.fatal?, found, Option.some.injEq] at isFirst
  exact isFirst ▸ other

/-- A block with a statement whose semicolon is missing. -/
def brokenBlock : List Token :=
  Grammar.tokensOf
    [.leftBrace, .keyword .printWord, .number, .rightBrace]

/-- What is wrong with the broken block: its brace stands where the semicolon
should be. -/
def brokenBlockProblem : Diagnostic where
  line := 1
  place := .atLexeme []
  problem := .expected .printEnd

theorem ofTokens_braces_brokenBlock :
    braceExcess brokenBlock ≤ 0 ∧
      Diagnostic.firstFatal? (ofTokens brokenBlock).problems =
        some brokenBlockProblem ∧
      brokenBlockProblem.problem.missesBrace = false := by
  have enough : braceExcess brokenBlock ≤ 0 := by decide +kernel
  have found :
      Diagnostic.firstFatal? (ofTokens brokenBlock).problems =
        some brokenBlockProblem := by
    decide +kernel
  exact ⟨enough, found, ofTokens_braces enough found⟩

/-- Recovery does not keep the closing brace of a block: in a broken block the
brace at which a statement fails is skipped, and is missing at the end. -/
theorem not_keeps_closing_brace :
    ¬ ∀ tokens : List Token,
        (∀ front, front <+: tokens → 0 ≤ braceExcess front) →
        braceExcess tokens = 0 →
        ∀ problem ∈ (ofTokens tokens).problems,
          problem.problem ≠ .expected .blockEnd := by
  intro keeps
  have missed :
      Diagnostic.atToken (.endAt 1) (.expected .blockEnd) ∈
        (ofTokens brokenBlock).problems := by
    decide +kernel
  have balanced : ∀ front ∈ brokenBlock.inits, 0 ≤ braceExcess front := by
    decide +kernel
  exact keeps brokenBlock
    (fun front isFront => balanced front ((List.mem_inits _ _).mpr isFront))
    (by decide +kernel) _ missed rfl

end Program

end Script
