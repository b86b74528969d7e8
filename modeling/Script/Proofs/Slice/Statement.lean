import Script.Proofs.Slice.Expression

namespace Script.Slice

/-!
# Statements in a slice

The functions for statements come to what the functions on cursors come to, and
so does recovery.  Recovery looks at the token just read even at the end of the
input; there is one, as long as the slice does not begin with its end.
-/

variable {tokens : List Token} {fuel bound : Nat} {place : Place}
  {cursor : Cursor}

/-- An expression comes to its end within the bound. -/
theorem parse_shows
    (shows : place.Shows tokens cursor)
    (enough : 6 * cursor.rest.length + 4 ≤ fuel) :
    (expression fuel tokens place).Shows tokens (Expr.parse cursor) :=
  (exprShows tokens fuel).expression _ place cursor shows enough (by omega)

/-! Recovery. -/

/-- A token has been read at the end of a slice that does not begin with its
end. -/
theorem Place.Shows.follows_of_nil
    (shows : place.Shows tokens cursor)
    (begins : ∀ first ∈ tokens.head?, first.kind ≠ .endOfInput)
    (nothing : cursor.rest = []) :
    ∃ token, place.Follows tokens token := by
  have inside := shows.inside
  cases index : place.current with
  | zero =>
      obtain ⟨beyond, behind⟩ := shows.behind
      rw [index, nothing] at behind
      have first : tokens.head? = some cursor.ending := by
        rw [← List.drop_zero (l := tokens), behind]
        rfl
      exact (begins _ first shows.isEnd).elim
  | succ before =>
      exact ⟨_, Place.follows_of_index index
        (List.getElem?_eq_getElem (by omega))⟩

theorem findStatement_shows
    {token : Token}
    (shows : place.Shows tokens cursor)
    (follows : place.Follows tokens token)
    (enough : cursor.rest.length + 1 ≤ fuel) :
    ∃ after : Place,
      findStatement fuel tokens place = .done () after ∧
        after.Shows tokens
          { cursor with rest := Cursor.nextStatement token cursor.rest } := by
  induction fuel generalizing place cursor token with
  | zero =>
      omega
  | succ fuel inductionHypothesis =>
      rw [findStatement, bind_of_done _ shows.atEnd]
      cases shape : cursor.rest with
      | nil =>
          refine ⟨place, rfl, ?_⟩
          rw [Cursor.nextStatement, ← shape]
          exact shows
      | cons next rest =>
          have peeked : cursor.peek = next := by
            rw [Cursor.peek, shape]
            rfl
          simp only [List.isEmpty_cons, Bool.false_eq_true, if_false]
          rw [bind_of_done _ follows, Cursor.nextStatement]
          by_cases ends : token.kind = .semicolon
          · simp only [ends, beq_self_eq_true, if_true, decide_true,
              Bool.true_or]
            refine ⟨place, rfl, ?_⟩
            rw [← shape]
            exact shows
          · simp only [beq_eq_false_iff_ne.mpr ends, Bool.false_eq_true,
              if_false, decide_eq_false ends, Bool.false_or]
            rw [bind_of_done _ shows.peek, peeked]
            cases Cursor.startsStatement next.kind with
            | true =>
                refine ⟨place, rfl, ?_⟩
                rw [if_pos rfl, ← shape]
                exact shows
            | false =>
                obtain ⟨after, advanced, showsAfter, followsAfter⟩ :=
                  shows.advance shape
                simp only [Bool.false_eq_true, if_false]
                rw [bind_of_done _ advanced]
                rw [shape, List.length_cons] at enough
                exact inductionHypothesis showsAfter followsAfter
                  (Nat.le_of_succ_le_succ enough)

/-- Recovery looks at no token outside of the slice. -/
theorem synchronize_shows
    (shows : place.Shows tokens cursor)
    (begins : ∀ first ∈ tokens.head?, first.kind ≠ .endOfInput)
    (enough : cursor.rest.length + 1 ≤ fuel) :
    ∃ after : Place,
      synchronize fuel tokens place = .done () after ∧
        after.Shows tokens cursor.synchronize := by
  cases shape : cursor.rest with
  | nil =>
      obtain ⟨token, follows⟩ := shows.follows_of_nil begins shape
      have advanced : advance tokens place = .done token place := by
        rw [advance, bind_of_done _ shows.atEnd, shape]
        exact follows
      rw [synchronize, bind_of_done _ advanced, Cursor.synchronize, shape]
      have found := findStatement_shows shows follows enough
      rw [shape, Cursor.nextStatement, ← shape] at found
      exact found
  | cons token rest =>
      obtain ⟨after, advanced, showsAfter, follows⟩ := shows.advance shape
      rw [shape, List.length_cons] at enough
      rw [synchronize, bind_of_done _ advanced, Cursor.synchronize, shape]
      exact findStatement_shows showsAfter follows
        (Nat.le_of_succ_le enough)

/-! The clauses of statements. -/

theorem optionalExpr_shows
    (shows : place.Shows tokens cursor)
    (enough : 6 * cursor.rest.length + 4 ≤ fuel)
    (ending : TokenKind) :
    (optionalExpr fuel ending tokens place).Shows tokens
      (Stmt.Parser.optionalExpr ending cursor) := by
  rw [optionalExpr, Stmt.Parser.optionalExpr,
    bind_of_done _ (shows.check ending)]
  split
  · exact shows.done _
  · exact (parse_shows shows enough).map _

theorem terminated_shows
    (shows : place.Shows tokens cursor)
    (enough : 6 * cursor.rest.length + 4 ≤ fuel)
    (what : Expectation)
    (make : Expr → Stmt) :
    (terminated fuel what make tokens place).Shows tokens
      ((Expr.parse cursor).bind fun value cursor =>
        (cursor.expect .semicolon what).map fun _ => make value) := by
  rw [terminated]
  refine (parse_shows shows enough).bind fun value after following _ shows => ?_
  exact shows.expect_bind (by decide) _ fun _ _ _ shows _ _ => shows.done _

theorem returnStatement_shows
    (shows : place.Shows tokens cursor)
    (enough : 6 * cursor.rest.length + 4 ≤ fuel)
    (keyword : Token) :
    (returnStatement fuel keyword tokens place).Shows tokens
      (Stmt.Parser.returnStatement keyword cursor) := by
  rw [returnStatement, Stmt.Parser.returnStatement]
  refine (optionalExpr_shows shows enough _).bind
    fun value after following _ shows => ?_
  exact shows.expect_bind (by decide) _ fun _ _ _ shows _ _ => shows.done _

theorem variableDeclaration_shows
    (shows : place.Shows tokens cursor)
    (enough : 6 * cursor.rest.length + 4 ≤ fuel) :
    (variableDeclaration fuel tokens place).Shows tokens
      (Stmt.Parser.variableDeclaration cursor) := by
  rw [variableDeclaration, Stmt.Parser.variableDeclaration]
  refine shows.expect_bind (by decide) _
    fun name after following shows _ shorter => ?_
  cases accepted : following.accept? .equal with
  | some found =>
      rcases found with ⟨equals, behind⟩
      obtain ⟨place, isAccepted, shows, -⟩ := shows.accept_some accepted
      have length := Cursor.length_accept? accepted
      have parts (next : Option Expr → Cursor → Step Stmt) :
          ((Expr.parse behind).map some).bind next =
            (Expr.parse behind).bind fun value => next (some value) := by
        cases Expr.parse behind <;> rfl
      rw [bind_of_done _ isAccepted]
      dsimp only
      rw [parts]
      refine (parse_shows shows (by omega)).bind
        fun value after following _ shows => ?_
      exact shows.expect_bind (by decide) _ fun _ _ _ shows _ _ => shows.done _
  | none =>
      rw [bind_of_done _ (shows.accept_none (by decide) accepted)]
      exact shows.expect_bind (by decide) _
        fun _ _ _ shows _ _ => shows.done _

theorem parameterNames_shows
    (shows : place.Shows tokens cursor)
    (enough : cursor.rest.length + 1 ≤ fuel)
    (most : cursor.rest.length + 1 ≤ bound)
    (collected : List Token) :
    (parameterNames fuel collected tokens place).Shows tokens
      (Stmt.Parser.parameterNames bound collected cursor) := by
  induction fuel generalizing bound place cursor collected with
  | zero =>
      omega
  | succ fuel inductionHypothesis =>
      obtain ⟨bound, rfl⟩ := exists_smaller most
      obtain ⟨after, counted, showsCount⟩ :=
        count_shows shows collected .tooManyParameters
      rw [← Stmt.Parser.countParameter] at showsCount
      have same :
          (Stmt.Parser.countParameter collected cursor).rest = cursor.rest := by
        unfold Stmt.Parser.countParameter
        split <;> rfl
      have known := congrArg List.length same
      rw [parameterNames, Stmt.Parser.parameterNames, bind_of_done _ counted]
      refine showsCount.expect_bind (by decide) _
        fun parameter after following shows _ shorter => ?_
      cases accepted : following.accept? .comma with
      | some found =>
          rcases found with ⟨comma, behind⟩
          obtain ⟨place, isAccepted, shows, -⟩ := shows.accept_some accepted
          have length := Cursor.length_accept? accepted
          rw [bind_of_done _ isAccepted]
          exact inductionHypothesis shows (by omega) (by omega) _
      | none =>
          rw [bind_of_done _ (shows.accept_none (by decide) accepted)]
          exact shows.done _

theorem functionHead_shows
    (shows : place.Shows tokens cursor)
    (enough : 6 * cursor.rest.length + 4 ≤ fuel)
    (form : FunctionForm) :
    (functionHead fuel form tokens place).Shows tokens
      (Stmt.Parser.functionHead form cursor) := by
  rw [functionHead, Stmt.Parser.functionHead]
  refine shows.expect_bind (by decide) _
    fun name after following shows _ shorter => ?_
  refine shows.expect_bind (by decide) _
    fun _ after behind shows _ shorter => ?_
  have listed :
      (parameters fuel tokens after).Shows tokens
        (if behind.sees .rightParen then
          .done [] behind
        else
          Stmt.Parser.parameterNames (behind.rest.length + 1) [] behind) := by
    rw [parameters, bind_of_done _ (shows.check _)]
    split
    · exact shows.done _
    · exact parameterNames_shows shows (by omega) le_rfl []
  refine listed.bind fun parameters after following _ shows => ?_
  exact shows.expect_bind (by decide) _ fun _ _ _ shows _ _ => shows.done _

theorem initialClause_shows
    (shows : place.Shows tokens cursor)
    (enough : 6 * cursor.rest.length + 4 ≤ fuel) :
    (initialClause fuel tokens place).Shows tokens
      (Stmt.Parser.initialClause cursor) := by
  rw [initialClause, Stmt.Parser.initialClause]
  cases ended : cursor.accept? .semicolon with
  | some found =>
      rcases found with ⟨semicolon, behind⟩
      obtain ⟨place, isAccepted, shows, -⟩ := shows.accept_some ended
      rw [bind_of_done _ isAccepted]
      exact shows.done _
  | none =>
      rw [bind_of_done _ (shows.accept_none (by decide) ended)]
      simp only [Bool.false_eq_true, if_false]
      cases declared : cursor.accept? (.keyword .varWord) with
      | some found =>
          rcases found with ⟨keyword, behind⟩
          obtain ⟨place, isAccepted, shows, -⟩ := shows.accept_some declared
          have length := Cursor.length_accept? declared
          rw [bind_of_done _ isAccepted]
          exact (variableDeclaration_shows shows (by omega)).map _
      | none =>
          rw [bind_of_done _ (shows.accept_none (by decide) declared)]
          exact (terminated_shows shows enough _ _).map _

theorem forClauses_shows
    (shows : place.Shows tokens cursor)
    (enough : 6 * cursor.rest.length + 4 ≤ fuel) :
    (forClauses fuel tokens place).Shows tokens
      (Stmt.Parser.forClauses cursor) := by
  rw [forClauses, Stmt.Parser.forClauses]
  refine shows.expect_bind (by decide) _
    fun _ after following shows _ shorter => ?_
  refine (initialClause_shows shows (by omega)).bind
    fun initial after behind read shows => ?_
  have shorterInitial :=
    (Stmt.Parser.initialClause_builds following.knows_all).length_le read
  refine (optionalExpr_shows shows (by omega) _).bind
    fun condition after last read shows => ?_
  have shorterCondition :=
    (Stmt.Parser.optionalExpr_builds behind.knows_all _).length_le read
  refine shows.expect_bind (by decide) _
    fun _ after following shows _ shorter => ?_
  refine (optionalExpr_shows shows (by omega) _).bind
    fun increment after behind _ shows => ?_
  exact shows.expect_bind (by decide) _ fun _ _ _ shows _ _ => shows.done _

theorem condition_shows
    (shows : place.Shows tokens cursor)
    (enough : 6 * cursor.rest.length + 4 ≤ fuel)
    (start ending : Expectation) :
    (condition fuel start ending tokens place).Shows tokens
      (Stmt.Parser.condition start ending cursor) := by
  rw [condition, Stmt.Parser.condition]
  refine shows.expect_bind (by decide) _
    fun _ after following shows _ shorter => ?_
  refine (parse_shows shows (by omega)).bind
    fun value after following _ shows => ?_
  exact shows.expect_bind (by decide) _ fun _ _ _ shows _ _ => shows.done _

theorem endsBody_apply
    (shows : place.Shows tokens cursor)
    (inBlock : Bool) :
    endsBody inBlock tokens place =
      .done (cursor.rest.isEmpty || inBlock && cursor.sees .rightBrace)
        place := by
  rw [endsBody, bind_of_done _ shows.atEnd]
  cases cursor.rest.isEmpty with
  | true =>
      rfl
  | false =>
      cases inBlock with
      | true =>
          exact shows.check _
      | false =>
          rfl

/-- What the functions for statements come to within a bound; `bound` is the one
of the function on cursors. -/
structure StmtShows
    (tokens : List Token)
    (fuel : Nat) :
    Prop where
  declaration :
    ∀ (bound : Nat) (place : Place) (cursor : Cursor),
      place.Shows tokens cursor →
      6 * cursor.rest.length + 6 ≤ fuel →
      6 * cursor.rest.length + 2 ≤ bound →
      (declaration fuel tokens place).Shows tokens
        (Stmt.Parser.declaration bound cursor)
  statement :
    ∀ (bound : Nat) (place : Place) (cursor : Cursor),
      place.Shows tokens cursor →
      6 * cursor.rest.length + 5 ≤ fuel →
      6 * cursor.rest.length + 1 ≤ bound →
      (statement fuel tokens place).Shows tokens
        (Stmt.Parser.statement bound cursor)
  block :
    ∀ (bound : Nat) (opening : Token) (place : Place) (cursor : Cursor),
      place.Shows tokens cursor →
      place.Follows tokens opening →
      6 * cursor.rest.length + 8 ≤ fuel →
      6 * cursor.rest.length + 4 ≤ bound →
      (block fuel tokens place).Shows tokens
        (Stmt.Parser.block bound opening cursor)
  declarations :
    ∀ (bound : Nat) (inBlock : Bool) (collected : List Stmt) (place : Place)
      (cursor : Cursor),
      place.Shows tokens cursor →
      6 * cursor.rest.length + 7 ≤ fuel →
      6 * cursor.rest.length + 3 ≤ bound →
      (declarations fuel inBlock collected tokens place).Shows tokens
        (.done
          (Stmt.Parser.declarations bound inBlock collected cursor).1
          (Stmt.Parser.declarations bound inBlock collected cursor).2)
  function :
    ∀ (bound : Nat) (form : FunctionForm) (place : Place) (cursor : Cursor),
      place.Shows tokens cursor →
      6 * cursor.rest.length + 5 ≤ fuel →
      6 * cursor.rest.length + 1 ≤ bound →
      (function fuel form tokens place).Shows tokens
        (Stmt.Parser.function bound form cursor)
  classDeclaration :
    ∀ (bound : Nat) (place : Place) (cursor : Cursor),
      place.Shows tokens cursor →
      6 * cursor.rest.length + 5 ≤ fuel →
      6 * cursor.rest.length + 1 ≤ bound →
      (classDeclaration fuel tokens place).Shows tokens
        (Stmt.Parser.classDeclaration bound cursor)
  methods :
    ∀ (bound : Nat) (collected : List FunctionDecl) (place : Place)
      (cursor : Cursor),
      place.Shows tokens cursor →
      6 * cursor.rest.length + 6 ≤ fuel →
      6 * cursor.rest.length + 2 ≤ bound →
      (methods fuel collected tokens place).Shows tokens
        (Stmt.Parser.methods bound collected cursor)

theorem declaration_shows
    (smaller : StmtShows tokens fuel)
    (shows : place.Shows tokens cursor)
    (enough : 6 * cursor.rest.length + 6 ≤ fuel + 1)
    (most : 6 * cursor.rest.length + 2 ≤ bound + 1) :
    (declaration (fuel + 1) tokens place).Shows tokens
      (Stmt.Parser.declaration (bound + 1) cursor) := by
  have whole :=
    smaller.statement bound place cursor shows (by omega) (by omega)
  rw [declaration, Stmt.Parser.declaration, bind_of_done _ shows.peek]
  cases shape : cursor.rest with
  | nil =>
      have peeked : cursor.peek.kind = .endOfInput := by
        rw [Cursor.peek, shape]
        exact shows.isEnd
      rw [peeked]
      exact whole
  | cons first rest =>
      have peeked : cursor.peek = first := by
        rw [Cursor.peek, shape]
        rfl
      obtain ⟨after, advanced, showsAfter, follows⟩ := shows.advance shape
      rw [shape, List.length_cons] at enough most
      let following : Cursor := { cursor with rest }
      have length : following.rest.length = rest.length := rfl
      rw [peeked]
      dsimp only
      cases kind : first.kind with
      | keyword word =>
          cases word with
          | classWord =>
              dsimp only
              rw [bind_of_done _ advanced]
              exact smaller.classDeclaration bound after following showsAfter
                (by omega) (by omega)
          | funWord =>
              dsimp only
              rw [bind_of_done _ advanced]
              exact (smaller.function bound .function after following
                showsAfter (by omega) (by omega)).map _
          | varWord =>
              dsimp only
              rw [bind_of_done _ advanced]
              exact variableDeclaration_shows showsAfter
                (show 6 * following.rest.length + 4 ≤ fuel by omega)
          | _ =>
              exact whole
      | _ =>
          exact whole

/-! Statements behind the keyword that begins them. -/

theorem forStatement_shows
    (smaller : StmtShows tokens fuel)
    (shows : place.Shows tokens cursor)
    (enough : 6 * cursor.rest.length + 4 ≤ fuel)
    (most : 6 * cursor.rest.length ≤ bound) :
    ((forClauses fuel >>= fun clauses =>
        statement fuel >>= fun body => pure (clauses.unfold body))
      tokens place).Shows tokens
      ((Stmt.Parser.forClauses cursor).bind fun clauses cursor =>
        (Stmt.Parser.statement bound cursor).map clauses.unfold) := by
  refine (forClauses_shows shows enough).bind
    fun clauses place inside read shows => ?_
  have shorter :=
    (Stmt.Parser.forClauses_builds cursor.knows_all).length_le read
  exact (smaller.statement bound place inside shows (by omega)
    (by omega)).map _

theorem ifStatement_shows
    (smaller : StmtShows tokens fuel)
    (shows : place.Shows tokens cursor)
    (enough : 6 * cursor.rest.length + 4 ≤ fuel)
    (most : 6 * cursor.rest.length ≤ bound) :
    ((condition fuel .ifStart .ifConditionEnd >>= fun condition =>
        statement fuel >>= fun consequent =>
          accept (.keyword .elseWord) >>= fun accepted =>
            if accepted then
              statement fuel >>= fun alternative =>
                pure (Stmt.conditional condition consequent (some alternative))
            else
              pure (Stmt.conditional condition consequent none))
      tokens place).Shows tokens
      ((Stmt.Parser.condition .ifStart .ifConditionEnd cursor).bind
        fun condition cursor =>
          (Stmt.Parser.statement bound cursor).bind fun consequent cursor =>
            match cursor.accept? (.keyword .elseWord) with
            | some (_, cursor) =>
                (Stmt.Parser.statement bound cursor).map fun alternative =>
                  Stmt.conditional condition consequent (some alternative)
            | none =>
                .done (Stmt.conditional condition consequent none) cursor) := by
  refine (condition_shows shows enough _ _).bind
    fun condition place inside read shows => ?_
  have shorter :=
    (Stmt.Parser.condition_builds cursor.knows_all _ _).length_le read
  refine (smaller.statement bound place inside shows (by omega)
    (by omega)).bind fun consequent place behind read shows => ?_
  have shorterBranch :=
    ((Stmt.Parser.build _ bound).statement inside
      inside.knows_all).length_le read
  cases accepted : behind.accept? (.keyword .elseWord) with
  | some found =>
      rcases found with ⟨keyword, last⟩
      obtain ⟨place, isAccepted, shows, -⟩ := shows.accept_some accepted
      have shorterElse := Cursor.length_accept? accepted
      rw [bind_of_done _ isAccepted]
      exact (smaller.statement bound place last shows (by omega)
        (by omega)).map _
  | none =>
      rw [bind_of_done _ (shows.accept_none (by decide) accepted)]
      exact shows.done _

theorem whileStatement_shows
    (smaller : StmtShows tokens fuel)
    (shows : place.Shows tokens cursor)
    (enough : 6 * cursor.rest.length + 4 ≤ fuel)
    (most : 6 * cursor.rest.length ≤ bound) :
    ((condition fuel .whileStart .whileConditionEnd >>= fun condition =>
        statement fuel >>= fun body => pure (Stmt.loop condition body))
      tokens place).Shows tokens
      ((Stmt.Parser.condition .whileStart .whileConditionEnd cursor).bind
        fun condition cursor =>
          (Stmt.Parser.statement bound cursor).map (Stmt.loop condition)) := by
  refine (condition_shows shows enough _ _).bind
    fun condition place inside read shows => ?_
  have shorter :=
    (Stmt.Parser.condition_builds cursor.knows_all _ _).length_le read
  exact (smaller.statement bound place inside shows (by omega)
    (by omega)).map _

theorem statement_shows
    (smaller : StmtShows tokens fuel)
    (shows : place.Shows tokens cursor)
    (enough : 6 * cursor.rest.length + 5 ≤ fuel + 1)
    (most : 6 * cursor.rest.length + 1 ≤ bound + 1) :
    (statement (fuel + 1) tokens place).Shows tokens
      (Stmt.Parser.statement (bound + 1) cursor) := by
  have whole :=
    terminated_shows shows (Nat.le_of_succ_le_succ enough) .expressionEnd
      .expression
  rw [← Stmt.Parser.expressionStatement] at whole
  rw [statement, Stmt.Parser.statement, bind_of_done _ shows.peek]
  cases shape : cursor.rest with
  | nil =>
      have peeked : cursor.peek.kind = .endOfInput := by
        rw [Cursor.peek, shape]
        exact shows.isEnd
      rw [peeked]
      exact whole
  | cons first rest =>
      have peeked : cursor.peek = first := by
        rw [Cursor.peek, shape]
        rfl
      obtain ⟨after, advanced, showsAfter, follows⟩ := shows.advance shape
      rw [shape, List.length_cons] at enough most
      let following : Cursor := { cursor with rest }
      have length : following.rest.length = rest.length := rfl
      have few : 6 * following.rest.length + 4 ≤ fuel := by omega
      have fewCalls : 6 * following.rest.length ≤ bound := by omega
      rw [peeked]
      dsimp only
      cases kind : first.kind with
      | keyword word =>
          cases word with
          | forWord =>
              dsimp only
              rw [bind_of_done _ advanced]
              exact forStatement_shows smaller showsAfter few fewCalls
          | ifWord =>
              dsimp only
              rw [bind_of_done _ advanced]
              exact ifStatement_shows smaller showsAfter few fewCalls
          | printWord =>
              dsimp only
              rw [bind_of_done _ advanced]
              exact terminated_shows showsAfter few _ _
          | returnWord =>
              dsimp only
              rw [bind_of_done _ advanced]
              exact returnStatement_shows showsAfter few first
          | whileWord =>
              dsimp only
              rw [bind_of_done _ advanced]
              exact whileStatement_shows smaller showsAfter few fewCalls
          | _ =>
              exact whole
      | leftBrace =>
          dsimp only
          rw [bind_of_done _ advanced]
          exact (smaller.block bound first after following showsAfter follows
            (by omega) (by omega)).map _
      | _ =>
          exact whole

theorem block_shows
    (smaller : StmtShows tokens fuel)
    (opening : Token)
    (shows : place.Shows tokens cursor)
    (follows : place.Follows tokens opening)
    (enough : 6 * cursor.rest.length + 8 ≤ fuel + 1)
    (most : 6 * cursor.rest.length + 4 ≤ bound + 1) :
    (block (fuel + 1) tokens place).Shows tokens
      (Stmt.Parser.block (bound + 1) opening cursor) := by
  rw [block, Stmt.Parser.block]
  refine shows.nested follows fun place inner shows same => ?_
  have length := congrArg List.length same
  show Ran.Shows tokens _
    ((Step.done (Stmt.Parser.declarations bound true [] inner).1
        (Stmt.Parser.declarations bound true [] inner).2).bind
      fun statements cursor =>
        (cursor.expect .rightBrace .blockEnd).map fun _ => statements)
  refine (smaller.declarations bound true [] place inner shows (by omega)
    (by omega)).bind fun statements after following read shows => ?_
  cases read
  exact shows.expect_bind (by decide) _ fun _ _ _ shows _ _ => shows.done _

theorem failed_length_le
    {after : Cursor}
    (failed : Stmt.Parser.declaration bound cursor = .failed after) :
    after.rest.length ≤ cursor.rest.length := by
  have built :=
    (Stmt.Parser.build (fun _ => True) bound).declaration cursor
      cursor.knows_all
  rw [failed] at built
  have leads : cursor.Leads after := built
  exact leads.length_le

/-- A failed declaration is followed by progress. -/
theorem length_synchronize_lt
    {after : Cursor}
    (remaining : cursor.rest ≠ [])
    (failed : Stmt.Parser.declaration bound cursor = .failed after) :
    after.synchronize.rest.length < cursor.rest.length := by
  have shorter := failed_length_le failed
  have some := List.length_pos_of_ne_nil remaining
  by_cases nothing : after.rest = []
  · have skipped := after.leads_synchronize.length_le
    rw [nothing, List.length_nil] at skipped
    omega
  · have skipped := after.length_synchronize nothing
    omega

theorem declarations_shows
    (smaller : StmtShows tokens fuel)
    (begins : ∀ first ∈ tokens.head?, first.kind ≠ .endOfInput)
    (inBlock : Bool)
    (collected : List Stmt)
    (shows : place.Shows tokens cursor)
    (enough : 6 * cursor.rest.length + 7 ≤ fuel + 1)
    (most : 6 * cursor.rest.length + 3 ≤ bound + 1) :
    (declarations (fuel + 1) inBlock collected tokens place).Shows tokens
      (.done
        (Stmt.Parser.declarations (bound + 1) inBlock collected cursor).1
        (Stmt.Parser.declarations (bound + 1) inBlock collected cursor).2) := by
  rw [declarations, Stmt.Parser.declarations,
    bind_of_done _ (endsBody_apply shows inBlock)]
  split
  · exact shows.done _
  · rename_i goesOn
    have remaining : cursor.rest ≠ [] := by
      intro nothing
      simp [nothing] at goesOn
    have here :=
      smaller.declaration bound place cursor shows (by omega) (by omega)
    cases step : Stmt.Parser.declaration bound cursor with
    | done statement following =>
        have shorter :=
          ((Stmt.Parser.build _ bound).declaration cursor
            cursor.knows_all).length_le step
        rw [step] at here
        cases ran : declaration fuel tokens place with
        | done same after =>
            rw [ran] at here
            obtain ⟨rfl, showsAfter⟩ := here
            have tried :
                attempt (declaration fuel) tokens place =
                  .done (some same) after := by
              rw [attempt, ran]
            rw [bind_of_done _ tried]
            exact smaller.declarations bound inBlock (same :: collected) after
              following showsAfter (by omega) (by omega)
        | failed | outside | exhausted =>
            rw [ran] at here
            exact here.elim
    | failed following =>
        have shorter := length_synchronize_lt remaining step
        have few := failed_length_le step
        rw [step] at here
        cases ran : declaration fuel tokens place with
        | failed after =>
            rw [ran] at here
            have tried :
                attempt (declaration fuel) tokens place = .done none after := by
              rw [attempt, ran]
            obtain ⟨last, recovered, showsLast⟩ :=
              synchronize_shows here begins (show _ ≤ fuel by omega)
            rw [bind_of_done _ tried]
            dsimp only
            rw [bind_of_done _ recovered]
            exact smaller.declarations bound inBlock collected last _
              showsLast (by omega) (by omega)
        | done | outside | exhausted =>
            rw [ran] at here
            exact here.elim

theorem function_shows
    (smaller : StmtShows tokens fuel)
    (form : FunctionForm)
    (shows : place.Shows tokens cursor)
    (enough : 6 * cursor.rest.length + 5 ≤ fuel + 1)
    (most : 6 * cursor.rest.length + 1 ≤ bound + 1) :
    (function (fuel + 1) form tokens place).Shows tokens
      (Stmt.Parser.function (bound + 1) form cursor) := by
  rw [function, Stmt.Parser.function]
  refine (functionHead_shows shows (by omega) form).bind
    fun head after following read shows => ?_
  have shorter :=
    (Stmt.Parser.functionHead_builds cursor.knows_all form).length_le read
  rcases head with ⟨name, parameters⟩
  refine shows.expect_bind (by decide) _
    fun opening after inside shows follows shorter => ?_
  exact (smaller.block bound opening after inside shows follows (by omega)
    (by omega)).map _

theorem classDeclaration_shows
    (smaller : StmtShows tokens fuel)
    (shows : place.Shows tokens cursor)
    (enough : 6 * cursor.rest.length + 5 ≤ fuel + 1)
    (most : 6 * cursor.rest.length + 1 ≤ bound + 1) :
    (classDeclaration (fuel + 1) tokens place).Shows tokens
      (Stmt.Parser.classDeclaration (bound + 1) cursor) := by
  rw [classDeclaration, Stmt.Parser.classDeclaration]
  refine shows.expect_bind (by decide) _
    fun name after following shows _ shorterName => ?_
  refine shows.expect_bind (by decide) _
    fun _ after inside shows _ shorterBrace => ?_
  refine (smaller.methods bound [] after inside shows (by omega)
    (by omega)).bind fun methods after behind read shows => ?_
  exact shows.expect_bind (by decide) _ fun _ _ _ shows _ _ => shows.done _

theorem methods_shows
    (smaller : StmtShows tokens fuel)
    (collected : List FunctionDecl)
    (shows : place.Shows tokens cursor)
    (enough : 6 * cursor.rest.length + 6 ≤ fuel + 1)
    (most : 6 * cursor.rest.length + 2 ≤ bound + 1) :
    (methods (fuel + 1) collected tokens place).Shows tokens
      (Stmt.Parser.methods (bound + 1) collected cursor) := by
  rw [methods, Stmt.Parser.methods,
    bind_of_done _ (endsBody_apply shows true), Bool.true_and]
  split
  · exact shows.done _
  · refine (smaller.function bound .method place cursor shows (by omega)
      (by omega)).bind fun method after following read shows => ?_
    have shorter :=
      ((Stmt.Parser.build _ bound).function .method cursor
        cursor.knows_all).length_le read
    exact smaller.methods bound (method :: collected) after following shows
      (by omega) (by omega)

theorem stmtShows
    {tokens : List Token}
    (begins : ∀ first ∈ tokens.head?, first.kind ≠ .endOfInput)
    (fuel : Nat) :
    StmtShows tokens fuel := by
  induction fuel with
  | zero =>
      constructor <;> intros <;> omega
  | succ fuel smaller =>
      exact {
        declaration := fun bound place cursor shows enough most => by
          obtain ⟨bound, rfl⟩ := exists_smaller most
          exact declaration_shows smaller shows enough most
        statement := fun bound place cursor shows enough most => by
          obtain ⟨bound, rfl⟩ := exists_smaller most
          exact statement_shows smaller shows enough most
        block := fun bound opening place cursor shows follows enough most => by
          obtain ⟨bound, rfl⟩ := exists_smaller most
          exact block_shows smaller opening shows follows enough most
        declarations := fun bound inBlock collected place cursor shows enough
            most => by
          obtain ⟨bound, rfl⟩ := exists_smaller most
          exact declarations_shows smaller begins inBlock collected shows
            enough most
        function := fun bound form place cursor shows enough most => by
          obtain ⟨bound, rfl⟩ := exists_smaller most
          exact function_shows smaller form shows enough most
        classDeclaration := fun bound place cursor shows enough most => by
          obtain ⟨bound, rfl⟩ := exists_smaller most
          exact classDeclaration_shows smaller shows enough most
        methods := fun bound collected place cursor shows enough most => by
          obtain ⟨bound, rfl⟩ := exists_smaller most
          exact methods_shows smaller collected shows enough most }

end Script.Slice
