import Script.Proofs.Mending.Expression
import Script.Proofs.Parsing.Bound

namespace Script

open Grammar

/-!
# Clauses that stop at the end of the input

The statements and the heads of functions are made of clauses: an optional
expression, a condition, names of parameters, an expression with its semicolon.
Each of them that stops at the end of the input is the beginning of one.
-/

namespace Step

/-- A step that fails has reported a problem of some class. -/
def Blames (test : Problem → Bool) : Step α → Prop
  | .done _ _ =>
      True
  | .failed after =>
      ∃ problem ∈ after.reported, test problem.problem = true

namespace Blames

variable {test : Problem → Bool}

theorem bind
    {step : Step α}
    {next : α → Cursor → Step β}
    (first : step.Blames test)
    (second :
      ∀ value after, step = .done value after → (next value after).Blames test) :
    (step.bind next).Blames test := by
  cases step with
  | failed after =>
      exact first
  | done value after =>
      exact second value after rfl

theorem map
    {step : Step α}
    (blames : step.Blames test)
    (change : α → β) :
    (step.map change).Blames test :=
  blames.bind fun _ _ _ => trivial

theorem expect
    {what : Expectation}
    (cursor : Cursor)
    (kind : TokenKind)
    (isTest : test (.expected what) = true) :
    (cursor.expect kind what).Blames test := by
  unfold Cursor.expect
  cases cursor.accept? kind with
  | some pair =>
      trivial
  | none =>
      exact ⟨_, List.mem_cons_self, isTest⟩

end Blames

/-- When a step in front of the body of a function fails and there is no room for
the body, the function is crowded out. -/
theorem Continues.crowded
    {before : Cursor}
    {phrase : List Token → Prop}
    {step : Step α}
    (continues : step.Continues false before phrase)
    (blames : step.Blames Problem.awaitsBody) :
    step.Continues true before fun read => phrase read ∧ 0 < before.room := by
  cases step with
  | done value after =>
      exact continues
  | failed after =>
      obtain ⟨leads, ends⟩ := continues
      refine ⟨leads, fun mendable => ?_⟩
      obtain ⟨atEnd, impossible | closes⟩ := ends mendable
      · cases impossible.1
      · refine ⟨atEnd, ?_⟩
        by_cases full : before.room = 0
        · refine .inl ⟨rfl, blames, ?_⟩
          rw [full, Nat.zero_add]
          exact leads.openBlocks_le
        · obtain ⟨closers, begins, completes⟩ := closes
          exact .inr ⟨closers, begins, fun more same =>
            ⟨completes more same, Nat.pos_of_ne_zero full⟩⟩

end Step

namespace Grammar

/-- A string is an expression. -/
theorem derives_string
    {token : Token}
    (room : Nat)
    (kind : token.kind = .string) :
    DerivesExpr .expression room [token] (.literal token.literal) := by
  have literal : DerivesExpr .primary room [token] (.literal token.literal) :=
    .literal (.inr kind)
  have operation := (DerivesExpr.tightest (.plain (.primary literal))).looser
    (Nat.zero_le 6) le_rfl
  exact .operation operation

/-- A string and a semicolon are a statement. -/
theorem derives_stringStatement
    {more : List Token}
    (room : Nat)
    (same : Closer.Match [.string, .semicolon] more) :
    ∃ tree, Derives false (.statement false) room more tree := by
  obtain ⟨string, rest, rfl, stringKind, restSame⟩ := same.cons
  obtain ⟨semicolon, rfl, semicolonKind⟩ := restSame.single
  exact ⟨_, .expression (derives_string room stringKind) semicolonKind⟩

section Clauses

open Stmt.Parser

variable {cursor : Cursor}

theorem optionalExpr_continues
    (ending : TokenKind)
    (assignable : Assignable cursor.rest) :
    (optionalExpr ending cursor).Continues false cursor fun read =>
      ∃ tree, DerivesOptional cursor.room read tree := by
  unfold optionalExpr
  split
  · exact .done _
  · refine ((parse_continues cursor assignable).map _).weaken ?_
    rintro read ⟨tree, derived⟩
    exact ⟨_, .something derived⟩

/-- An expression and its semicolon, also as the first clause of a loop. -/
theorem expressionStatement_continues (assignable : Assignable cursor.rest) :
    (expressionStatement cursor).Continues false cursor fun read =>
      ∃ tree,
        Derives false (.statement false) cursor.room read tree ∧
          DerivesInitial cursor.room read (some tree) := by
  unfold expressionStatement
  refine Cursor.closed_continues assignable (parse_reads cursor)
    (parse_continues cursor assignable) (fun _ _ derived => ⟨_, derived⟩)
    .semicolon rfl ?_
  rintro tokens semicolon ⟨tree, derived⟩ kind
  exact ⟨_, .expression derived kind, .expression derived kind⟩

theorem printStatement_continues
    {keyword : Token}
    (keywordKind : keyword.kind = .keyword .printWord)
    (assignable : Assignable cursor.rest) :
    (printStatement cursor).Continues false cursor fun read =>
      ∃ tree,
        Derives false (.statement false) cursor.room (keyword :: read) tree := by
  unfold printStatement
  refine Cursor.closed_continues assignable (parse_reads cursor)
    (parse_continues cursor assignable) (fun _ _ derived => ⟨_, derived⟩)
    .semicolon rfl ?_
  rintro tokens semicolon ⟨tree, derived⟩ kind
  exact ⟨_, .print keywordKind derived kind⟩

theorem returnStatement_continues
    {keyword : Token}
    (keywordKind : keyword.kind = .keyword .returnWord)
    (assignable : Assignable cursor.rest) :
    (returnStatement keyword cursor).Continues false cursor fun read =>
      ∃ tree,
        Derives false (.statement false) cursor.room (keyword :: read) tree := by
  unfold returnStatement
  refine Cursor.closed_continues assignable
    (optionalExpr_reads .semicolon cursor)
    (optionalExpr_continues .semicolon assignable)
    (fun _ _ derived => ⟨_, derived⟩) .semicolon rfl ?_
  rintro tokens semicolon ⟨tree, derived⟩ kind
  exact ⟨_, .returning keywordKind derived kind⟩

theorem variableDeclaration_continues
    {keyword : Token}
    (keywordKind : keyword.kind = .keyword .varWord)
    (assignable : Assignable cursor.rest) :
    (variableDeclaration cursor).Continues false cursor fun read =>
      ∃ tree, DerivesVariable cursor.room (keyword :: read) tree := by
  unfold variableDeclaration
  refine .bind (cursor.expect_reads .identifier .variableName)
    (Cursor.expect_continues assignable .name rfl) [.semicolon] ?_
    fun name afterName _ leads _ => ?_
  · rintro _ more ⟨name, rfl, nameKind⟩ same
    obtain ⟨semicolon, rfl, kind⟩ := same.single
    exact ⟨_, .bare keywordKind nameKind kind⟩
  split
  · rename_i equals afterEquals accepted
    have equalsKind := (Cursor.accept?_eq_some_iff.mp accepted).1
    have leadsEquals := leads.trans (Cursor.leads_accept? accepted)
    have assignableEquals := leadsEquals.assignable assignable
    have initialReads :
        ((Expr.parse afterEquals).map some).Reads afterEquals 1
          fun read initial =>
            ∃ tree,
              initial = some tree ∧
                DerivesExpr .expression afterEquals.room read tree :=
      (parse_reads afterEquals).map
        fun read value derived => ⟨value, rfl, derived⟩
    refine .afterAccepted accepted ?_
    refine Cursor.closed_continues assignableEquals initialReads
      ((parse_continues afterEquals assignableEquals).map _)
      (fun _ _ ⟨tree, _, derived⟩ => ⟨tree, derived⟩) .semicolon rfl ?_
    rintro tokens semicolon ⟨tree, derived⟩ kind _ - ⟨rfl, nameKind⟩
    rw [leadsEquals.room_eq] at derived
    exact ⟨_, .initialized keywordKind nameKind equalsKind derived kind⟩
  · refine ((Cursor.expect_continues (leads.assignable assignable) .semicolon
      rfl).map _).weaken ?_
    rintro _ ⟨semicolon, rfl, kind⟩ _ - ⟨rfl, nameKind⟩
    exact ⟨_, .bare keywordKind nameKind kind⟩

theorem parameterNames_continues
    (fuel : Nat)
    (collected : List Token)
    (cursor : Cursor)
    (assignable : Assignable cursor.rest)
    (enough : cursor.rest.length + 1 ≤ fuel) :
    (parameterNames fuel collected cursor).Continues false cursor fun read =>
      ∃ names,
        collected.length + names.length ≤ longestList ∧
          DerivesParameters read names := by
  induction fuel generalizing collected cursor with
  | zero =>
      omega
  | succ fuel inductionHypothesis =>
      rw [parameterNames]
      unfold countParameter
      generalize count :
        (if Cursor.maximalArguments ≤ collected.length then
          cursor.report cursor.peek .tooManyParameters
        else
          cursor) = counted
      refine Cursor.continues_unless count rfl fun sameRest _ => ?_
      have sameLength := congrArg List.length sameRest
      rw [← sameRest] at assignable
      refine .bindWhole (counted.expect_reads .identifier .parameterName)
        (Cursor.expect_continues assignable .name rfl) ?_
        fun parameter afterParameter _ leads length => ?_
      · rintro _ ⟨name, rfl, kind⟩ space
        exact ⟨[name], Nat.lt_of_not_le space, .last kind⟩
      split
      · rename_i comma afterComma accepted
        have commaKind := (Cursor.accept?_eq_some_iff.mp accepted).1
        have shorter := Cursor.length_accept? accepted
        have leadsComma := leads.trans (Cursor.leads_accept? accepted)
        refine .afterAccepted accepted ?_
        refine (inductionHypothesis (parameter :: collected) afterComma
          (leadsComma.assignable assignable) (by omega)).weaken ?_
        rintro read ⟨names, few, derived⟩ _ - ⟨rfl, kind⟩ -
        refine ⟨parameter :: names, ?_, .more kind commaKind derived⟩
        simp only [List.length_cons] at few ⊢
        omega
      · exact .done _

/-- The tokens of the head of a function. -/
def IsHead (read : List Token) : Prop :=
  ∃ name opening list closing parameters,
    read = name :: opening :: list ++ [closing] ∧
      name.kind = .identifier ∧
      opening.kind = .leftParen ∧
      DerivesParameterList list parameters ∧
      closing.kind = .rightParen

theorem functionHead_continues
    (form : FunctionForm)
    (assignable : Assignable cursor.rest) :
    (functionHead form cursor).Continues false cursor IsHead := by
  unfold functionHead
  refine .bind (cursor.expect_reads .identifier (.functionName form))
    (Cursor.expect_continues assignable .name rfl) [.leftParen, .rightParen] ?_
    fun name afterName _ leadsName _ => ?_
  · rintro _ more ⟨name, rfl, nameKind⟩ same
    obtain ⟨opening, rest, rfl, openingKind, restSame⟩ := same.cons
    obtain ⟨closing, rfl, closingKind⟩ := restSame.single
    exact ⟨name, opening, [], closing, _, rfl, nameKind, openingKind, .nothing,
      closingKind⟩
  refine .bind (afterName.expect_reads .leftParen (.parametersStart form))
    (Cursor.expect_continues (leadsName.assignable assignable) .leftParen rfl)
    [.rightParen] ?_ fun opening afterOpening _ leadsOpening _ => ?_
  · rintro _ more ⟨opening, rfl, openingKind⟩ same _ - ⟨rfl, nameKind⟩
    obtain ⟨closing, rfl, closingKind⟩ := same.single
    exact ⟨_, opening, [], closing, _, rfl, nameKind, openingKind, .nothing,
      closingKind⟩
  have assignableOpening :=
    (leadsName.trans leadsOpening).assignable assignable
  have reads :
      (if afterOpening.sees .rightParen then
          Step.done [] afterOpening
        else
          parameterNames (afterOpening.rest.length + 1) []
            afterOpening).Reads afterOpening 0 DerivesParameterList := by
    split
    · exact .done .nothing
    · refine (parameterNames_reads _ [] afterOpening le_rfl).weaken
        (Nat.zero_le 1) ?_
      rintro read values ⟨names, rfl, few, derived⟩
      exact .something derived (by simpa using few)
  have continues :
      (if afterOpening.sees .rightParen then
          Step.done [] afterOpening
        else
          parameterNames (afterOpening.rest.length + 1) []
            afterOpening).Continues false afterOpening fun read =>
        ∃ names, DerivesParameterList read names := by
    split
    · exact .done _
    · refine (parameterNames_continues _ [] afterOpening assignableOpening
        le_rfl).weaken ?_
      rintro read ⟨names, few, derived⟩
      exact ⟨names, .something derived (by simpa using few)⟩
  refine Cursor.closed_continues assignableOpening reads continues
    (fun _ _ derived => ⟨_, derived⟩) .rightParen rfl ?_
  rintro list closing ⟨names, derived⟩ closingKind _ - ⟨rfl, openingKind⟩ _ -
    ⟨rfl, nameKind⟩
  exact ⟨_, _, list, closing, names, rfl, nameKind, openingKind, derived,
    closingKind⟩

theorem parameterNames_blames
    (fuel : Nat)
    (collected : List Token)
    (cursor : Cursor)
    (enough : cursor.rest.length + 1 ≤ fuel) :
    (parameterNames fuel collected cursor).Blames Problem.awaitsBody := by
  induction fuel generalizing collected cursor with
  | zero =>
      omega
  | succ fuel inductionHypothesis =>
      rw [parameterNames]
      refine .bind (.expect _ .identifier rfl)
        fun parameter afterParameter shape => ?_
      have counted : (countParameter collected cursor).rest = cursor.rest := by
        unfold countParameter
        split <;> rfl
      have reads :=
        (countParameter collected cursor).expect_reads .identifier
          .parameterName
      rw [shape] at reads
      have length := reads.2.1
      rw [counted] at length
      split
      · rename_i comma afterComma accepted
        have shorter := Cursor.length_accept? accepted
        exact inductionHypothesis _ afterComma (by omega)
      · trivial

/-- The head of a function fails with a problem in front of the body. -/
theorem functionHead_blames
    (form : FunctionForm)
    (cursor : Cursor) :
    (functionHead form cursor).Blames Problem.awaitsBody := by
  unfold functionHead
  refine .bind (.expect _ _ rfl) fun name afterName _ => ?_
  refine .bind (.expect _ _ rfl) fun opening afterOpening _ => ?_
  refine .bind ?_ fun names afterNames _ => (Step.Blames.expect _ _ rfl).map _
  split
  · trivial
  · exact parameterNames_blames _ [] afterOpening le_rfl

theorem initialClause_continues (assignable : Assignable cursor.rest) :
    (initialClause cursor).Continues false cursor fun read =>
      ∃ initial, DerivesInitial cursor.room read initial := by
  unfold initialClause
  split
  · rename_i semicolon after accepted
    exact .afterAccepted accepted (.done _)
  · split
    · rename_i keyword after accepted
      have kind := (Cursor.accept?_eq_some_iff.mp accepted).1
      have leads := Cursor.leads_accept? accepted
      refine .afterAccepted accepted ?_
      refine ((variableDeclaration_continues kind
        (leads.assignable assignable)).map _).weaken ?_
      rintro read ⟨tree, derived⟩
      rw [leads.room_eq] at derived
      exact ⟨_, .declared derived⟩
    · refine ((expressionStatement_continues assignable).map _).weaken ?_
      rintro read ⟨tree, -, derived⟩
      exact ⟨_, derived⟩

/-- The tokens of the clauses of a `for` loop behind its keyword. -/
def IsClauses
    (keyword : Token)
    (room : Nat)
    (read : List Token) :
    Prop :=
  ∀ dangling rest body,
    Derives false (.statement dangling) room rest body →
    ∃ tree,
      Derives false (.statement dangling) room (keyword :: read ++ rest) tree

theorem IsClauses.of_parts
    {room : Nat}
    {keyword opening semicolon closing : Token}
    {first second third : List Token}
    {initial : Option Stmt}
    {condition increment : Option Expr}
    (keywordKind : keyword.kind = .keyword .forWord)
    (openingKind : opening.kind = .leftParen)
    (initialDerived : DerivesInitial room first initial)
    (conditionDerived : DerivesOptional room second condition)
    (semicolonKind : semicolon.kind = .semicolon)
    (incrementDerived : DerivesOptional room third increment)
    (closingKind : closing.kind = .rightParen) :
    IsClauses keyword room
      (opening :: first ++ second ++ semicolon :: third ++ [closing]) := by
  intro dangling rest body bodyDerived
  have loop :=
    Derives.forLoop keywordKind openingKind initialDerived conditionDerived
      semicolonKind incrementDerived closingKind bodyDerived
  exact ⟨_, by simpa using loop⟩

theorem forClauses_continues
    {keyword : Token}
    (keywordKind : keyword.kind = .keyword .forWord)
    (assignable : Assignable cursor.rest) :
    (forClauses cursor).Continues false cursor
      (IsClauses keyword cursor.room) := by
  unfold forClauses
  refine .bind (cursor.expect_reads .leftParen .forStart)
    (Cursor.expect_continues assignable .leftParen rfl)
    [.semicolon, .semicolon, .rightParen] ?_
    fun opening afterOpening _ leadsOpening _ => ?_
  · rintro _ more ⟨opening, rfl, openingKind⟩ same
    obtain ⟨first, rest, rfl, firstKind, restSame⟩ := same.cons
    obtain ⟨semicolon, last, rfl, semicolonKind, lastSame⟩ := restSame.cons
    obtain ⟨closing, rfl, closingKind⟩ := lastSame.single
    exact .of_parts keywordKind openingKind (.nothing firstKind) .nothing
      semicolonKind .nothing closingKind
  have assignableOpening := leadsOpening.assignable assignable
  refine .bind (initialClause_reads afterOpening)
    (initialClause_continues assignableOpening) [.semicolon, .rightParen] ?_
    fun initial afterInitial _ leadsInitial _ => ?_
  · rintro first more ⟨initial, derived⟩ same _ - ⟨rfl, openingKind⟩
    obtain ⟨semicolon, last, rfl, semicolonKind, lastSame⟩ := same.cons
    obtain ⟨closing, rfl, closingKind⟩ := lastSame.single
    rw [leadsOpening.room_eq] at derived
    have clauses :=
      IsClauses.of_parts keywordKind openingKind derived .nothing semicolonKind
        .nothing closingKind
    simpa using clauses
  have initialRoom := leadsOpening.trans leadsInitial
  have assignableInitial := initialRoom.assignable assignable
  refine .bind (optionalExpr_reads .semicolon afterInitial)
    (optionalExpr_continues .semicolon assignableInitial)
    [.semicolon, .rightParen] ?_
    fun condition afterCondition _ leadsCondition _ => ?_
  · rintro second more ⟨condition, conditionDerived⟩ same first -
      initialDerived _ - ⟨rfl, openingKind⟩
    obtain ⟨semicolon, last, rfl, semicolonKind, lastSame⟩ := same.cons
    obtain ⟨closing, rfl, closingKind⟩ := lastSame.single
    rw [leadsOpening.room_eq] at initialDerived
    rw [initialRoom.room_eq] at conditionDerived
    have clauses :=
      IsClauses.of_parts keywordKind openingKind initialDerived conditionDerived
        semicolonKind .nothing closingKind
    simpa using clauses
  have conditionRoom := initialRoom.trans leadsCondition
  refine .bind (afterCondition.expect_reads .semicolon .loopConditionEnd)
    (Cursor.expect_continues (conditionRoom.assignable assignable) .semicolon
      rfl) [.rightParen] ?_
    fun semicolon afterSemicolon _ leadsSemicolon _ => ?_
  · rintro _ more ⟨semicolon, rfl, semicolonKind⟩ same second -
      conditionDerived first - initialDerived _ - ⟨rfl, openingKind⟩
    obtain ⟨closing, rfl, closingKind⟩ := same.single
    rw [leadsOpening.room_eq] at initialDerived
    rw [initialRoom.room_eq] at conditionDerived
    have clauses :=
      IsClauses.of_parts keywordKind openingKind initialDerived conditionDerived
        semicolonKind .nothing closingKind
    simpa using clauses
  have incrementRoom := conditionRoom.trans leadsSemicolon
  have assignableIncrement := incrementRoom.assignable assignable
  refine Cursor.closed_continues assignableIncrement
    (optionalExpr_reads .rightParen afterSemicolon)
    (optionalExpr_continues .rightParen assignableIncrement)
    (fun _ _ derived => ⟨_, derived⟩) .rightParen rfl ?_
  rintro third closing ⟨increment, incrementDerived⟩ closingKind _ -
    ⟨rfl, semicolonKind⟩ second - conditionDerived first - initialDerived _ -
    ⟨rfl, openingKind⟩
  rw [leadsOpening.room_eq] at initialDerived
  rw [initialRoom.room_eq] at conditionDerived
  rw [incrementRoom.room_eq] at incrementDerived
  have clauses :=
    IsClauses.of_parts keywordKind openingKind initialDerived conditionDerived
      semicolonKind incrementDerived closingKind
  simpa using clauses

/-- The tokens of a condition in parentheses. -/
def IsCondition
    (room : Nat)
    (read : List Token) :
    Prop :=
  ∃ opening tokens closing value,
    read = opening :: tokens ++ [closing] ∧
      opening.kind = .leftParen ∧
      DerivesExpr .expression room tokens value ∧
      closing.kind = .rightParen

theorem isCondition_reads
    (start ending : Expectation)
    (cursor : Cursor) :
    (condition start ending cursor).Reads cursor 1 fun read _ =>
      IsCondition cursor.room read := by
  refine (condition_reads start ending cursor).weaken le_rfl ?_
  rintro read value ⟨opening, tokens, closing, parts⟩
  exact ⟨opening, tokens, closing, value, parts⟩

theorem condition_continues
    {start ending : Expectation}
    (noStringStart : (Problem.expected start).admitsString = false)
    (noStringEnd : (Problem.expected ending).admitsString = false)
    (assignable : Assignable cursor.rest) :
    (condition start ending cursor).Continues false cursor
      (IsCondition cursor.room) := by
  unfold condition
  refine .bind (cursor.expect_reads .leftParen start)
    (Cursor.expect_continues assignable .leftParen noStringStart)
    [.string, .rightParen] ?_ fun opening afterOpening _ leads _ => ?_
  · rintro _ more ⟨opening, rfl, openingKind⟩ same
    obtain ⟨string, last, rfl, stringKind, lastSame⟩ := same.cons
    obtain ⟨closing, rfl, closingKind⟩ := lastSame.single
    exact ⟨opening, [string], closing, _, rfl, openingKind,
      derives_string _ stringKind, closingKind⟩
  have assignableOpening := leads.assignable assignable
  refine Cursor.closed_continues assignableOpening (parse_reads afterOpening)
    (parse_continues afterOpening assignableOpening)
    (fun _ _ derived => ⟨_, derived⟩) .rightParen noStringEnd ?_
  rintro tokens closing ⟨value, derived⟩ closingKind _ - ⟨rfl, openingKind⟩
  rw [leads.room_eq] at derived
  exact ⟨_, tokens, closing, value, rfl, openingKind, derived, closingKind⟩

end Clauses

end Grammar

end Script
