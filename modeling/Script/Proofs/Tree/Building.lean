import Script.Proofs.Tree.Progress
import Script.Proofs.Tree.WellFormed
import Script.Tree.Program

namespace Script

/-!
# Trees that parsing builds

Every parsing function leads on, reads at least as many tokens as its construct
has, and builds a well-formed tree from the tokens that it reads.  This holds
whatever the tokens are: a construct with a problem in it is either given up or
continued in a way that keeps the tree well formed, so what survives recovery
can be analysed and run.
-/

namespace Expr.Parser

/-- What the functions for expressions build within a bound. -/
structure Build
    (known : Token → Prop)
    (fuel : Nat) :
    Prop where
  expression :
    ∀ cursor : Cursor,
      cursor.Knows known →
      (expression fuel cursor).Builds cursor 1 (WellFormed known)
  operation :
    ∀ (level : Nat) (cursor : Cursor),
      cursor.Knows known →
      (operation fuel level cursor).Builds cursor 1 (WellFormed known)
  operators :
    ∀ (level : Nat) (left : Expr) (cursor : Cursor),
      left.WellFormed known →
      cursor.Knows known →
      (operators fuel level left cursor).Builds cursor 0 (WellFormed known)
  operand :
    ∀ cursor : Cursor,
      cursor.Knows known →
      (operand fuel cursor).Builds cursor 1 (WellFormed known)
  trailers :
    ∀ (callee : Expr) (cursor : Cursor),
      callee.WellFormed known →
      cursor.Knows known →
      (trailers fuel callee cursor).Builds cursor 0 (WellFormed known)
  arguments :
    ∀ (collected : List Expr) (cursor : Cursor),
      (∀ argument ∈ collected, argument.WellFormed known) →
      cursor.Knows known →
      (arguments fuel collected cursor).Builds cursor 1
        fun arguments => ∀ argument ∈ arguments, argument.WellFormed known
  primary :
    ∀ cursor : Cursor,
      cursor.Knows known →
      (primary fuel cursor).Builds cursor 1 (WellFormed known)

variable {known : Token → Prop} {fuel : Nat}

/-- Without any bound left every function fails where it stands. -/
theorem build_zero : Build known 0 where
  expression cursor _ := by
    rw [Parser.expression]
    exact .refl cursor
  operation _ cursor _ := by
    rw [Parser.operation]
    exact .refl cursor
  operators _ _ cursor _ _ := by
    rw [Parser.operators]
    exact .refl cursor
  operand cursor _ := by
    rw [Parser.operand]
    exact .refl cursor
  trailers _ cursor _ _ := by
    rw [Parser.trailers]
    exact .refl cursor
  arguments _ cursor _ _ := by
    rw [Parser.arguments]
    exact .refl cursor
  primary cursor _ := by
    rw [Parser.primary]
    exact .refl cursor

/-- An assignment is built from a well-formed target and value. -/
theorem assignTo_builds
    {target value : Expr}
    (targetFormed : target.WellFormed known)
    (valueFormed : value.WellFormed known)
    (equals : Token)
    (cursor : Cursor) :
    (assignTo target equals value cursor).Builds cursor 0
      (WellFormed known) := by
  cases targetFormed with
  | reference nameKnown kind =>
      exact ⟨.refl cursor, le_rfl, .assign nameKnown kind valueFormed⟩
  | property object nameKnown kind =>
      exact ⟨.refl cursor, le_rfl,
        .setProperty object nameKnown kind valueFormed⟩
  | _ =>
      exact ⟨cursor.leads_report _ _, le_rfl, valueFormed⟩

/-- Operators join well-formed operands to well-formed expressions. -/
theorem join_wellFormed
    {left right : Expr}
    {operator : Token}
    {precedence : Nat}
    (leftFormed : left.WellFormed known)
    (operatorKnown : known operator)
    (kind : operator.kind.precedence? = some precedence)
    (rightFormed : right.WellFormed known) :
    (join left operator right).WellFormed known := by
  unfold join
  split
  · rename_i logical
    apply WellFormed.logical leftFormed operatorKnown _ rightFormed
    revert logical
    unfold TokenKind.isLogical
    split <;> simp_all [TokenKind.logicalOperators]
  · rename_i notLogical
    apply WellFormed.binary leftFormed operatorKnown _ rightFormed
    revert kind notLogical
    unfold TokenKind.precedence? TokenKind.isLogical
    split <;> simp [*, TokenKind.binaryOperators]

/-- The expression that a single token is. -/
theorem ofToken?_wellFormed
    {token : Token}
    {expr : Expr}
    (tokenKnown : known token)
    (shape : ofToken? token = some expr) :
    expr.WellFormed known := by
  unfold ofToken? at shape
  split at shape <;> cases shape
  case h_1 | h_2 | h_3 | h_4 | h_5 =>
    exact .literal _
  case h_6 kind =>
    exact .receiver tokenKnown kind
  case h_7 kind =>
    exact .reference tokenKnown kind

theorem countArgument_leads
    (collected : List Expr)
    (cursor : Cursor) :
    cursor.Leads (countArgument collected cursor) := by
  unfold countArgument
  split
  · exact cursor.leads_report _ _
  · exact .refl cursor

theorem expression_builds
    (smaller : Build known fuel)
    (cursor : Cursor)
    (knows : cursor.Knows known) :
    (expression (fuel + 1) cursor).Builds cursor 1 (WellFormed known) := by
  rw [expression]
  apply Step.Builds.bind (smaller.operation 0 cursor knows)
  intro target afterTarget leads targetFormed
  split
  · exact ⟨.refl _, le_rfl, targetFormed⟩
  · rename_i equals afterEquals accepted
    have equalsLeads := Cursor.leads_accept? accepted
    apply Step.Builds.after equalsLeads
    apply Step.Builds.bind
      (smaller.expression afterEquals
        ((leads.trans equalsLeads).knows knows)).loosen
    intro value afterValue _ valueFormed
    exact assignTo_builds targetFormed valueFormed equals afterValue

theorem operation_builds
    (smaller : Build known fuel)
    (level : Nat)
    (cursor : Cursor)
    (knows : cursor.Knows known) :
    (operation (fuel + 1) level cursor).Builds cursor 1
      (WellFormed known) := by
  rw [operation]
  apply Step.Builds.bind (smaller.operand cursor knows)
  intro left afterLeft leads leftFormed
  exact smaller.operators level left afterLeft leftFormed
    (leads.knows knows)

theorem operators_builds
    (smaller : Build known fuel)
    (level : Nat)
    (left : Expr)
    (cursor : Cursor)
    (leftFormed : left.WellFormed known)
    (knows : cursor.Knows known) :
    (operators (fuel + 1) level left cursor).Builds cursor 0
      (WellFormed known) := by
  rw [operators]
  split
  · exact ⟨.refl _, le_rfl, leftFormed⟩
  · rename_i operator rest shape
    have operatorKnown : known operator :=
      knows operator (by simp [shape])
    have leads := cursor.leads_rest shape
    split
    · exact ⟨.refl _, le_rfl, leftFormed⟩
    · rename_i precedence kind
      split
      · exact ⟨.refl _, le_rfl, leftFormed⟩
      · apply Step.Builds.after leads
        apply Step.Builds.bind
          (smaller.operation (precedence + 1) { cursor with rest }
            (leads.knows knows)).loosen
        intro right afterRight leadsRight rightFormed
        exact smaller.operators level (join left operator right) afterRight
          (join_wellFormed leftFormed operatorKnown kind rightFormed)
          ((leads.trans leadsRight).knows knows)

theorem operand_builds
    (smaller : Build known fuel)
    (cursor : Cursor)
    (knows : cursor.Knows known) :
    (operand (fuel + 1) cursor).Builds cursor 1 (WellFormed known) := by
  rw [operand]
  split
  · rename_i operator after accepted
    have acceptedKind :
        ∃ kind ∈ TokenKind.unaryOperators,
          cursor.accept? kind = some (operator, after) := by
      rcases Option.or_eq_some_iff.mp accepted with bang | ⟨-, minus⟩
      · exact ⟨.bang, by simp [TokenKind.unaryOperators], bang⟩
      · exact ⟨.minus, by simp [TokenKind.unaryOperators], minus⟩
    obtain ⟨kind, unary, acceptedKind⟩ := acceptedKind
    have operatorKind :=
      (Cursor.accept?_eq_some_iff.mp acceptedKind).1
    have operatorKnown := knows.accepted acceptedKind
    have leads := Cursor.leads_accept? acceptedKind
    apply Step.Builds.after leads
    apply Cursor.nested_builds
    intro inner innerRest
    have innerKnows : inner.Knows known := by
      intro token member
      exact leads.knows knows token (innerRest ▸ member)
    apply (smaller.operand inner innerKnows).map
    intro operand operandFormed
    exact .unary operatorKnown (operatorKind ▸ unary) operandFormed
  · apply Step.Builds.bind (smaller.primary cursor knows)
    intro callee afterCallee leads calleeFormed
    exact smaller.trailers callee afterCallee calleeFormed
      (leads.knows knows)

theorem trailers_builds
    (smaller : Build known fuel)
    (callee : Expr)
    (cursor : Cursor)
    (calleeFormed : callee.WellFormed known)
    (knows : cursor.Knows known) :
    (trailers (fuel + 1) callee cursor).Builds cursor 0
      (WellFormed known) := by
  rw [trailers]
  split
  · rename_i opening afterOpening accepted
    have leads := Cursor.leads_accept? accepted
    apply Step.Builds.after leads
    split
    · rename_i closing afterClosing closed
      have leadsClosing := Cursor.leads_accept? closed
      have closingKind := (Cursor.accept?_eq_some_iff.mp closed).1
      have closingKnown := (leads.knows knows).accepted closed
      apply Step.Builds.after leadsClosing
      exact smaller.trailers (.call callee closing []) afterClosing
        (.call calleeFormed closingKnown closingKind (by simp))
        ((leads.trans leadsClosing).knows knows)
    · apply Step.Builds.bind
        (smaller.arguments [] afterOpening (by simp)
          (leads.knows knows)).loosen
      intro arguments afterArguments leadsArguments argumentsFormed
      have knowsArguments := (leads.trans leadsArguments).knows knows
      apply Step.Builds.bind
        (afterArguments.expect_builds knowsArguments
          .rightParen .argumentsEnd).loosen
      intro closing afterClosing leadsClosing closingFormed
      exact smaller.trailers (.call callee closing arguments) afterClosing
        (.call calleeFormed closingFormed.1 closingFormed.2 argumentsFormed)
        (leadsClosing.knows knowsArguments)
  · split
    · rename_i dot afterDot accepted
      have leads := Cursor.leads_accept? accepted
      apply Step.Builds.after leads
      apply Step.Builds.bind
        (afterDot.expect_builds (leads.knows knows)
          .identifier .propertyName).loosen
      intro name afterName leadsName nameFormed
      exact smaller.trailers (.property callee name) afterName
        (.property calleeFormed nameFormed.1 nameFormed.2)
        ((leads.trans leadsName).knows knows)
    · exact ⟨.refl _, le_rfl, calleeFormed⟩

theorem arguments_builds
    (smaller : Build known fuel)
    (collected : List Expr)
    (cursor : Cursor)
    (collectedFormed :
      ∀ argument ∈ collected, argument.WellFormed known)
    (knows : cursor.Knows known) :
    (arguments (fuel + 1) collected cursor).Builds cursor 1
      fun arguments =>
        ∀ argument ∈ arguments, argument.WellFormed known := by
  rw [arguments]
  have leadsCount := countArgument_leads collected cursor
  apply Step.Builds.after leadsCount
  apply Step.Builds.bind
    (smaller.expression _ (leadsCount.knows knows))
  intro argument afterArgument leads argumentFormed
  have formed :
      ∀ item ∈ argument :: collected, item.WellFormed known := by
    intro item member
    rcases List.mem_cons.mp member with rfl | member
    · exact argumentFormed
    · exact collectedFormed item member
  split
  · rename_i comma afterComma accepted
    have leadsComma := Cursor.leads_accept? accepted
    apply Step.Builds.after leadsComma
    exact (smaller.arguments (argument :: collected) afterComma formed
      ((leadsCount.trans (leads.trans leadsComma)).knows knows)).loosen
  · exact ⟨.refl _, le_rfl,
      fun item member => formed item (List.mem_reverse.mp member)⟩

theorem primary_builds
    (smaller : Build known fuel)
    (cursor : Cursor)
    (knows : cursor.Knows known) :
    (primary (fuel + 1) cursor).Builds cursor 1 (WellFormed known) := by
  rw [primary]
  split
  · exact cursor.leads_report _ _
  · rename_i token rest shape
    have leads := cursor.leads_rest shape
    have length : rest.length + 1 ≤ cursor.rest.length := by
      simp [shape]
    have tokenKnown : known token := knows token (by simp [shape])
    split
    · rename_i expr single
      exact ⟨leads, length, ofToken?_wellFormed tokenKnown single⟩
    · split
      · apply Step.Builds.afterToken leads length
        apply Cursor.nested_builds
        intro inner innerRest
        have innerKnows : inner.Knows known := by
          intro token member
          exact leads.knows knows token (innerRest ▸ member)
        apply Step.Builds.bind (smaller.expression inner innerKnows).loosen
        intro expr afterExpr leadsExpr exprFormed
        apply (afterExpr.expect_builds (leadsExpr.knows innerKnows)
          .rightParen .groupEnd).loosen.map
        intro _ _
        exact .group exprFormed
      · exact cursor.leads_report _ _

/-- What the functions for expressions build, whatever the bound. -/
theorem build
    (known : Token → Prop)
    (fuel : Nat) :
    Build known fuel := by
  induction fuel with
  | zero =>
      exact build_zero
  | succ fuel smaller =>
      exact {
        expression := expression_builds smaller
        operation := operation_builds smaller
        operators := operators_builds smaller
        operand := operand_builds smaller
        trailers := trailers_builds smaller
        arguments := arguments_builds smaller
        primary := primary_builds smaller }

end Expr.Parser

/-- Parsing an expression reads a token and builds a well-formed tree. -/
theorem Expr.parse_builds
    {known : Token → Prop}
    {cursor : Cursor}
    (knows : cursor.Knows known) :
    (Expr.parse cursor).Builds cursor 1 (Expr.WellFormed known) :=
  (Expr.Parser.build known _).expression cursor knows

namespace Stmt.Parser

variable {known : Token → Prop} {fuel : Nat}

theorem optionalExpr_builds
    {cursor : Cursor}
    (knows : cursor.Knows known)
    (ending : TokenKind) :
    (optionalExpr ending cursor).Builds cursor 0
      fun value => ∀ expr ∈ value, Expr.WellFormed known expr := by
  unfold optionalExpr
  split
  · exact ⟨.refl cursor, le_rfl, by simp⟩
  · apply (Expr.parse_builds knows).loosen.map
    intro expr formed found member
    cases member
    exact formed

/-- Statements that declare nothing, which may stand in a branch. -/
def Branch
    (known : Token → Prop)
    (stmt : Stmt) :
    Prop :=
  stmt.WellFormed known ∧ stmt.declaredName? = none

/-- An expression and the token behind it make a statement. -/
theorem terminated_builds
    {cursor : Cursor}
    (knows : cursor.Knows known)
    (what : Expectation)
    {make : Expr → Stmt}
    (makes :
      ∀ expr, Expr.WellFormed known expr → Branch known (make expr)) :
    ((Expr.parse cursor).bind fun value cursor =>
      (cursor.expect .semicolon what).map fun _ => make value).Builds
        cursor 1 (Branch known) := by
  apply Step.Builds.bind (Expr.parse_builds knows)
  intro value afterValue leads formed
  apply (afterValue.expect_builds (leads.knows knows)
    .semicolon what).loosen.map
  intro _ _
  exact makes value formed

theorem expressionStatement_builds
    {cursor : Cursor}
    (knows : cursor.Knows known) :
    (expressionStatement cursor).Builds cursor 1 (Branch known) :=
  terminated_builds knows .expressionEnd
    fun _ formed => ⟨.expression formed, rfl⟩

theorem printStatement_builds
    {cursor : Cursor}
    (knows : cursor.Knows known) :
    (printStatement cursor).Builds cursor 1 (Branch known) :=
  terminated_builds knows .printEnd
    fun _ formed => ⟨.print formed, rfl⟩

theorem returnStatement_builds
    {cursor : Cursor}
    {keyword : Token}
    (keywordKnown : known keyword)
    (kind : keyword.kind = .keyword .returnWord)
    (knows : cursor.Knows known) :
    (returnStatement keyword cursor).Builds cursor 0 (Branch known) := by
  unfold returnStatement
  apply Step.Builds.bind (optionalExpr_builds knows .semicolon)
  intro value afterValue leads formed
  apply (afterValue.expect_builds (leads.knows knows)
    .semicolon .returnEnd).loosen.map
  intro _ _
  exact ⟨.returning keywordKnown kind formed, rfl⟩

/-- The value behind an equals sign, if there is one. -/
theorem initialValue_builds
    {cursor : Cursor}
    (knows : cursor.Knows known) :
    (match cursor.accept? .equal with
      | some (_, cursor) =>
          (Expr.parse cursor).map some
      | none =>
          .done none cursor).Builds cursor 0
        fun initial => ∀ value ∈ initial, Expr.WellFormed known value := by
  split
  · rename_i equals afterEquals accepted
    have leads := Cursor.leads_accept? accepted
    apply Step.Builds.after leads
    apply (Expr.parse_builds (leads.knows knows)).loosen.map
    intro expr formed found member
    cases member
    exact formed
  · exact ⟨.refl _, le_rfl, by simp⟩

theorem variableDeclaration_builds
    {cursor : Cursor}
    (knows : cursor.Knows known) :
    (variableDeclaration cursor).Builds cursor 1
      (Stmt.WellFormed known) := by
  unfold variableDeclaration
  apply Step.Builds.bind
    (cursor.expect_builds knows .identifier .variableName)
  intro name afterName leads nameFormed
  apply Step.Builds.bind (initialValue_builds (leads.knows knows))
  intro initial afterInitial leadsInitial initialFormed
  apply (afterInitial.expect_builds
    ((leads.trans leadsInitial).knows knows)
    .semicolon .variableEnd).loosen.map
  intro _ _
  exact .variableDecl nameFormed.1 nameFormed.2 initialFormed

theorem countParameter_leads
    (collected : List Token)
    (cursor : Cursor) :
    cursor.Leads (countParameter collected cursor) := by
  unfold countParameter
  split
  · exact cursor.leads_report _ _
  · exact .refl cursor

/-- Tokens that can be parameters. -/
def Names
    (known : Token → Prop)
    (names : List Token) :
    Prop :=
  ∀ name ∈ names, known name ∧ name.kind = .identifier

theorem parameterNames_builds
    (fuel : Nat)
    (collected : List Token)
    (cursor : Cursor)
    (collectedFormed : Names known collected)
    (knows : cursor.Knows known) :
    (parameterNames fuel collected cursor).Builds cursor 0
      (Names known) := by
  induction fuel generalizing collected cursor with
  | zero =>
      exact .refl cursor
  | succ fuel inductionHypothesis =>
      rw [parameterNames]
      have leadsCount := countParameter_leads collected cursor
      apply Step.Builds.after leadsCount
      apply Step.Builds.bind
        (Cursor.expect_builds (leadsCount.knows knows)
          .identifier .parameterName).loosen
      intro parameter afterParameter leads parameterFormed
      have formed : Names known (parameter :: collected) := by
        intro item member
        rcases List.mem_cons.mp member with rfl | member
        · exact parameterFormed
        · exact collectedFormed item member
      split
      · rename_i comma afterComma accepted
        have leadsComma := Cursor.leads_accept? accepted
        apply Step.Builds.after leadsComma
        exact inductionHypothesis (parameter :: collected) afterComma formed
          ((leadsCount.trans (leads.trans leadsComma)).knows knows)
      · exact ⟨.refl _, le_rfl,
          fun item member => formed item (List.mem_reverse.mp member)⟩

theorem functionHead_builds
    {cursor : Cursor}
    (knows : cursor.Knows known)
    (form : FunctionForm) :
    (functionHead form cursor).Builds cursor 1
      fun head =>
        (known head.1 ∧ head.1.kind = .identifier) ∧
          Names known head.2 := by
  unfold functionHead
  apply Step.Builds.bind
    (cursor.expect_builds knows .identifier (.functionName form))
  intro name afterName leads nameFormed
  apply Step.Builds.bind
    (afterName.expect_builds (leads.knows knows) .leftParen
      (.parametersStart form)).loosen
  intro opening afterOpening leadsOpening _
  have knowsOpening := (leads.trans leadsOpening).knows knows
  have parametersBuilds :
      (if afterOpening.sees .rightParen then
        .done [] afterOpening
      else
        parameterNames (afterOpening.rest.length + 1) []
          afterOpening).Builds afterOpening 0 (Names known) := by
    split
    · exact ⟨.refl _, le_rfl, by simp [Names]⟩
    · exact parameterNames_builds _ [] afterOpening (by simp [Names])
        knowsOpening
  apply Step.Builds.bind parametersBuilds
  intro parameters afterParameters leadsParameters parametersFormed
  apply (afterParameters.expect_builds
    (leadsParameters.knows knowsOpening)
    .rightParen .parametersEnd).loosen.map
  intro _ _
  exact ⟨nameFormed, parametersFormed⟩

theorem initialClause_builds
    {cursor : Cursor}
    (knows : cursor.Knows known) :
    (initialClause cursor).Builds cursor 0
      fun initial => ∀ stmt ∈ initial, stmt.WellFormed known := by
  unfold initialClause
  split
  · rename_i semicolon after accepted
    exact ⟨Cursor.leads_accept? accepted,
      (Cursor.leads_accept? accepted).length_le, by simp⟩
  · split
    · rename_i keyword after accepted
      have leads := Cursor.leads_accept? accepted
      apply Step.Builds.after leads
      apply (variableDeclaration_builds (leads.knows knows)).loosen.map
      intro stmt formed found member
      cases member
      exact formed
    · apply (expressionStatement_builds knows).loosen.map
      intro stmt formed found member
      cases member
      exact formed.1

/-- The parts of the head of a loop are well formed. -/
structure FormedClauses
    (known : Token → Prop)
    (clauses : ForClauses) :
    Prop where
  initial : ∀ stmt ∈ clauses.initial, stmt.WellFormed known
  condition : ∀ expr ∈ clauses.condition, expr.WellFormed known
  increment : ∀ expr ∈ clauses.increment, expr.WellFormed known

theorem forClauses_builds
    {cursor : Cursor}
    (knows : cursor.Knows known) :
    (forClauses cursor).Builds cursor 1 (FormedClauses known) := by
  unfold forClauses
  apply Step.Builds.bind (cursor.expect_builds knows .leftParen .forStart)
  intro _ afterOpening leads _
  have knowsOpening := leads.knows knows
  apply Step.Builds.bind (initialClause_builds knowsOpening)
  intro initial afterInitial leadsInitial initialFormed
  have knowsInitial := leadsInitial.knows knowsOpening
  apply Step.Builds.bind (optionalExpr_builds knowsInitial .semicolon)
  intro condition afterCondition leadsCondition conditionFormed
  have knowsCondition := leadsCondition.knows knowsInitial
  apply Step.Builds.bind
    (afterCondition.expect_builds knowsCondition .semicolon
      .loopConditionEnd).loosen
  intro _ afterSemicolon leadsSemicolon _
  have knowsSemicolon := leadsSemicolon.knows knowsCondition
  apply Step.Builds.bind (optionalExpr_builds knowsSemicolon .rightParen)
  intro increment afterIncrement leadsIncrement incrementFormed
  apply (afterIncrement.expect_builds
    (leadsIncrement.knows knowsSemicolon)
    .rightParen .forClausesEnd).loosen.map
  intro _ _
  exact ⟨initialFormed, conditionFormed, incrementFormed⟩

theorem condition_builds
    {cursor : Cursor}
    (knows : cursor.Knows known)
    (start ending : Expectation) :
    (condition start ending cursor).Builds cursor 1
      (Expr.WellFormed known) := by
  unfold condition
  apply Step.Builds.bind (cursor.expect_builds knows .leftParen start)
  intro _ afterOpening leads _
  apply Step.Builds.bind (Expr.parse_builds (leads.knows knows)).loosen
  intro value afterValue leadsValue formed
  apply (afterValue.expect_builds ((leads.trans leadsValue).knows knows)
    .rightParen ending).loosen.map
  intro _ _
  exact formed

/-- A loop that is written with blocks is well formed and declares nothing. -/
theorem unfold_branch
    {clauses : ForClauses}
    (clausesFormed : FormedClauses known clauses)
    {body : Stmt}
    (bodyFormed : Branch known body) :
    Branch known (clauses.unfold body) := by
  have conditionFormed :
      (clauses.condition.getD (.literal (.bool true))).WellFormed known := by
    cases shape : clauses.condition with
    | none =>
        exact .literal _
    | some expr =>
        exact clausesFormed.condition expr (by simp [shape])
  have iterationFormed : Branch known (clauses.iteration body) := by
    unfold ForClauses.iteration
    cases shape : clauses.increment with
    | none =>
        exact bodyFormed
    | some increment =>
        refine ⟨.block ?_, rfl⟩
        intro stmt member
        rcases List.mem_pair.mp member with rfl | rfl
        · exact bodyFormed.1
        · exact .expression
            (clausesFormed.increment increment (by simp [shape]))
  have loopFormed :
      Branch known
        (.loop (clauses.condition.getD (.literal (.bool true)))
          (clauses.iteration body)) :=
    ⟨.loop conditionFormed iterationFormed.1 iterationFormed.2, rfl⟩
  unfold ForClauses.unfold
  cases shape : clauses.initial with
  | none =>
      exact loopFormed
  | some initial =>
      refine ⟨.block ?_, rfl⟩
      intro stmt member
      rcases List.mem_pair.mp member with rfl | rfl
      · exact clausesFormed.initial _ (by simp [shape])
      · exact loopFormed.1

/-- What the functions for statements build within a bound. -/
structure Build
    (known : Token → Prop)
    (fuel : Nat) :
    Prop where
  declaration :
    ∀ cursor : Cursor,
      cursor.Knows known →
      (declaration fuel cursor).Builds cursor 1 (Stmt.WellFormed known)
  statement :
    ∀ cursor : Cursor,
      cursor.Knows known →
      (statement fuel cursor).Builds cursor 1 (Branch known)
  block :
    ∀ (opening : Token) (cursor : Cursor),
      cursor.Knows known →
      (block fuel opening cursor).Builds cursor 1
        fun body => ∀ stmt ∈ body, stmt.WellFormed known
  declarations :
    ∀ (inBlock : Bool) (collected : List Stmt) (cursor : Cursor),
      (∀ stmt ∈ collected, stmt.WellFormed known) →
      cursor.Knows known →
      cursor.Leads (declarations fuel inBlock collected cursor).2 ∧
        ∀ stmt ∈ (declarations fuel inBlock collected cursor).1,
          stmt.WellFormed known
  function :
    ∀ (form : FunctionForm) (cursor : Cursor),
      cursor.Knows known →
      (function fuel form cursor).Builds cursor 1
        (FunctionDecl.WellFormed known)
  classDeclaration :
    ∀ cursor : Cursor,
      cursor.Knows known →
      (classDeclaration fuel cursor).Builds cursor 1
        (Stmt.WellFormed known)
  methods :
    ∀ (collected : List FunctionDecl) (cursor : Cursor),
      (∀ method ∈ collected, method.WellFormed known) →
      cursor.Knows known →
      (methods fuel collected cursor).Builds cursor 0
        fun methods => ∀ method ∈ methods, method.WellFormed known

/-- Without any bound left every function stops where it stands. -/
theorem build_zero : Build known 0 where
  declaration cursor _ := by
    rw [Parser.declaration]
    exact .refl cursor
  statement cursor _ := by
    rw [Parser.statement]
    exact .refl cursor
  block _ cursor _ := by
    rw [Parser.block]
    exact .refl cursor
  declarations inBlock collected cursor formed _ := by
    rw [Parser.declarations]
    exact ⟨.refl cursor,
      fun stmt member => formed stmt (List.mem_reverse.mp member)⟩
  function _ cursor _ := by
    rw [Parser.function]
    exact .refl cursor
  classDeclaration cursor _ := by
    rw [Parser.classDeclaration]
    exact .refl cursor
  methods _ cursor _ _ := by
    rw [Parser.methods]
    exact .refl cursor

theorem declaration_builds
    (smaller : Build known fuel)
    (cursor : Cursor)
    (knows : cursor.Knows known) :
    (declaration (fuel + 1) cursor).Builds cursor 1
      (Stmt.WellFormed known) := by
  have asStatement :
      (statement fuel cursor).Builds cursor 1 (Stmt.WellFormed known) :=
    (smaller.statement cursor knows).weaken le_rfl
      fun _ formed => formed.1
  rw [declaration]
  split
  · exact asStatement
  · rename_i first rest shape
    have leads := cursor.leads_rest shape
    split
    · exact .after leads
        (smaller.classDeclaration { cursor with rest } (leads.knows knows))
    · apply Step.Builds.after leads
      apply (smaller.function .function { cursor with rest }
        (leads.knows knows)).map
      intro function formed
      exact .functionDecl formed.named formed.body
    · exact .after leads (variableDeclaration_builds (leads.knows knows))
    · exact asStatement

theorem statement_builds
    (smaller : Build known fuel)
    (cursor : Cursor)
    (knows : cursor.Knows known) :
    (statement (fuel + 1) cursor).Builds cursor 1 (Branch known) := by
  rw [statement]
  split
  · exact expressionStatement_builds knows
  · rename_i first rest shape
    have leads := cursor.leads_rest shape
    have knowsRest := leads.knows knows
    split
    · apply Step.Builds.after leads
      apply Step.Builds.bind (forClauses_builds knowsRest)
      intro clauses afterClauses leadsClauses clausesFormed
      apply (smaller.statement afterClauses
        (leadsClauses.knows knowsRest)).loosen.map
      intro body bodyFormed
      exact unfold_branch clausesFormed bodyFormed
    · apply Step.Builds.after leads
      apply Step.Builds.bind
        (condition_builds knowsRest .ifStart .ifConditionEnd)
      intro condition afterCondition leadsCondition conditionFormed
      have knowsCondition := leadsCondition.knows knowsRest
      apply Step.Builds.bind
        (smaller.statement afterCondition knowsCondition).loosen
      intro consequent afterConsequent leadsConsequent consequentFormed
      split
      · rename_i keyword afterElse accepted
        have leadsElse := Cursor.leads_accept? accepted
        apply Step.Builds.after leadsElse
        apply (smaller.statement afterElse
          ((leadsConsequent.trans leadsElse).knows knowsCondition)).loosen.map
        intro alternative alternativeFormed
        refine ⟨.conditional conditionFormed consequentFormed.1
          consequentFormed.2 ?_ ?_, rfl⟩
        · intro stmt member
          cases member
          exact alternativeFormed.1
        · intro stmt member
          cases member
          exact alternativeFormed.2
      · exact ⟨.refl _, le_rfl,
          .conditional conditionFormed consequentFormed.1
            consequentFormed.2 (by simp) (by simp), rfl⟩
    · exact .after leads (printStatement_builds knowsRest)
    · rename_i kind
      apply Step.Builds.afterToken leads (by simp [shape])
      exact returnStatement_builds (knows first (by simp [shape])) kind
        knowsRest
    · apply Step.Builds.after leads
      apply Step.Builds.bind
        (condition_builds knowsRest .whileStart .whileConditionEnd)
      intro condition afterCondition leadsCondition conditionFormed
      apply (smaller.statement afterCondition
        (leadsCondition.knows knowsRest)).loosen.map
      intro body bodyFormed
      exact ⟨.loop conditionFormed bodyFormed.1 bodyFormed.2, rfl⟩
    · apply Step.Builds.after leads
      apply (smaller.block first { cursor with rest } knowsRest).map
      intro body bodyFormed
      exact ⟨.block bodyFormed, rfl⟩
    · exact expressionStatement_builds knows

theorem block_builds
    (smaller : Build known fuel)
    (opening : Token)
    (cursor : Cursor)
    (knows : cursor.Knows known) :
    (block (fuel + 1) opening cursor).Builds cursor 1
      fun body => ∀ stmt ∈ body, stmt.WellFormed known := by
  rw [block]
  apply Cursor.nested_builds
  intro inner innerRest
  have innerKnows : inner.Knows known := by
    intro token member
    exact knows token (innerRest ▸ member)
  obtain ⟨leads, formed⟩ :=
    smaller.declarations true [] inner (by simp) innerKnows
  apply Step.Builds.after leads
  apply (Cursor.expect_builds (leads.knows innerKnows)
    .rightBrace .blockEnd).map
  intro _ _
  exact formed

theorem declarations_builds
    (smaller : Build known fuel)
    (inBlock : Bool)
    (collected : List Stmt)
    (cursor : Cursor)
    (collectedFormed : ∀ stmt ∈ collected, stmt.WellFormed known)
    (knows : cursor.Knows known) :
    cursor.Leads (declarations (fuel + 1) inBlock collected cursor).2 ∧
      ∀ stmt ∈ (declarations (fuel + 1) inBlock collected cursor).1,
        stmt.WellFormed known := by
  rw [declarations]
  split
  · exact ⟨.refl cursor,
      fun stmt member => collectedFormed stmt (List.mem_reverse.mp member)⟩
  · have built := smaller.declaration cursor knows
    split
    · rename_i stmt after shape
      rw [shape] at built
      obtain ⟨leads, -, stmtFormed⟩ := built
      have formed :
          ∀ item ∈ stmt :: collected, item.WellFormed known := by
        intro item member
        rcases List.mem_cons.mp member with rfl | member
        · exact stmtFormed
        · exact collectedFormed item member
      obtain ⟨leadsRest, restFormed⟩ :=
        smaller.declarations inBlock (stmt :: collected) after formed
          (leads.knows knows)
      exact ⟨leads.trans leadsRest, restFormed⟩
    · rename_i after shape
      rw [shape] at built
      have leads := built.trans after.leads_synchronize
      obtain ⟨leadsRest, restFormed⟩ :=
        smaller.declarations inBlock collected after.synchronize
          collectedFormed (leads.knows knows)
      exact ⟨leads.trans leadsRest, restFormed⟩

theorem function_builds
    (smaller : Build known fuel)
    (form : FunctionForm)
    (cursor : Cursor)
    (knows : cursor.Knows known) :
    (function (fuel + 1) form cursor).Builds cursor 1
      (FunctionDecl.WellFormed known) := by
  rw [function]
  apply Step.Builds.bind (functionHead_builds knows form)
  rintro ⟨name, parameters⟩ afterHead leads ⟨nameFormed, parametersFormed⟩
  have knowsHead := leads.knows knows
  apply Step.Builds.bind
    (afterHead.expect_builds knowsHead .leftBrace
      (.functionBody form)).loosen
  intro opening afterOpening leadsOpening _
  apply (smaller.block opening afterOpening
    (leadsOpening.knows knowsHead)).loosen.map
  intro body bodyFormed
  exact {
    named := {
      nameKnown := nameFormed.1
      nameKind := nameFormed.2
      parametersKnown :=
        fun parameter member => (parametersFormed parameter member).1
      parametersKind :=
        fun parameter member => (parametersFormed parameter member).2 }
    body := bodyFormed }

theorem classDeclaration_builds
    (smaller : Build known fuel)
    (cursor : Cursor)
    (knows : cursor.Knows known) :
    (classDeclaration (fuel + 1) cursor).Builds cursor 1
      (Stmt.WellFormed known) := by
  rw [classDeclaration]
  apply Step.Builds.bind
    (cursor.expect_builds knows .identifier .className)
  intro name afterName leads nameFormed
  have knowsName := leads.knows knows
  apply Step.Builds.bind
    (afterName.expect_builds knowsName .leftBrace .classBody).loosen
  intro _ afterOpening leadsOpening _
  have knowsOpening := leadsOpening.knows knowsName
  apply Step.Builds.bind
    (smaller.methods [] afterOpening (by simp) knowsOpening)
  intro methods afterMethods leadsMethods methodsFormed
  apply (afterMethods.expect_builds (leadsMethods.knows knowsOpening)
    .rightBrace .classEnd).loosen.map
  intro _ _
  exact .classDecl nameFormed.1 nameFormed.2
    (fun method member => (methodsFormed method member).named)
    (fun method member => (methodsFormed method member).body)

theorem methods_builds
    (smaller : Build known fuel)
    (collected : List FunctionDecl)
    (cursor : Cursor)
    (collectedFormed :
      ∀ method ∈ collected, method.WellFormed known)
    (knows : cursor.Knows known) :
    (methods (fuel + 1) collected cursor).Builds cursor 0
      fun methods => ∀ method ∈ methods, method.WellFormed known := by
  rw [methods]
  split
  · exact ⟨.refl cursor, le_rfl,
      fun method member =>
        collectedFormed method (List.mem_reverse.mp member)⟩
  · apply Step.Builds.bind (smaller.function .method cursor knows).loosen
    intro method after leads methodFormed
    apply smaller.methods (method :: collected) after _ (leads.knows knows)
    intro item member
    rcases List.mem_cons.mp member with rfl | member
    · exact methodFormed
    · exact collectedFormed item member

/-- What the functions for statements build, whatever the bound. -/
theorem build
    (known : Token → Prop)
    (fuel : Nat) :
    Build known fuel := by
  induction fuel with
  | zero =>
      exact build_zero
  | succ fuel smaller =>
      exact {
        declaration := declaration_builds smaller
        statement := statement_builds smaller
        block := block_builds smaller
        declarations := declarations_builds smaller
        function := function_builds smaller
        classDeclaration := classDeclaration_builds smaller
        methods := methods_builds smaller }

end Stmt.Parser

/-- The tokens at the start of a run are tokens of the list. -/
theorem Cursor.start_knows
    {known : Token → Prop}
    {tokens : List Token}
    (knows : ∀ token ∈ tokens, known token) :
    (Cursor.start tokens).Knows known := by
  intro token member
  exact knows token ((List.takeWhile_sublist _).subset member)

/-- The statements of a program are well formed, and their tokens satisfy what
all tokens of the list satisfy, whatever problems the list has. -/
theorem Program.statements_wellFormed
    {known : Token → Prop}
    {tokens : List Token}
    (knows : ∀ token ∈ tokens, known token)
    (stmt : Stmt)
    (member : stmt ∈ (Program.ofTokens tokens).statements) :
    stmt.WellFormed known := by
  have built :=
    (Stmt.Parser.build known
      (6 * (Cursor.start tokens).rest.length + 6)).declarations false []
      (Cursor.start tokens) (by simp) (Cursor.start_knows knows)
  exact built.2 stmt member

end Script
