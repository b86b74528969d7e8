import Script.Proofs.Mending.Step

namespace Script.Grammar

/-!
# Expressions that stop at the end of the input

Every function for expressions that stops at the end of the input has read the
beginning of its phrase.  What is missing is an operand, which a string stands
for, a name, or a closing parenthesis.
-/

/-- How the functions for expressions stop at the end of the input within a
sufficient bound. -/
structure ContinuesExpr (fuel : Nat) : Prop where
  expression :
    ∀ cursor : Cursor,
      Assignable cursor.rest →
      6 * cursor.rest.length + 4 ≤ fuel →
      (Expr.Parser.expression fuel cursor).Continues false cursor fun read =>
        ∃ tree, DerivesExpr .expression cursor.room read tree
  operation :
    ∀ (level : Nat) (cursor : Cursor),
      Assignable cursor.rest →
      level ≤ 6 →
      6 * cursor.rest.length + 3 ≤ fuel →
      (Expr.Parser.operation fuel level cursor).Continues false cursor
        fun read =>
          ∃ tree, DerivesExpr (.operation level) cursor.room read tree
  operators :
    ∀ (level : Nat) (left : Expr) (cursor : Cursor),
      Assignable cursor.rest →
      6 * cursor.rest.length + 1 ≤ fuel →
      (Expr.Parser.operators fuel level left cursor).Continues false cursor
        fun read =>
          ∀ before bound,
            bound ≤ 6 →
            StopsAbove bound cursor.rest →
            DerivesExpr (.operation bound) cursor.room before left →
            ∃ tree,
              DerivesExpr (.operation level) cursor.room (before ++ read) tree
  operand :
    ∀ cursor : Cursor,
      Assignable cursor.rest →
      6 * cursor.rest.length + 2 ≤ fuel →
      (Expr.Parser.operand fuel cursor).Continues false cursor fun read =>
        ∃ tree, DerivesExpr .operand cursor.room read tree
  trailers :
    ∀ (callee : Expr) (cursor : Cursor),
      Assignable cursor.rest →
      6 * cursor.rest.length + 1 ≤ fuel →
      (Expr.Parser.trailers fuel callee cursor).Continues false cursor
        fun read =>
          ∀ before,
            DerivesExpr .call cursor.room before callee →
            ∃ tree, DerivesExpr .call cursor.room (before ++ read) tree
  arguments :
    ∀ (collected : List Expr) (cursor : Cursor),
      Assignable cursor.rest →
      6 * cursor.rest.length + 5 ≤ fuel →
      (Expr.Parser.arguments fuel collected cursor).Continues false cursor
        fun read =>
          ∃ arguments,
            collected.length + arguments.length ≤ longestList ∧
              DerivesExpr .arguments cursor.room read arguments
  primary :
    ∀ cursor : Cursor,
      Assignable cursor.rest →
      6 * cursor.rest.length + 1 ≤ fuel →
      (Expr.Parser.primary fuel cursor).Continues false cursor fun read =>
        ∃ tree, DerivesExpr .primary cursor.room read tree

section

open Expr.Parser

variable {fuel : Nat}

/-- A target is assigned to; complaints about another one come in the middle of
the input. -/
theorem assignTo_continues
    {equals : Token}
    (equalsKind : equals.kind = .equal)
    (target value : Expr)
    (cursor : Cursor)
    (phrase : List Token → Prop) :
    (Expr.assignTo target equals value cursor).Continues false cursor
      phrase := by
  unfold Expr.assignTo
  split
  · exact .done _
  · exact .done _
  · exact .doneLoudly value (by simp [equalsKind]) (by simp)

/-- What is assigned to a target is an expression with the target. -/
theorem exists_assignment
    {room : Nat}
    {equals : Token}
    {targetTokens valueTokens : List Token}
    {target value : Expr}
    (equalsKind : equals.kind = .equal)
    (targetDerived : DerivesExpr (.operation 0) room targetTokens target)
    (isTarget : IsTarget target)
    (valueDerived : DerivesExpr .expression room valueTokens value) :
    ∃ tree,
      DerivesExpr .expression room (targetTokens ++ equals :: valueTokens)
        tree := by
  obtain ⟨names, properties⟩ := targetDerived.targetsOf
  cases target with
  | reference name distance =>
      obtain ⟨nameKind, rfl⟩ := names _ _ rfl
      exact ⟨_, .assignName nameKind equalsKind valueDerived⟩
  | property object name =>
      obtain ⟨before, dot, objectDerived, dotKind, nameKind, rfl⟩ :=
        properties _ _ rfl
      have assignment :=
        DerivesExpr.assignProperty objectDerived dotKind nameKind equalsKind
          valueDerived
      exact ⟨_, by simpa using assignment⟩
  | _ =>
      cases isTarget

theorem expression_continues
    (smaller : ContinuesExpr fuel)
    (cursor : Cursor)
    (assignable : Assignable cursor.rest)
    (enough : 6 * cursor.rest.length + 4 ≤ fuel + 1) :
    (expression (fuel + 1) cursor).Continues false cursor fun read =>
      ∃ tree, DerivesExpr .expression cursor.room read tree := by
  rw [Expr.Parser.expression]
  refine .bindWhole ((soundExpr fuel).operation 0 cursor (by omega) (by omega))
    (smaller.operation 0 cursor assignable (by omega) (by omega)) ?_
    fun target afterTarget _ leads length => ?_
  · rintro read ⟨tree, derived⟩
    exact ⟨tree, .operation derived⟩
  split
  · exact .done _
  · rename_i equals afterEquals accepted
    obtain ⟨equalsKind, equalsShape, -⟩ :=
      Cursor.accept?_eq_some_iff.mp accepted
    have leadsEquals := leads.trans (Cursor.leads_accept? accepted)
    have shorter := Cursor.length_accept? accepted
    refine .afterAccepted accepted ?_
    refine .bindWhole ((soundExpr fuel).expression afterEquals (by omega))
      (smaller.expression afterEquals (leadsEquals.assignable assignable)
        (by omega)) ?_
      fun value afterValue _ _ _ =>
        assignTo_continues equalsKind target value afterValue _
    rintro read ⟨value, valueDerived⟩ targetTokens targetShape targetDerived
    rw [equalsShape] at targetShape
    rw [leadsEquals.room_eq] at valueDerived
    have isTarget :=
      assignable.targets _ [] targetTokens _ _ _ targetShape equalsKind
        targetDerived
    exact exists_assignment equalsKind targetDerived isTarget valueDerived

theorem operation_continues
    (smaller : ContinuesExpr fuel)
    (level : Nat)
    (cursor : Cursor)
    (assignable : Assignable cursor.rest)
    (tight : level ≤ 6)
    (enough : 6 * cursor.rest.length + 3 ≤ fuel + 1) :
    (operation (fuel + 1) level cursor).Continues false cursor fun read =>
      ∃ tree, DerivesExpr (.operation level) cursor.room read tree := by
  rw [Expr.Parser.operation]
  refine .bindWhole ((soundExpr fuel).operand cursor (by omega))
    (smaller.operand cursor assignable (by omega)) ?_
    fun left afterLeft _ leads length => ?_
  · rintro read ⟨tree, derived⟩
    exact ⟨tree, (DerivesExpr.tightest derived).looser tight le_rfl⟩
  · refine (smaller.operators level left afterLeft
      (leads.assignable assignable) (by omega)).weaken ?_
    intro read grouped leftTokens _ leftDerived
    rw [leads.room_eq] at grouped
    refine grouped leftTokens 6 le_rfl ?_ (.tightest leftDerived)
    intro token rest precedence _ found
    unfold TokenKind.precedence? at found
    split at found <;> cases found <;> decide

theorem operators_continues
    (smaller : ContinuesExpr fuel)
    (level : Nat)
    (left : Expr)
    (cursor : Cursor)
    (assignable : Assignable cursor.rest)
    (enough : 6 * cursor.rest.length + 1 ≤ fuel + 1) :
    (operators (fuel + 1) level left cursor).Continues false cursor fun read =>
      ∀ before bound,
        bound ≤ 6 →
        StopsAbove bound cursor.rest →
        DerivesExpr (.operation bound) cursor.room before left →
        ∃ tree,
          DerivesExpr (.operation level) cursor.room (before ++ read) tree := by
  rw [Expr.Parser.operators]
  split
  · exact .done _
  · rename_i operator rest shape
    split
    · exact .done _
    · rename_i precedence found
      have member := precedence?_eq_some_iff.mp found
      have loose : precedence + 1 ≤ 6 := by
        unfold TokenKind.precedence? at found
        split at found <;> cases found <;> decide
      split
      · exact .done _
      · rename_i asked
        have shorter : rest.length + 1 = cursor.rest.length := by
          rw [shape, List.length_cons]
        have leadsRest := cursor.leads_rest shape
        -- The left operand, loosened to the level of the operator, is joined.
        have joins
            {before after : List Token}
            {bound : Nat}
            {right : Expr}
            (tight : bound ≤ 6)
            (stops : StopsAbove bound cursor.rest)
            (leftDerived : DerivesExpr (.operation bound) cursor.room before left)
            (rightDerived :
              DerivesExpr (.operation (precedence + 1)) cursor.room after
                right) :
            DerivesExpr (.operation precedence) cursor.room
              (before ++ operator :: after)
              (Expr.join left operator right) := by
          have loosened :=
            leftDerived.looser (stops operator rest precedence shape found)
              tight
          rw [join_eq_combine member]
          exact .join loosened member rightDerived
        refine .afterToken leadsRest shape rfl ?_
        refine .bindWhole
          ((soundExpr fuel).operation (precedence + 1) { cursor with rest }
            loose (by simp only; omega))
          (smaller.operation (precedence + 1) { cursor with rest }
            (leadsRest.assignable assignable) loose (by simp only; omega))
          ?_ fun right afterRight parsedRight leads _ => ?_
        · rintro read ⟨right, rightDerived⟩ before bound tight stops
            leftDerived
          have joined := joins tight stops leftDerived rightDerived
          exact ⟨_, joined.looser (by omega) (by omega)⟩
        · have shorterRight := leads.length_le
          have sameRoom : afterRight.room = cursor.room := leads.room_eq
          refine (smaller.operators level (Expr.join left operator right)
            afterRight ((leadsRest.trans leads).assignable assignable)
            (by simp only at shorterRight; omega)).weaken ?_
          intro read grouped rightTokens _ rightDerived before bound tight stops
            leftDerived
          rw [sameRoom] at grouped
          have joined := joins tight stops leftDerived rightDerived
          simpa using grouped _ precedence (by omega)
            (operation_stop parsedRight) joined

theorem operand_continues
    (smaller : ContinuesExpr fuel)
    (cursor : Cursor)
    (assignable : Assignable cursor.rest)
    (enough : 6 * cursor.rest.length + 2 ≤ fuel + 1) :
    (operand (fuel + 1) cursor).Continues false cursor fun read =>
      ∃ tree, DerivesExpr .operand cursor.room read tree := by
  rw [Expr.Parser.operand]
  split
  · rename_i operator after accepted
    obtain ⟨kind, unary, acceptedKind⟩ :
        ∃ kind,
          (kind = .bang ∨ kind = .minus) ∧
            cursor.accept? kind = some (operator, after) := by
      rcases Option.or_eq_some_iff.mp accepted with bang | ⟨-, minus⟩
      · exact ⟨.bang, .inl rfl, bang⟩
      · exact ⟨.minus, .inr rfl, minus⟩
    have operatorKind : operator.kind = .bang ∨ operator.kind = .minus :=
      (Cursor.accept?_eq_some_iff.mp acceptedKind).1 ▸ unary
    have shorter := Cursor.length_accept? acceptedKind
    have leads := Cursor.leads_accept? acceptedKind
    refine .afterAccepted acceptedKind ?_
    have inside :
        (after.nested operator fun inner =>
            (operand fuel inner).map (Expr.unary operator)).Continues false
          after fun read =>
            ∃ room,
              after.room = room + 1 ∧
                ∃ operand, DerivesExpr .operand room read operand := by
      refine Cursor.nested_continues
        (fun room read => ∃ operand, DerivesExpr .operand room read operand) ?_
        fun inner innerRest => ?_
      · rcases operatorKind with same | same <;> simp [same]
      · have innerLength := congrArg List.length innerRest
        exact (smaller.operand inner
          (innerRest ▸ leads.assignable assignable) (by omega)).map _
    refine inside.weaken ?_
    rintro read ⟨room, roomShape, operand, derived⟩
    rw [← leads.room_eq, roomShape]
    exact ⟨_, .unary operatorKind derived⟩
  · refine .bindWhole ((soundExpr fuel).primary cursor (by omega))
      (smaller.primary cursor assignable (by omega)) ?_
      fun callee afterCallee _ leads length => ?_
    · rintro read ⟨tree, derived⟩
      exact ⟨tree, .plain (.primary derived)⟩
    · refine (smaller.trailers callee afterCallee (leads.assignable assignable)
        (by omega)).weaken ?_
      intro read extended calleeTokens _ calleeDerived
      rw [leads.room_eq] at extended
      obtain ⟨tree, derived⟩ := extended calleeTokens (.primary calleeDerived)
      exact ⟨tree, .plain derived⟩

theorem trailers_continues
    (smaller : ContinuesExpr fuel)
    (callee : Expr)
    (cursor : Cursor)
    (assignable : Assignable cursor.rest)
    (enough : 6 * cursor.rest.length + 1 ≤ fuel + 1) :
    (trailers (fuel + 1) callee cursor).Continues false cursor fun read =>
      ∀ before,
        DerivesExpr .call cursor.room before callee →
        ∃ tree, DerivesExpr .call cursor.room (before ++ read) tree := by
  rw [Expr.Parser.trailers]
  split
  · rename_i opening afterOpening accepted
    have openingKind := (Cursor.accept?_eq_some_iff.mp accepted).1
    have shorter := Cursor.length_accept? accepted
    have leads := Cursor.leads_accept? accepted
    refine .afterAccepted accepted ?_
    split
    · rename_i closing afterClosing closed
      have closingKind := (Cursor.accept?_eq_some_iff.mp closed).1
      have shorterClosing := Cursor.length_accept? closed
      have leadsClosing := leads.trans (Cursor.leads_accept? closed)
      refine .afterAccepted closed ?_
      refine (smaller.trailers (.call callee closing []) afterClosing
        (leadsClosing.assignable assignable) (by omega)).weaken ?_
      intro read extended before calleeDerived
      rw [leadsClosing.room_eq] at extended
      simpa using
        extended _ (.callNothing calleeDerived openingKind closingKind)
    · refine .bind ((soundExpr fuel).arguments [] afterOpening (by omega))
        (smaller.arguments [] afterOpening (leads.assignable assignable)
          (by omega)) [.rightParen] ?_
        fun arguments afterArguments _ leadsArguments _ => ?_
      · rintro read more ⟨arguments, few, derived⟩ same before calleeDerived
        obtain ⟨closing, rfl, closingKind⟩ := same.single
        rw [leads.room_eq] at derived
        have call :=
          DerivesExpr.callArguments calleeDerived openingKind derived
            (by simpa using few) closingKind
        exact ⟨_, by simpa using call⟩
      have shorterArguments := leadsArguments.length_le
      have leadsEnd := leads.trans leadsArguments
      refine .bindWhole (afterArguments.expect_reads .rightParen .argumentsEnd)
        (Cursor.expect_continues (leadsEnd.assignable assignable) .rightParen
          rfl) ?_
        fun closing afterClosing _ leadsClosing _ => ?_
      · rintro _ ⟨closing, rfl, closingKind⟩ argumentTokens -
          ⟨_, rfl, few, argumentsDerived⟩ before calleeDerived
        rw [leads.room_eq] at argumentsDerived
        have call :=
          DerivesExpr.callArguments calleeDerived openingKind argumentsDerived
            (by simpa using few) closingKind
        exact ⟨_, by simpa using call⟩
      have shorterClosing := leadsClosing.length_le
      have leadsAll := leadsEnd.trans leadsClosing
      refine (smaller.trailers (.call callee closing arguments) afterClosing
        (leadsAll.assignable assignable) (by omega)).weaken ?_
      rintro read extended _ - ⟨rfl, closingKind⟩ argumentTokens -
        ⟨_, rfl, few, argumentsDerived⟩ before calleeDerived
      rw [leadsAll.room_eq] at extended
      rw [leads.room_eq] at argumentsDerived
      simpa using
        extended _ (.callArguments calleeDerived openingKind argumentsDerived
          (by simpa using few) closingKind)
  · split
    · rename_i dot afterDot accepted
      have dotKind := (Cursor.accept?_eq_some_iff.mp accepted).1
      have shorter := Cursor.length_accept? accepted
      have leads := Cursor.leads_accept? accepted
      refine .afterAccepted accepted ?_
      refine .bindWhole (afterDot.expect_reads .identifier .propertyName)
        (Cursor.expect_continues (leads.assignable assignable) .name rfl) ?_
        fun name afterName _ leadsName _ => ?_
      · rintro _ ⟨name, rfl, nameKind⟩ before calleeDerived
        exact ⟨_, .property calleeDerived dotKind nameKind⟩
      have shorterName := leadsName.length_le
      have leadsAll := leads.trans leadsName
      refine (smaller.trailers (.property callee name) afterName
        (leadsAll.assignable assignable) (by omega)).weaken ?_
      rintro read extended _ - ⟨rfl, nameKind⟩ before calleeDerived
      rw [leadsAll.room_eq] at extended
      simpa using
        extended _ (.property calleeDerived dotKind nameKind)
    · exact .done _

theorem arguments_continues
    (smaller : ContinuesExpr fuel)
    (collected : List Expr)
    (cursor : Cursor)
    (assignable : Assignable cursor.rest)
    (enough : 6 * cursor.rest.length + 5 ≤ fuel + 1) :
    (arguments (fuel + 1) collected cursor).Continues false cursor fun read =>
      ∃ arguments,
        collected.length + arguments.length ≤ longestList ∧
          DerivesExpr .arguments cursor.room read arguments := by
  rw [Expr.Parser.arguments]
  unfold Expr.countArgument
  generalize count :
    (if Cursor.maximalArguments ≤ collected.length then
      cursor.report cursor.peek .tooManyArguments
    else
      cursor) = counted
  refine Cursor.continues_unless count rfl fun sameRest sameRoom => ?_
  have sameLength := congrArg List.length sameRest
  rw [← sameRest] at assignable
  refine .bindWhole ((soundExpr fuel).expression counted (by omega))
    (smaller.expression counted assignable (by omega)) ?_
    fun argument afterArgument _ leads length => ?_
  · rintro read ⟨argument, argumentDerived⟩ space
    rw [← sameRoom]
    exact ⟨[argument], Nat.lt_of_not_le space, .lastArgument argumentDerived⟩
  split
  · rename_i comma afterComma accepted
    have commaKind := (Cursor.accept?_eq_some_iff.mp accepted).1
    have shorter := Cursor.length_accept? accepted
    have leadsComma := leads.trans (Cursor.leads_accept? accepted)
    refine .afterAccepted accepted ?_
    refine (smaller.arguments (argument :: collected) afterComma
      (leadsComma.assignable assignable) (by omega)).weaken ?_
    rintro read ⟨arguments, few, argumentsDerived⟩ first - argumentDerived -
    rw [leadsComma.room_eq, sameRoom] at argumentsDerived
    rw [sameRoom] at argumentDerived
    refine ⟨argument :: arguments, ?_,
      .moreArguments argumentDerived commaKind argumentsDerived⟩
    simp only [List.length_cons] at few ⊢
    omega
  · exact .done _

theorem primary_continues
    (smaller : ContinuesExpr fuel)
    (cursor : Cursor)
    (assignable : Assignable cursor.rest)
    (enough : 6 * cursor.rest.length + 1 ≤ fuel + 1) :
    (primary (fuel + 1) cursor).Continues false cursor fun read =>
      ∃ tree, DerivesExpr .primary cursor.room read tree := by
  rw [Expr.Parser.primary]
  split
  · refine .failedAtPeek assignable (by simp) [.string] (fun _ => rfl)
      fun more same => ?_
    obtain ⟨token, rfl, kind⟩ := same.single
    exact ⟨_, .literal (.inr kind)⟩
  · rename_i token rest shape
    have shorter : rest.length + 1 = cursor.rest.length := by
      rw [shape, List.length_cons]
    have elsewhere : token.kind ≠ .endOfInput :=
      assignable.noEnding token (by simp [shape])
    have leads := cursor.leads_rest shape
    split
    · exact .afterToken leads shape rfl (.done _)
    · split
      · rename_i openingKind
        refine .afterToken leads shape rfl ?_
        have inside :
            (Cursor.nested { cursor with rest } token fun inner =>
                (expression fuel inner).bind fun tree after =>
                  (after.expect .rightParen .groupEnd).map
                    fun _ => Expr.group tree).Continues false { cursor with rest }
              fun read =>
                ∃ room,
                  cursor.room = room + 1 ∧
                    ∃ tree,
                      DerivesExpr .primary (room + 1) (token :: read) tree := by
          refine Cursor.nested_continues
            (fun room read =>
              ∃ tree, DerivesExpr .primary (room + 1) (token :: read) tree)
            elsewhere fun inner innerRest => ?_
          have innerLength := congrArg List.length innerRest
          simp only at innerLength
          have assignableInner : Assignable inner.rest :=
            innerRest ▸ leads.assignable assignable
          refine Cursor.closed_continues assignableInner
            ((soundExpr fuel).expression inner (by omega))
            (smaller.expression inner assignableInner (by omega))
            (fun _ _ derived => ⟨_, derived⟩) .rightParen rfl ?_
          rintro tokens closing ⟨tree, derived⟩ closingKind
          exact ⟨_, .group openingKind derived closingKind⟩
        refine inside.weaken ?_
        rintro read ⟨room, roomShape, tree, derived⟩
        rw [roomShape]
        exact ⟨tree, derived⟩
      · exact .failedAtToken elsewhere (by simp)

end

/-- Within a sufficient bound all functions for expressions that stop at the end
of the input have read the beginning of their phrase. -/
theorem continuesExpr (fuel : Nat) : ContinuesExpr fuel := by
  induction fuel with
  | zero =>
      constructor <;> intros <;> omega
  | succ fuel inductionHypothesis =>
      exact
        { expression := expression_continues inductionHypothesis
          operation := operation_continues inductionHypothesis
          operators := operators_continues inductionHypothesis
          operand := operand_continues inductionHypothesis
          trailers := trailers_continues inductionHypothesis
          arguments := arguments_continues inductionHypothesis
          primary := primary_continues inductionHypothesis }

/-- An expression that stops at the end of the input is the beginning of one. -/
theorem parse_continues
    (cursor : Cursor)
    (assignable : Assignable cursor.rest) :
    (Expr.parse cursor).Continues false cursor fun read =>
      ∃ tree, DerivesExpr .expression cursor.room read tree :=
  (continuesExpr _).expression cursor assignable (by omega)

end Script.Grammar
