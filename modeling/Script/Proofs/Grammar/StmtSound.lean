import Script.Proofs.Grammar.ExprSound
import Script.Proofs.Grammar.StmtComplete

namespace Script.Grammar

/-!
# Every parsed program is derived

What the parser reads without a problem is a program in which every `else`
belongs to the nearest conditional: behind a dangling consequent the parser would
have taken the `else` for the inner conditional already.
-/

section Clauses

open Stmt.Parser

theorem optionalExpr_reads
    (ending : TokenKind)
    (cursor : Cursor) :
    (optionalExpr ending cursor).Reads cursor 0
      (DerivesOptional cursor.room) := by
  unfold optionalExpr
  split
  · exact .done .nothing
  · exact (parse_reads cursor).loosen.map
      fun read value derived => .something derived

/-- An expression and its semicolon are a statement, also as the first clause of
a loop. -/
theorem expressionStatement_reads (cursor : Cursor) :
    (expressionStatement cursor).Reads cursor 1 fun read value =>
      Derives true (.statement false) cursor.room read value ∧
        DerivesInitial cursor.room read (some value) := by
  unfold expressionStatement
  refine (parse_reads cursor).bind fun value afterValue _ _ _ => ?_
  refine (afterValue.expect_reads .semicolon .expressionEnd).loosen.map ?_
  rintro _ semicolon ⟨rfl, kind⟩ tokens - derived
  exact ⟨.expression derived kind, .expression derived kind⟩

theorem printStatement_reads
    {keyword : Token}
    (keywordKind : keyword.kind = .keyword .printWord)
    (cursor : Cursor) :
    (printStatement cursor).Reads cursor 1 fun read value =>
      Derives true (.statement false) cursor.room (keyword :: read) value := by
  unfold printStatement
  refine (parse_reads cursor).bind fun value afterValue _ _ _ => ?_
  refine (afterValue.expect_reads .semicolon .printEnd).loosen.map ?_
  rintro _ semicolon ⟨rfl, kind⟩ tokens - derived
  exact .print keywordKind derived kind

theorem returnStatement_reads
    {keyword : Token}
    (keywordKind : keyword.kind = .keyword .returnWord)
    (cursor : Cursor) :
    (returnStatement keyword cursor).Reads cursor 0 fun read value =>
      Derives true (.statement false) cursor.room (keyword :: read) value := by
  unfold returnStatement
  refine (optionalExpr_reads .semicolon cursor).bind
    fun value afterValue _ _ _ => ?_
  refine (afterValue.expect_reads .semicolon .returnEnd).loosen.map ?_
  rintro _ semicolon ⟨rfl, kind⟩ tokens - derived
  exact .returning keywordKind derived kind

theorem variableDeclaration_reads
    {keyword : Token}
    (keywordKind : keyword.kind = .keyword .varWord)
    (cursor : Cursor) :
    (variableDeclaration cursor).Reads cursor 1 fun read value =>
      DerivesVariable cursor.room (keyword :: read) value := by
  unfold variableDeclaration
  refine (cursor.expect_reads .identifier .variableName).bind
    fun name afterName _ leads _ => ?_
  split
  · rename_i equals afterEquals accepted
    have equalsKind := (Cursor.accept?_eq_some_iff.mp accepted).1
    have sameRoom :=
      (leads.trans (Cursor.leads_accept? accepted)).room_eq
    refine (Step.Reads.afterAccepted accepted ?_).loosen
    have initialReads :
        ((Expr.parse afterEquals).map some).Reads afterEquals 1
          fun read initial =>
            ∃ tree,
              initial = some tree ∧
                DerivesExpr .expression afterEquals.room read tree :=
      (parse_reads afterEquals).map
        fun read value derived => ⟨value, rfl, derived⟩
    refine initialReads.loosen.bind fun initial afterInitial _ _ _ => ?_
    refine (afterInitial.expect_reads .semicolon .variableEnd).loosen.map ?_
    rintro _ semicolon ⟨rfl, kind⟩ tokens - ⟨tree, rfl, derived⟩ _ -
      ⟨rfl, nameKind⟩
    exact .initialized keywordKind nameKind equalsKind (sameRoom ▸ derived)
      kind
  · refine (afterName.expect_reads .semicolon .variableEnd).loosen.map ?_
    rintro _ semicolon ⟨rfl, kind⟩ _ - ⟨rfl, nameKind⟩
    exact .bare keywordKind nameKind kind

theorem parameterNames_reads
    (fuel : Nat)
    (collected : List Token)
    (cursor : Cursor)
    (enough : cursor.rest.length + 1 ≤ fuel) :
    (parameterNames fuel collected cursor).Reads cursor 1
      fun read values =>
        ∃ names,
          values = collected.reverse ++ names ∧
            collected.length + names.length ≤ longestList ∧
            DerivesParameters read names := by
  induction fuel generalizing collected cursor with
  | zero =>
      omega
  | succ fuel inductionHypothesis =>
      rw [parameterNames]
      unfold countParameter
      generalize count :
        (if Cursor.maximalArguments ≤ collected.length then
          cursor.report cursor.peek .tooManyParameters
        else
          cursor) = counted
      refine Cursor.reads_unless count fun sameRest _ => ?_
      have sameLength := congrArg List.length sameRest
      refine (counted.expect_reads .identifier .parameterName).bind
        fun parameter afterParameter _ _ length => ?_
      split
      · rename_i comma afterComma accepted
        have commaKind := (Cursor.accept?_eq_some_iff.mp accepted).1
        have shorter := Cursor.length_accept? accepted
        refine (Step.Reads.afterAccepted accepted ?_).loosen
        refine (inductionHypothesis (parameter :: collected) afterComma
          (by omega)).weaken (Nat.zero_le 1) ?_
        rintro read values ⟨names, rfl, few, derived⟩ _ - ⟨rfl, kind⟩ -
        refine ⟨parameter :: names, by simp, ?_,
          .more kind commaKind derived⟩
        simp only [List.length_cons] at few ⊢
        omega
      · refine .done ?_
        rintro _ - ⟨rfl, kind⟩ space
        exact ⟨[parameter], by simp, Nat.lt_of_not_le space, .last kind⟩

theorem functionHead_reads
    (form : FunctionForm)
    (cursor : Cursor) :
    (functionHead form cursor).Reads cursor 1 fun read head =>
      ∃ opening list closing,
        read = head.1 :: opening :: list ++ [closing] ∧
          head.1.kind = .identifier ∧
          opening.kind = .leftParen ∧
          DerivesParameterList list head.2 ∧
          closing.kind = .rightParen := by
  unfold functionHead
  refine (cursor.expect_reads .identifier (.functionName form)).bind
    fun name afterName _ _ _ => ?_
  refine (afterName.expect_reads .leftParen
    (.parametersStart form)).loosen.bind fun opening afterOpening _ _ _ => ?_
  have parameters :
      (if afterOpening.sees .rightParen then
          Step.done [] afterOpening
        else
          parameterNames (afterOpening.rest.length + 1) []
            afterOpening).Reads afterOpening 0 DerivesParameterList := by
    split
    · exact .done .nothing
    · refine (parameterNames_reads _ [] afterOpening le_rfl).weaken
        (Nat.zero_le 1) ?_
      rintro read values ⟨names, rfl, few, derived⟩
      exact .something derived (by simpa using few)
  refine parameters.bind fun names afterNames _ _ _ => ?_
  refine (afterNames.expect_reads .rightParen .parametersEnd).loosen.map ?_
  rintro _ closing ⟨rfl, closingKind⟩ list - listDerived _ -
    ⟨rfl, openingKind⟩ _ - ⟨rfl, nameKind⟩
  exact ⟨opening, list, closing, rfl, nameKind, openingKind, listDerived,
    closingKind⟩

theorem initialClause_reads (cursor : Cursor) :
    (initialClause cursor).Reads cursor 1
      (DerivesInitial cursor.room) := by
  unfold initialClause
  split
  · rename_i semicolon after accepted
    have kind := (Cursor.accept?_eq_some_iff.mp accepted).1
    exact .afterAccepted accepted (.done (.nothing kind))
  · split
    · rename_i keyword after accepted
      have kind := (Cursor.accept?_eq_some_iff.mp accepted).1
      have sameRoom := (Cursor.leads_accept? accepted).room_eq
      refine .afterAccepted accepted ?_
      refine (variableDeclaration_reads kind after).loosen.map ?_
      intro read value derived
      exact .declared (sameRoom ▸ derived)
    · exact (expressionStatement_reads cursor).map
        fun read value derived => derived.2

/-- The clauses of a `for` loop before its body. -/
theorem forClauses_reads
    {keyword : Token}
    (keywordKind : keyword.kind = .keyword .forWord)
    (cursor : Cursor) :
    (forClauses cursor).Reads cursor 1 fun read clauses =>
      ∀ nearest dangling rest body,
        Derives nearest (.statement dangling) cursor.room rest body →
        Derives nearest (.statement dangling) cursor.room
          (keyword :: read ++ rest) (clauses.unfold body) := by
  unfold forClauses
  refine (cursor.expect_reads .leftParen .forStart).bind
    fun opening afterOpening _ leadsOpening _ => ?_
  refine (initialClause_reads afterOpening).loosen.bind
    fun initial afterInitial _ leadsInitial _ => ?_
  refine (optionalExpr_reads .semicolon afterInitial).bind
    fun condition afterCondition _ leadsCondition _ => ?_
  refine (afterCondition.expect_reads .semicolon
    .loopConditionEnd).loosen.bind
    fun semicolon afterSemicolon _ leadsSemicolon _ => ?_
  refine (optionalExpr_reads .rightParen afterSemicolon).bind
    fun increment afterIncrement _ _ _ => ?_
  refine (afterIncrement.expect_reads .rightParen .forClausesEnd).loosen.map ?_
  rintro _ closing ⟨rfl, closingKind⟩ third - incrementDerived _ -
    ⟨rfl, semicolonKind⟩ second - conditionDerived first - initialDerived _ -
    ⟨rfl, openingKind⟩ nearest dangling rest body bodyDerived
  have initialRoom := leadsOpening.trans leadsInitial
  have incrementRoom :=
    initialRoom.trans (leadsCondition.trans leadsSemicolon)
  rw [leadsOpening.room_eq] at initialDerived
  rw [initialRoom.room_eq] at conditionDerived
  rw [incrementRoom.room_eq] at incrementDerived
  rw [unfold_eq_forLoop]
  simpa using Derives.forLoop keywordKind openingKind initialDerived
    conditionDerived semicolonKind incrementDerived closingKind bodyDerived

theorem condition_reads
    (start ending : Expectation)
    (cursor : Cursor) :
    (condition start ending cursor).Reads cursor 1 fun read value =>
      ∃ opening tokens closing,
        read = opening :: tokens ++ [closing] ∧
          opening.kind = .leftParen ∧
          DerivesExpr .expression cursor.room tokens value ∧
          closing.kind = .rightParen := by
  unfold condition
  refine (cursor.expect_reads .leftParen start).bind
    fun opening afterOpening _ leads _ => ?_
  refine (parse_reads afterOpening).loosen.bind
    fun value afterValue _ _ _ => ?_
  refine (afterValue.expect_reads .rightParen ending).loosen.map ?_
  rintro _ closing ⟨rfl, closingKind⟩ tokens - derived _ -
    ⟨rfl, openingKind⟩
  exact ⟨opening, tokens, closing, rfl, openingKind, leads.room_eq ▸ derived,
    closingKind⟩

end Clauses

/-- A statement was read; if it is dangling, no `else` is next. -/
def ReadsStatement
    (cursor : Cursor)
    (read : List Token)
    (value : Stmt) :
    Prop :=
  ∀ tail,
    cursor.rest = read ++ tail →
    ∃ dangling,
      Derives true (.statement dangling) cursor.room read value ∧
        (dangling = true → NoElse tail)

/-- What the functions for declarations read within a sufficient bound. -/
structure Sound (fuel : Nat) : Prop where
  declaration :
    ∀ cursor : Cursor,
      6 * cursor.rest.length + 2 ≤ fuel →
      (Stmt.Parser.declaration fuel cursor).Reads cursor 1
        (Derives true .declaration cursor.room)
  statement :
    ∀ cursor : Cursor,
      6 * cursor.rest.length + 1 ≤ fuel →
      (Stmt.Parser.statement fuel cursor).Reads cursor 1
        (ReadsStatement cursor)
  block :
    ∀ (opening : Token) (cursor : Cursor),
      6 * cursor.rest.length + 4 ≤ fuel →
      (Stmt.Parser.block fuel opening cursor).Reads cursor 0
        fun read value =>
          ∃ room tokens closing,
            cursor.room = room + 1 ∧
              read = tokens ++ [closing] ∧
              Derives true .declarations room tokens value ∧
              closing.kind = .rightBrace
  declarations :
    ∀ (inBlock : Bool) (collected : List Stmt) (cursor : Cursor)
        (statements : List Stmt) (after : Cursor),
      6 * cursor.rest.length + 3 ≤ fuel →
      Stmt.Parser.declarations fuel inBlock collected cursor =
        (statements, after) →
      (Step.done statements after).Reads cursor 0
        fun read values =>
          (∃ trees,
            values = collected.reverse ++ trees ∧
              Derives true .declarations cursor.room read trees) ∧
          (inBlock = false → cursor.rest = read)
  function :
    ∀ (form : FunctionForm) (cursor : Cursor),
      6 * cursor.rest.length + 1 ≤ fuel →
      (Stmt.Parser.function fuel form cursor).Reads cursor 1
        (Derives true .function cursor.room)
  classDeclaration :
    ∀ (keyword : Token) (cursor : Cursor),
      keyword.kind = .keyword .classWord →
      6 * cursor.rest.length + 1 ≤ fuel →
      (Stmt.Parser.classDeclaration fuel cursor).Reads cursor 1
        fun read value =>
          Derives true .declaration cursor.room (keyword :: read) value
  methods :
    ∀ (collected : List FunctionDecl) (cursor : Cursor),
      6 * cursor.rest.length + 2 ≤ fuel →
      (Stmt.Parser.methods fuel collected cursor).Reads cursor 0
        fun read values =>
          ∃ trees,
            values = collected.reverse ++ trees ∧
              Derives true .methods cursor.room read trees

namespace ReadsStatement

variable {cursor : Cursor}

/-- A statement that is not dangling may have anything behind it. -/
theorem of_closed
    {read : List Token}
    {value : Stmt}
    (derived : Derives true (.statement false) cursor.room read value) :
    ReadsStatement cursor read value :=
  fun _ _ => ⟨false, derived, by simp⟩

/-- A statement that ends in the statement read behind its head is as dangling as
that one. -/
theorem extend
    {after : Cursor}
    {body : List Token}
    {inner : Stmt}
    (head : List Token)
    (value : Stmt)
    (shape : cursor.rest = head ++ after.rest)
    (room : after.room = cursor.room)
    (reads : ReadsStatement after body inner)
    (wrap :
      ∀ dangling,
        Derives true (.statement dangling) cursor.room body inner →
        Derives true (.statement dangling) cursor.room (head ++ body) value) :
    ReadsStatement cursor (head ++ body) value := by
  intro tail tailShape
  rw [shape, List.append_assoc, List.append_cancel_left_eq] at tailShape
  obtain ⟨dangling, derived, noElse⟩ := reads tail tailShape
  exact ⟨dangling, wrap dangling (room ▸ derived), noElse⟩

end ReadsStatement

section Statements

open Stmt.Parser

variable {fuel : Nat}

theorem declaration_reads
    (smaller : Sound fuel)
    (cursor : Cursor)
    (enough : 6 * cursor.rest.length + 2 ≤ fuel + 1) :
    (declaration (fuel + 1) cursor).Reads cursor 1
      (Derives true .declaration cursor.room) := by
  have statementReads :
      (statement fuel cursor).Reads cursor 1
        (Derives true .declaration cursor.room) := by
    refine (smaller.statement cursor (by omega)).locate ?_
    intro read value tail shape holds
    obtain ⟨dangling, derived, -⟩ := holds tail shape
    exact .statement derived
  rw [Stmt.Parser.declaration]
  split
  · exact statementReads
  · rename_i first rest shape
    have shorter : rest.length + 1 = cursor.rest.length := by
      rw [shape, List.length_cons]
    split
    · rename_i kind
      exact .afterToken (cursor.leads_rest shape) shape rfl
        (smaller.classDeclaration first { cursor with rest } kind
          (by simp only; omega)).loosen
    · rename_i kind
      refine .afterToken (cursor.leads_rest shape) shape rfl ?_
      refine (smaller.function .function { cursor with rest }
        (by simp only; omega)).loosen.map ?_
      intro read value derived
      exact .functionDecl kind derived
    · rename_i kind
      refine .afterToken (cursor.leads_rest shape) shape rfl ?_
      refine (variableDeclaration_reads kind { cursor with rest }).weaken
        (Nat.zero_le 1) ?_
      intro read value derived
      exact .variableDecl derived
    · exact statementReads

/-- The loop behind the keyword `for`. -/
theorem forStatement_reads
    (smaller : Sound fuel)
    {cursor : Cursor}
    {keyword : Token}
    {rest : List Token}
    (keywordKind : keyword.kind = .keyword .forWord)
    (shape : cursor.rest = keyword :: rest)
    (enough : 6 * cursor.rest.length ≤ fuel) :
    ((forClauses { cursor with rest }).bind fun clauses cursor =>
        (statement fuel cursor).map clauses.unfold).Reads cursor 1
      (ReadsStatement cursor) := by
  have shorter : rest.length + 1 = cursor.rest.length := by
    rw [shape, List.length_cons]
  refine .afterToken (cursor.leads_rest shape) shape rfl ?_
  refine (forClauses_reads keywordKind { cursor with rest }).loosen.bind
    fun clauses after _ leads length => ?_
  simp only at length
  refine (smaller.statement after (by omega)).loosen.map ?_
  intro read body bodyReads head headShape wrap
  simp only at headShape
  exact bodyReads.extend (keyword :: head) (clauses.unfold body)
    (by rw [shape, headShape, List.cons_append]) leads.room_eq
    fun dangling derived => wrap true dangling read body derived

/-- The loop behind the keyword `while`. -/
theorem whileStatement_reads
    (smaller : Sound fuel)
    {cursor : Cursor}
    {keyword : Token}
    {rest : List Token}
    (keywordKind : keyword.kind = .keyword .whileWord)
    (shape : cursor.rest = keyword :: rest)
    (enough : 6 * cursor.rest.length ≤ fuel) :
    ((condition .whileStart .whileConditionEnd { cursor with rest }).bind
        fun condition cursor =>
          (statement fuel cursor).map (Stmt.loop condition)).Reads cursor 1
      (ReadsStatement cursor) := by
  have shorter : rest.length + 1 = cursor.rest.length := by
    rw [shape, List.length_cons]
  refine .afterToken (cursor.leads_rest shape) shape rfl ?_
  refine (condition_reads _ _ { cursor with rest }).loosen.bind
    fun condition after _ leads length => ?_
  simp only at length
  refine (smaller.statement after (by omega)).loosen.map ?_
  rintro read body bodyReads _ headShape
    ⟨opening, tokens, closing, rfl, openingKind, derived, closingKind⟩
  simp only at headShape
  refine bodyReads.extend (keyword :: (opening :: tokens ++ [closing]))
    (.loop condition body) (by simp [shape, headShape]) leads.room_eq
    fun dangling bodyDerived => ?_
  simpa using Derives.whileLoop keywordKind openingKind derived closingKind
    bodyDerived

/-- The conditional behind its keyword.  When an `else` follows the consequent,
the consequent is not dangling. -/
theorem ifStatement_reads
    (smaller : Sound fuel)
    {cursor : Cursor}
    {keyword : Token}
    {rest : List Token}
    (keywordKind : keyword.kind = .keyword .ifWord)
    (shape : cursor.rest = keyword :: rest)
    (enough : 6 * cursor.rest.length ≤ fuel) :
    ((condition .ifStart .ifConditionEnd { cursor with rest }).bind
        fun condition cursor =>
          (statement fuel cursor).bind fun consequent cursor =>
            match cursor.accept? (.keyword .elseWord) with
            | some (_, cursor) =>
                (statement fuel cursor).map fun alternative =>
                  Stmt.conditional condition consequent (some alternative)
            | none =>
                .done (.conditional condition consequent none) cursor).Reads
      cursor 1 (ReadsStatement cursor) := by
  have shorter : rest.length + 1 = cursor.rest.length := by
    rw [shape, List.length_cons]
  refine .afterToken (cursor.leads_rest shape) shape rfl ?_
  refine (condition_reads _ _ { cursor with rest }).loosen.bind
    fun condition after _ leads length => ?_
  simp only at length
  refine (smaller.statement after (by omega)).loosen.bind
    fun consequent afterConsequent _ leadsConsequent lengthConsequent => ?_
  split
  · rename_i elseWord afterElse accepted
    obtain ⟨elseKind, elseShape, -⟩ := Cursor.accept?_eq_some_iff.mp accepted
    have shorterElse := Cursor.length_accept? accepted
    have room : afterElse.room = cursor.room :=
      (leads.trans
        (leadsConsequent.trans (Cursor.leads_accept? accepted))).room_eq
    have consequentRoom : after.room = cursor.room := leads.room_eq
    refine (Step.Reads.afterAccepted accepted ?_).loosen
    refine (smaller.statement afterElse (by omega)).loosen.map ?_
    rintro read alternative alternativeReads before beforeShape
      consequentReads _ headShape
      ⟨opening, tokens, closing, rfl, openingKind, derived, closingKind⟩
    simp only at headShape
    obtain ⟨openEnd, consequentDerived, noElse⟩ :=
      consequentReads afterConsequent.rest beforeShape
    have closedEnd : openEnd = false := by
      cases openEnd with
      | false =>
          rfl
      | true =>
          exact (noElse rfl elseWord _ elseShape elseKind).elim
    have whole :=
      alternativeReads.extend
        (keyword ::
          (opening :: tokens ++ [closing] ++ (before ++ [elseWord])))
        (.conditional condition consequent (some alternative))
        (by
          rw [shape, headShape, beforeShape, elseShape]
          simp)
        room
        (fun dangling alternativeDerived => by
          have conditional :=
            Derives.ifElse keywordKind openingKind derived closingKind
              (consequentRoom ▸ consequentDerived) (fun _ => closedEnd)
              elseKind alternativeDerived
          simpa using conditional)
    simpa using whole
  · rename_i refused
    refine .done ?_
    rintro before beforeShape consequentReads _ headShape
      ⟨opening, tokens, closing, rfl, openingKind, derived, closingKind⟩
      tail tailShape
    simp only at headShape
    have consequentRoom : after.room = cursor.room := leads.room_eq
    obtain ⟨dangling, consequentDerived, -⟩ :=
      consequentReads afterConsequent.rest beforeShape
    refine ⟨true, ?_, fun _ => ?_⟩
    · simpa using
        Derives.ifThen keywordKind openingKind derived closingKind
          (consequentRoom ▸ consequentDerived)
    · have tailEq : tail = afterConsequent.rest := by
        rw [shape, headShape, beforeShape] at tailShape
        simpa using tailShape.symm
      intro token others tokens
      exact Cursor.accept?_eq_none_iff.mp refused token others
        (tailEq ▸ tokens)

theorem statement_reads
    (smaller : Sound fuel)
    (cursor : Cursor)
    (enough : 6 * cursor.rest.length + 1 ≤ fuel + 1) :
    (statement (fuel + 1) cursor).Reads cursor 1
      (ReadsStatement cursor) := by
  have expressionReads :
      (expressionStatement cursor).Reads cursor 1 (ReadsStatement cursor) :=
    (expressionStatement_reads cursor).weaken le_rfl
      fun read value derived => .of_closed derived.1
  rw [Stmt.Parser.statement]
  split
  · exact expressionReads
  · rename_i first rest shape
    have shorter : rest.length + 1 = cursor.rest.length := by
      rw [shape, List.length_cons]
    split
    · rename_i kind
      exact forStatement_reads smaller kind shape (by omega)
    · rename_i kind
      exact ifStatement_reads smaller kind shape (by omega)
    · rename_i kind
      refine .afterToken (cursor.leads_rest shape) shape rfl ?_
      refine (printStatement_reads kind { cursor with rest }).weaken
        (Nat.zero_le 1) ?_
      intro read value derived
      exact .of_closed derived
    · rename_i kind
      refine .afterToken (cursor.leads_rest shape) shape rfl ?_
      refine (returnStatement_reads kind { cursor with rest }).weaken
        le_rfl ?_
      intro read value derived
      exact .of_closed derived
    · rename_i kind
      exact whileStatement_reads smaller kind shape (by omega)
    · rename_i kind
      refine .afterToken (cursor.leads_rest shape) shape rfl ?_
      refine (smaller.block first { cursor with rest }
        (by simp only; omega)).map ?_
      rintro read body
        ⟨room, tokens, closing, roomShape, rfl, derived, closingKind⟩
      simp only [Cursor.room_rest] at roomShape
      refine .of_closed ?_
      rw [roomShape]
      exact .block kind derived closingKind
    · exact expressionReads

theorem block_reads
    (smaller : Sound fuel)
    (opening : Token)
    (cursor : Cursor)
    (enough : 6 * cursor.rest.length + 4 ≤ fuel + 1) :
    (block (fuel + 1) opening cursor).Reads cursor 0
      fun read value =>
        ∃ room tokens closing,
          cursor.room = room + 1 ∧
            read = tokens ++ [closing] ∧
            Derives true .declarations room tokens value ∧
            closing.kind = .rightBrace := by
  rw [Stmt.Parser.block]
  have inside :
      (cursor.nested opening fun inner =>
          ((declarations fuel true [] inner).2.expect .rightBrace
            .blockEnd).map
              fun _ => (declarations fuel true [] inner).1).Reads cursor 0
        fun read value =>
          ∃ room,
            cursor.room = room + 1 ∧
              ∃ tokens closing,
                read = tokens ++ [closing] ∧
                  Derives true .declarations room tokens value ∧
                  closing.kind = .rightBrace := by
    refine Cursor.nested_reads fun inner innerRest => ?_
    have innerLength := congrArg List.length innerRest
    cases shape : declarations fuel true [] inner with
    | mk statements after =>
        have reads :=
          smaller.declarations true [] inner statements after (by omega) shape
        show ((Step.done statements after).bind fun statements after =>
          (after.expect .rightBrace .blockEnd).map
            fun _ => statements).Reads inner 0 _
        refine reads.bind fun values last same _ _ => ?_
        cases same
        refine (after.expect_reads .rightBrace .blockEnd).loosen.map ?_
        rintro _ closing ⟨rfl, closingKind⟩ tokens - ⟨⟨trees, rfl, derived⟩, -⟩
        exact ⟨tokens, closing, rfl, by simpa using derived, closingKind⟩
  refine inside.weaken le_rfl ?_
  rintro read value
    ⟨room, roomShape, tokens, closing, rfl, derived, closingKind⟩
  exact ⟨room, tokens, closing, roomShape, rfl, derived, closingKind⟩

theorem declarations_reads
    (smaller : Sound fuel)
    (inBlock : Bool)
    (collected : List Stmt)
    (cursor : Cursor)
    (statements : List Stmt)
    (after : Cursor)
    (enough : 6 * cursor.rest.length + 3 ≤ fuel + 1)
    (parsed :
      declarations (fuel + 1) inBlock collected cursor =
        (statements, after)) :
    (Step.done statements after).Reads cursor 0
      fun read values =>
        (∃ trees,
          values = collected.reverse ++ trees ∧
            Derives true .declarations cursor.room read trees) ∧
        (inBlock = false → cursor.rest = read) := by
  rw [declarations] at parsed
  split at parsed
  · rename_i stops
    cases parsed
    refine .done ⟨⟨[], by simp, .nothing⟩, fun outside => ?_⟩
    simpa [outside] using stops
  · rename_i goesOn
    have remaining : cursor.rest ≠ [] := by
      intro empty
      simp [empty] at goesOn
    have first := smaller.declaration cursor (by omega)
    cases shape : declaration fuel cursor with
    | failed stopped =>
        rw [shape] at first parsed
        obtain ⟨leads, loud⟩ := first
        have recovered := stopped.leads_synchronize
        have shorter : stopped.synchronize.rest.length + 1 ≤
            cursor.rest.length := by
          by_cases nothing : stopped.rest = []
          · have positive := List.length_pos_of_ne_nil remaining
            have none := recovered.length_le
            rw [nothing, List.length_nil] at none
            omega
          · have drops := stopped.length_synchronize nothing
            have smallerRest := leads.length_le
            omega
        refine .afterLoud (leads.trans recovered) (fun silent => ?_)
          (smaller.declarations inBlock collected stopped.synchronize
            statements after (by omega) parsed)
        exact loud (leads.reported_eq_left recovered silent)
    | done statement afterFirst =>
        rw [shape] at first parsed
        have length := first.2.1
        have others :=
          smaller.declarations inBlock (statement :: collected) afterFirst
            statements after (by omega) parsed
        have both :
            ((Step.done statement afterFirst).bind
              fun _ _ => .done statements after).Reads cursor 0
              fun read values =>
                (∃ trees,
                  values = collected.reverse ++ trees ∧
                    Derives true .declarations cursor.room read trees) ∧
                (inBlock = false → cursor.rest = read) := by
          refine first.loosen.bind fun value last same leads _ => ?_
          cases same
          refine others.weaken le_rfl ?_
          rintro read values ⟨⟨trees, rfl, derived⟩, whole⟩ firstRead
            firstShape firstDerived
          rw [leads.room_eq] at derived
          refine ⟨⟨statement :: trees, by simp, .more firstDerived derived⟩,
            fun outside => ?_⟩
          rw [firstShape, whole outside]
        exact both

theorem function_reads
    (smaller : Sound fuel)
    (form : FunctionForm)
    (cursor : Cursor)
    (enough : 6 * cursor.rest.length + 1 ≤ fuel + 1) :
    (function (fuel + 1) form cursor).Reads cursor 1
      (Derives true .function cursor.room) := by
  rw [Stmt.Parser.function]
  refine (functionHead_reads form cursor).bind
    fun head afterHead _ leadsHead length => ?_
  obtain ⟨name, parameters⟩ := head
  refine (afterHead.expect_reads .leftBrace
    (.functionBody form)).loosen.bind
    fun openingBrace afterBrace _ leadsBrace _ => ?_
  have shorter := leadsBrace.length_le
  have room := (leadsHead.trans leadsBrace).room_eq
  refine (smaller.block openingBrace afterBrace (by omega)).map ?_
  rintro _ body
    ⟨inner, tokens, closingBrace, roomShape, rfl, derived, closingBraceKind⟩
    _ - ⟨rfl, openingBraceKind⟩ _ -
    ⟨opening, list, closing, rfl, nameKind, openingKind, listDerived,
      closingKind⟩
  rw [← room, roomShape]
  simpa using Derives.function nameKind openingKind listDerived closingKind
    openingBraceKind derived closingBraceKind

theorem classDeclaration_reads
    (smaller : Sound fuel)
    (keyword : Token)
    (cursor : Cursor)
    (keywordKind : keyword.kind = .keyword .classWord)
    (enough : 6 * cursor.rest.length + 1 ≤ fuel + 1) :
    (classDeclaration (fuel + 1) cursor).Reads cursor 1
      fun read value =>
        Derives true .declaration cursor.room (keyword :: read) value := by
  rw [Stmt.Parser.classDeclaration]
  refine (cursor.expect_reads .identifier .className).bind
    fun name afterName _ leadsName length => ?_
  refine (afterName.expect_reads .leftBrace .classBody).loosen.bind
    fun opening afterOpening _ leadsOpening _ => ?_
  have shorter := leadsOpening.length_le
  have room := (leadsName.trans leadsOpening).room_eq
  refine (smaller.methods [] afterOpening (by omega)).bind
    fun methods afterMethods _ _ _ => ?_
  refine (afterMethods.expect_reads .rightBrace .classEnd).loosen.map ?_
  rintro _ closing ⟨rfl, closingKind⟩ tokens - ⟨trees, rfl, derived⟩ _ -
    ⟨rfl, openingKind⟩ _ - ⟨rfl, nameKind⟩
  rw [room] at derived
  exact .classDecl keywordKind nameKind openingKind derived closingKind

theorem methods_reads
    (smaller : Sound fuel)
    (collected : List FunctionDecl)
    (cursor : Cursor)
    (enough : 6 * cursor.rest.length + 2 ≤ fuel + 1) :
    (methods (fuel + 1) collected cursor).Reads cursor 0
      fun read values =>
        ∃ trees,
          values = collected.reverse ++ trees ∧
            Derives true .methods cursor.room read trees := by
  rw [Stmt.Parser.methods]
  split
  · exact .done ⟨[], by simp, .noMethod⟩
  · refine Step.Reads.loosen
      ((smaller.function .method cursor (by omega)).bind
        fun method afterMethod _ leads length => ?_)
    refine (smaller.methods (method :: collected) afterMethod
      (by omega)).weaken le_rfl ?_
    rintro read values ⟨trees, rfl, derived⟩ first - methodDerived
    rw [leads.room_eq] at derived
    exact ⟨method :: trees, by simp, .moreMethods methodDerived derived⟩

end Statements

/-- Within a sufficient bound all functions for declarations read what the
grammar derives. -/
theorem sound (fuel : Nat) : Sound fuel := by
  induction fuel with
  | zero =>
      constructor <;> intros <;> omega
  | succ fuel inductionHypothesis =>
      exact
        { declaration := declaration_reads inductionHypothesis
          statement := statement_reads inductionHypothesis
          block := block_reads inductionHypothesis
          declarations := declarations_reads inductionHypothesis
          function := function_reads inductionHypothesis
          classDeclaration := classDeclaration_reads inductionHypothesis
          methods := methods_reads inductionHypothesis }

end Script.Grammar
