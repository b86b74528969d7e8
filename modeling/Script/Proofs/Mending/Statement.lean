import Script.Proofs.Mending.Clause

namespace Script

/-!
# Statements that stop at the end of the input

A statement or a declaration that stops at the end of the input is the beginning
of one, and so are the declarations around it.  Only the body of a function can
lack the room for its block: when its head stops at the end of the input inside
of as many blocks as may be open at once, no more tokens help.  Each of these
blocks is then reported as open.
-/

namespace Grammar

/-- Some tokens are a statement. -/
def IsStatement
    (room : Nat)
    (read : List Token) :
    Prop :=
  ∃ dangling tree, Derives false (.statement dangling) room read tree

/-- Some tokens are a declaration. -/
def IsDeclaration
    (room : Nat)
    (read : List Token) :
    Prop :=
  ∃ tree, Derives false .declaration room read tree

/-- Some tokens are declarations. -/
def AreDeclarations
    (room : Nat)
    (read : List Token) :
    Prop :=
  ∃ trees, Derives false .declarations room read trees

/-- Some tokens are the declarations of a block with its closing brace. -/
def IsBlock
    (room : Nat)
    (read : List Token) :
    Prop :=
  ∃ inner tokens closing,
    room = inner + 1 ∧
      read = tokens ++ [closing] ∧
      AreDeclarations inner tokens ∧
      closing.kind = .rightBrace

theorem IsStatement.of_string
    {room : Nat}
    {more : List Token}
    (same : Closer.Match [.string, .semicolon] more) :
    IsStatement room more :=
  ⟨false, derives_stringStatement room same⟩

namespace IsCondition

variable {room : Nat} {keyword : Token} {condition body : List Token}

theorem whileLoop
    (isCondition : IsCondition room condition)
    (keywordKind : keyword.kind = .keyword .whileWord)
    (isBody : IsStatement room body) :
    IsStatement room (keyword :: (condition ++ body)) := by
  obtain ⟨opening, tokens, closing, value, rfl, openingKind, derived,
    closingKind⟩ := isCondition
  obtain ⟨dangling, tree, bodyDerived⟩ := isBody
  have loop :=
    Derives.whileLoop keywordKind openingKind derived closingKind bodyDerived
  exact ⟨dangling, _, by simpa using loop⟩

theorem ifThen
    (isCondition : IsCondition room condition)
    (keywordKind : keyword.kind = .keyword .ifWord)
    (isBody : IsStatement room body) :
    IsStatement room (keyword :: (condition ++ body)) := by
  obtain ⟨opening, tokens, closing, value, rfl, openingKind, derived,
    closingKind⟩ := isCondition
  obtain ⟨dangling, tree, bodyDerived⟩ := isBody
  have conditional :=
    Derives.ifThen keywordKind openingKind derived closingKind bodyDerived
  exact ⟨true, _, by simpa using conditional⟩

theorem ifElse
    {dangling : Bool}
    {consequent : Stmt}
    {elseWord : Token}
    {alternative : List Token}
    (isCondition : IsCondition room condition)
    (keywordKind : keyword.kind = .keyword .ifWord)
    (consequentDerived :
      Derives false (.statement dangling) room body consequent)
    (elseKind : elseWord.kind = .keyword .elseWord)
    (isAlternative : IsStatement room alternative) :
    IsStatement room
      (keyword :: (condition ++ (body ++ elseWord :: alternative))) := by
  obtain ⟨opening, tokens, closing, value, rfl, openingKind, derived,
    closingKind⟩ := isCondition
  obtain ⟨openEnd, tree, alternativeDerived⟩ := isAlternative
  have conditional :=
    Derives.ifElse keywordKind openingKind derived closingKind
      consequentDerived (by simp) elseKind alternativeDerived
  exact ⟨openEnd, _, by simpa using conditional⟩

end IsCondition

/-- How the functions for declarations stop at the end of the input within a
sufficient bound. -/
structure ContinuesStmt (fuel : Nat) : Prop where
  declaration :
    ∀ cursor : Cursor,
      Assignable cursor.rest →
      6 * cursor.rest.length + 2 ≤ fuel →
      (Stmt.Parser.declaration fuel cursor).Continues true cursor
        (IsDeclaration cursor.room)
  statement :
    ∀ cursor : Cursor,
      Assignable cursor.rest →
      6 * cursor.rest.length + 1 ≤ fuel →
      (Stmt.Parser.statement fuel cursor).Continues true cursor
        (IsStatement cursor.room)
  block :
    ∀ (opening : Token) (cursor : Cursor),
      opening.kind ≠ .endOfInput →
      Assignable cursor.rest →
      6 * cursor.rest.length + 4 ≤ fuel →
      (Stmt.Parser.block fuel opening cursor).Continues true cursor
        (IsBlock cursor.room)
  declarations :
    ∀ (inBlock : Bool) (collected : List Stmt) (cursor : Cursor)
        (statements : List Stmt) (after : Cursor),
      Assignable cursor.rest →
      6 * cursor.rest.length + 3 ≤ fuel →
      Stmt.Parser.declarations fuel inBlock collected cursor =
        (statements, after) →
      after.Mendable →
      after.reported = cursor.reported ∨
        after.rest = [] ∧
          (cursor.Crowded after ∨
            after.Closes cursor.rest (AreDeclarations cursor.room))
  function :
    ∀ (form : FunctionForm) (cursor : Cursor),
      Assignable cursor.rest →
      6 * cursor.rest.length + 1 ≤ fuel →
      (Stmt.Parser.function fuel form cursor).Continues true cursor fun read =>
        ∃ tree, Derives false .function cursor.room read tree
  classDeclaration :
    ∀ (keyword : Token) (cursor : Cursor),
      keyword.kind = .keyword .classWord →
      Assignable cursor.rest →
      6 * cursor.rest.length + 1 ≤ fuel →
      (Stmt.Parser.classDeclaration fuel cursor).Continues true cursor
        fun read => IsDeclaration cursor.room (keyword :: read)
  methods :
    ∀ (collected : List FunctionDecl) (cursor : Cursor),
      Assignable cursor.rest →
      6 * cursor.rest.length + 2 ≤ fuel →
      (Stmt.Parser.methods fuel collected cursor).Continues true cursor
        fun read => ∃ trees, Derives false .methods cursor.room read trees

section Statements

open Stmt.Parser

variable {fuel : Nat}

theorem declaration_continues
    (smaller : ContinuesStmt fuel)
    (cursor : Cursor)
    (assignable : Assignable cursor.rest)
    (enough : 6 * cursor.rest.length + 2 ≤ fuel + 1) :
    (declaration (fuel + 1) cursor).Continues true cursor
      (IsDeclaration cursor.room) := by
  have statementContinues :
      (statement fuel cursor).Continues true cursor
        (IsDeclaration cursor.room) := by
    refine (smaller.statement cursor assignable (by omega)).weaken ?_
    rintro read ⟨dangling, tree, derived⟩
    exact ⟨tree, .statement derived⟩
  rw [Stmt.Parser.declaration]
  split
  · exact statementContinues
  · rename_i first rest shape
    have shorter : rest.length + 1 = cursor.rest.length := by
      rw [shape, List.length_cons]
    have leads := cursor.leads_rest shape
    have assignableRest := leads.assignable assignable
    split
    · rename_i kind
      exact .afterToken leads shape rfl
        (smaller.classDeclaration first { cursor with rest } kind
          assignableRest (by simp only; omega))
    · rename_i kind
      refine .afterToken leads shape rfl ?_
      refine ((smaller.function .function { cursor with rest } assignableRest
        (by simp only; omega)).map _).weaken ?_
      rintro read ⟨tree, derived⟩
      exact ⟨_, .functionDecl kind derived⟩
    · rename_i kind
      refine .afterToken leads shape rfl ?_
      refine (variableDeclaration_continues kind
        assignableRest).withBlocks.weaken ?_
      rintro read ⟨tree, derived⟩
      exact ⟨tree, .variableDecl derived⟩
    · exact statementContinues

/-- The loop behind the keyword `for`. -/
theorem forStatement_continues
    (smaller : ContinuesStmt fuel)
    {cursor : Cursor}
    {keyword : Token}
    {rest : List Token}
    (keywordKind : keyword.kind = .keyword .forWord)
    (shape : cursor.rest = keyword :: rest)
    (assignable : Assignable cursor.rest)
    (enough : 6 * cursor.rest.length ≤ fuel) :
    ((forClauses { cursor with rest }).bind fun clauses cursor =>
        (statement fuel cursor).map clauses.unfold).Continues true cursor
      (IsStatement cursor.room) := by
  have shorter : rest.length + 1 = cursor.rest.length := by
    rw [shape, List.length_cons]
  have leadsRest := cursor.leads_rest shape
  have assignableRest := leadsRest.assignable assignable
  have clausesReads :
      (forClauses { cursor with rest }).Reads { cursor with rest } 1
        fun read _ => IsClauses keyword cursor.room read :=
    (forClauses_reads keywordKind { cursor with rest }).weaken le_rfl
      fun read clauses wrap dangling behind body derived =>
        ⟨_, wrap false dangling behind body derived⟩
  refine .afterToken leadsRest shape rfl ?_
  refine .bind clausesReads
    (forClauses_continues keywordKind assignableRest).withBlocks
    [.string, .semicolon] ?_ fun clauses after _ leads length => ?_
  · intro read more clauses same
    obtain ⟨body, derived⟩ := derives_stringStatement cursor.room same
    obtain ⟨tree, loop⟩ := clauses _ more body derived
    exact ⟨_, tree, loop⟩
  · simp only at length
    refine ((smaller.statement after (leads.assignable assignableRest)
      (by omega)).map _).weaken ?_
    rintro read ⟨dangling, body, derived⟩ head - clauses
    have sameRoom : after.room = cursor.room := leads.room_eq
    rw [sameRoom] at derived
    obtain ⟨tree, loop⟩ := clauses _ read body derived
    exact ⟨_, tree, loop⟩

/-- The loop behind the keyword `while`. -/
theorem whileStatement_continues
    (smaller : ContinuesStmt fuel)
    {cursor : Cursor}
    {keyword : Token}
    {rest : List Token}
    (keywordKind : keyword.kind = .keyword .whileWord)
    (shape : cursor.rest = keyword :: rest)
    (assignable : Assignable cursor.rest)
    (enough : 6 * cursor.rest.length ≤ fuel) :
    ((condition .whileStart .whileConditionEnd { cursor with rest }).bind
        fun condition cursor =>
          (statement fuel cursor).map (Stmt.loop condition)).Continues true
      cursor (IsStatement cursor.room) := by
  have shorter : rest.length + 1 = cursor.rest.length := by
    rw [shape, List.length_cons]
  have leadsRest := cursor.leads_rest shape
  have assignableRest := leadsRest.assignable assignable
  refine .afterToken leadsRest shape rfl ?_
  refine .bind (isCondition_reads _ _ { cursor with rest })
    (condition_continues rfl rfl assignableRest).withBlocks
    [.string, .semicolon] ?_ fun condition after _ leads length => ?_
  · intro front more isCondition same
    exact isCondition.whileLoop keywordKind (.of_string same)
  · simp only at length
    refine ((smaller.statement after (leads.assignable assignableRest)
      (by omega)).map _).weaken ?_
    rintro read isBody front - isCondition
    have sameRoom : after.room = cursor.room := leads.room_eq
    rw [sameRoom] at isBody
    exact isCondition.whileLoop keywordKind isBody

/-- The conditional behind its keyword. -/
theorem ifStatement_continues
    (smaller : ContinuesStmt fuel)
    {cursor : Cursor}
    {keyword : Token}
    {rest : List Token}
    (keywordKind : keyword.kind = .keyword .ifWord)
    (shape : cursor.rest = keyword :: rest)
    (assignable : Assignable cursor.rest)
    (enough : 6 * cursor.rest.length ≤ fuel) :
    ((condition .ifStart .ifConditionEnd { cursor with rest }).bind
        fun condition cursor =>
          (statement fuel cursor).bind fun consequent cursor =>
            match cursor.accept? (.keyword .elseWord) with
            | some (_, cursor) =>
                (statement fuel cursor).map fun alternative =>
                  Stmt.conditional condition consequent (some alternative)
            | none =>
                .done (.conditional condition consequent none)
                  cursor).Continues true cursor (IsStatement cursor.room) := by
  have shorter : rest.length + 1 = cursor.rest.length := by
    rw [shape, List.length_cons]
  have leadsRest := cursor.leads_rest shape
  have assignableRest := leadsRest.assignable assignable
  refine .afterToken leadsRest shape rfl ?_
  refine .bind (isCondition_reads _ _ { cursor with rest })
    (condition_continues rfl rfl assignableRest).withBlocks
    [.string, .semicolon] ?_ fun condition after _ leads length => ?_
  · intro front more isCondition same
    exact isCondition.ifThen keywordKind (.of_string same)
  have assignableAfter := leads.assignable assignableRest
  have conditionRoom : after.room = cursor.room := leads.room_eq
  simp only at length
  refine .bindWhole ((sound fuel).statement after (by omega))
    (smaller.statement after assignableAfter (by omega)) ?_
    fun consequent afterConsequent _ leadsConsequent lengthConsequent => ?_
  · rintro read isConsequent front - isCondition
    rw [conditionRoom] at isConsequent
    exact isCondition.ifThen keywordKind isConsequent
  split
  · rename_i elseWord afterElse accepted
    have elseKind := (Cursor.accept?_eq_some_iff.mp accepted).1
    have shorterElse := Cursor.length_accept? accepted
    have leadsElse := leadsConsequent.trans (Cursor.leads_accept? accepted)
    have alternativeRoom : afterElse.room = cursor.room :=
      (leads.trans leadsElse).room_eq
    refine .afterAccepted accepted ?_
    refine ((smaller.statement afterElse
      (leadsElse.assignable assignableAfter) (by omega)).map _).weaken ?_
    rintro read isAlternative before beforeShape consequentReads front -
      isCondition
    obtain ⟨openEnd, consequentDerived, -⟩ :=
      consequentReads afterConsequent.rest beforeShape
    rw [conditionRoom] at consequentDerived
    rw [alternativeRoom] at isAlternative
    exact isCondition.ifElse keywordKind consequentDerived.relax elseKind
      isAlternative
  · exact .done _

theorem statement_continues
    (smaller : ContinuesStmt fuel)
    (cursor : Cursor)
    (assignable : Assignable cursor.rest)
    (enough : 6 * cursor.rest.length + 1 ≤ fuel + 1) :
    (statement (fuel + 1) cursor).Continues true cursor
      (IsStatement cursor.room) := by
  have expressionContinues :
      (expressionStatement cursor).Continues true cursor
        (IsStatement cursor.room) := by
    refine (expressionStatement_continues assignable).withBlocks.weaken ?_
    rintro read ⟨tree, derived, -⟩
    exact ⟨_, tree, derived⟩
  rw [Stmt.Parser.statement]
  split
  · exact expressionContinues
  · rename_i first rest shape
    have shorter : rest.length + 1 = cursor.rest.length := by
      rw [shape, List.length_cons]
    have leads := cursor.leads_rest shape
    have assignableRest := leads.assignable assignable
    split
    · rename_i kind
      exact forStatement_continues smaller kind shape assignable (by omega)
    · rename_i kind
      exact ifStatement_continues smaller kind shape assignable (by omega)
    · rename_i kind
      refine .afterToken leads shape rfl ?_
      refine (printStatement_continues kind
        assignableRest).withBlocks.weaken ?_
      rintro read ⟨tree, derived⟩
      exact ⟨_, tree, derived⟩
    · rename_i kind
      refine .afterToken leads shape rfl ?_
      refine (returnStatement_continues kind
        assignableRest).withBlocks.weaken ?_
      rintro read ⟨tree, derived⟩
      exact ⟨_, tree, derived⟩
    · rename_i kind
      exact whileStatement_continues smaller kind shape assignable (by omega)
    · rename_i kind
      refine .afterToken leads shape rfl ?_
      refine ((smaller.block first { cursor with rest } (by simp [kind])
        assignableRest (by simp only; omega)).map _).weaken ?_
      rintro _ ⟨room, tokens, closing, roomShape, rfl, ⟨trees, derived⟩,
        closingKind⟩
      simp only [Cursor.room_rest] at roomShape
      rw [roomShape]
      exact ⟨_, _, .block kind derived closingKind⟩
    · exact expressionContinues

/-- What the declarations of a block and its closing brace come to, inside of the
block.  When the brace is missing, one more block is reported as open. -/
theorem closeBlock_continues
    (smaller : ContinuesStmt fuel)
    {inner after : Cursor}
    {statements : List Stmt}
    (assignable : Assignable inner.rest)
    (enough : 6 * inner.rest.length + 3 ≤ fuel)
    (parsed : declarations fuel true [] inner = (statements, after))
    (mendable :
      (after.report after.peek (.expected .blockEnd)).Mendable) :
    after.rest = [] ∧
      (inner.Crowded after ∨
        (after.report after.peek (.expected .blockEnd)).Closes inner.rest
          fun read =>
            ∃ tokens closing,
              read = tokens ++ [closing] ∧
                AreDeclarations inner.room tokens ∧
                closing.kind = .rightBrace) := by
  obtain ⟨leads, -, relates⟩ :=
    (sound fuel).declarations true [] inner statements after enough parsed
  have leadsReport :=
    after.leads_report after.peek (.expected .blockEnd)
  have atEnd :=
    mendable.rest_eq_nil (leads.assignable assignable) (by simp)
  refine ⟨atEnd, ?_⟩
  rcases smaller.declarations true [] inner statements after assignable enough
    parsed (leadsReport.mendable mendable) with silent | ⟨-, crowded | closes⟩
  · obtain ⟨read, shape, ⟨trees, -, derived⟩, -⟩ := relates silent
    rw [atEnd, List.append_nil] at shape
    refine .inr ⟨[.string, .semicolon, .rightBrace], fun _ => rfl,
      fun more same => ?_⟩
    obtain ⟨front, last, rfl, frontSame, lastSame⟩ :=
      Closer.Match.append [.string, .semicolon] [.rightBrace] same
    obtain ⟨closing, rfl, closingKind⟩ := lastSame.single
    obtain ⟨tree, statementDerived⟩ :=
      derives_stringStatement inner.room frontSame
    have declarations :=
      derived.relax.append
        (.more (.statement statementDerived) .nothing)
    rw [List.append_nil] at declarations
    exact ⟨read ++ front, closing, by simp [shape], ⟨_, declarations⟩,
      closingKind⟩
  · exact .inl crowded
  · right
    obtain ⟨closers, begins, completes⟩ := closes
    refine Cursor.Closes.extend
      ⟨closers, fun admits => begins (leadsReport.admitsString admits),
        completes⟩ [.rightBrace] fun read more derived same => ?_
    obtain ⟨closing, rfl, closingKind⟩ := same.single
    exact ⟨read, closing, rfl, derived, closingKind⟩

/-- Behind a block whose closing brace is missing one more block is reported as
open, and one block less has been entered. -/
theorem crowded_leave
    {cursor after : Cursor}
    (deeper : cursor.depth < Cursor.maximalDepth)
    (crowded :
      Cursor.Crowded { cursor with depth := cursor.depth + 1 } after) :
    cursor.Crowded
      (after.report after.peek (.expected .blockEnd)).leave where
  awaits := by
    obtain ⟨problem, member, awaits⟩ := crowded.awaits
    exact ⟨problem, List.mem_cons_of_mem _ member, awaits⟩
  full := by
    have full := crowded.full
    have oneMore :
        Diagnostic.openBlocks
            (after.report after.peek (.expected .blockEnd)).leave.reported =
          Diagnostic.openBlocks after.reported + 1 := by
      simp [Diagnostic.openBlocks, Cursor.report, Cursor.leave,
        Diagnostic.atToken]
    simp only [Cursor.room] at full ⊢
    omega

theorem block_continues
    (smaller : ContinuesStmt fuel)
    (opening : Token)
    (cursor : Cursor)
    (openingKind : opening.kind ≠ .endOfInput)
    (assignable : Assignable cursor.rest)
    (enough : 6 * cursor.rest.length + 4 ≤ fuel + 1) :
    (block (fuel + 1) opening cursor).Continues true cursor
      (IsBlock cursor.room) := by
  rw [Stmt.Parser.block]
  unfold Cursor.nested Cursor.enter
  split
  · rename_i deeper
    let inner : Cursor := { cursor with depth := cursor.depth + 1 }
    have innerEnough : 6 * inner.rest.length + 3 ≤ fuel := by
      simp only [inner]
      omega
    cases parsed : declarations fuel true [] inner with
    | mk statements after =>
        have leads : inner.Leads after :=
          ((sound fuel).declarations true [] inner statements after innerEnough
            parsed).1
        simp only [Step.bind, inner, parsed, Cursor.expect]
        cases accepted : after.accept? .rightBrace with
        | some pair =>
            obtain ⟨closing, last⟩ := pair
            obtain ⟨-, shape, lastShape⟩ :=
              Cursor.accept?_eq_some_iff.mp accepted
            have sameReported : last.reported = after.reported := by
              rw [lastShape]
            refine ⟨(leads.trans (Cursor.leads_accept? accepted)).leave,
              fun mendable => ?_⟩
            have mendableAfter : after.Mendable := by
              rw [Cursor.Mendable, ← sameReported]
              exact mendable
            rcases smaller.declarations true [] inner statements after
              assignable innerEnough parsed mendableAfter with
              silent | ⟨atEnd, -⟩
            · exact sameReported.trans silent
            · rw [atEnd] at shape
              cases shape
        | none =>
            have leadsReport :=
              after.leads_report after.peek (.expected .blockEnd)
            refine ⟨(leads.trans leadsReport).leave, fun mendable => ?_⟩
            have assignableInner : Assignable inner.rest := assignable
            obtain ⟨atEnd, crowded | ⟨closers, begins, completes⟩⟩ :=
              closeBlock_continues smaller assignableInner innerEnough parsed
                mendable
            · exact ⟨atEnd, .inl ⟨rfl, crowded_leave deeper crowded⟩⟩
            · refine ⟨atEnd, .inr ⟨closers, begins, fun more same => ?_⟩⟩
              obtain ⟨tokens, closing, shape, derived, closingKind⟩ :=
                completes more same
              have innerRoom : cursor.room = inner.room + 1 := by
                simp only [Cursor.room, inner]
                omega
              exact ⟨_, tokens, closing, innerRoom, shape, derived,
                closingKind⟩
  · exact .failedAtToken openingKind (by simp)

theorem declarations_continues
    (smaller : ContinuesStmt fuel)
    (inBlock : Bool)
    (collected : List Stmt)
    (cursor : Cursor)
    (statements : List Stmt)
    (after : Cursor)
    (assignable : Assignable cursor.rest)
    (enough : 6 * cursor.rest.length + 3 ≤ fuel + 1)
    (parsed :
      declarations (fuel + 1) inBlock collected cursor = (statements, after))
    (mendable : after.Mendable) :
    after.reported = cursor.reported ∨
      after.rest = [] ∧
        (cursor.Crowded after ∨
          after.Closes cursor.rest (AreDeclarations cursor.room)) := by
  rw [declarations] at parsed
  split at parsed
  · cases parsed
    exact .inl rfl
  · rename_i goesOn
    have reads := (sound fuel).declaration cursor (by omega)
    have first := smaller.declaration cursor assignable (by omega)
    cases shape : declaration fuel cursor with
    | failed stopped =>
        rw [shape] at first reads parsed
        dsimp only at parsed
        -- There is nothing behind the failure, so it is the last problem.
        have remaining : cursor.rest ≠ [] := by
          intro empty
          simp [empty] at goesOn
        have recovered := stopped.leads_synchronize
        have shorter :
            6 * stopped.synchronize.rest.length + 3 ≤ fuel := by
          by_cases nothing : stopped.rest = []
          · have none := recovered.length_le
            have positive := List.length_pos_of_ne_nil remaining
            rw [nothing, List.length_nil] at none
            omega
          · have drops := stopped.length_synchronize nothing
            have smallerRest := first.1.length_le
            omega
        have later :=
          ((sound fuel).declarations inBlock collected stopped.synchronize
            statements after shorter parsed).1
        obtain ⟨atEnd, crowdedOrCloses⟩ :=
          first.2 ((recovered.trans later).mendable mendable)
        have nothingLeft : stopped.synchronize = stopped := by
          rw [Cursor.synchronize, atEnd]
        rw [nothingLeft, declarations_of_nil inBlock collected atEnd] at parsed
        cases parsed
        refine .inr ⟨atEnd, ?_⟩
        rcases crowdedOrCloses with ⟨-, crowded⟩ | closes
        · exact .inl crowded
        · refine .inr (closes.extend [] fun read more declared same => ?_)
          obtain ⟨tree, derived⟩ := declared
          rw [same.nil]
          exact ⟨_, .more derived .nothing⟩
    | done statement afterFirst =>
        rw [shape] at first reads parsed
        obtain ⟨leads, length, relates⟩ := reads
        have others :=
          smaller.declarations inBlock (statement :: collected) afterFirst
            statements after (leads.assignable assignable) (by omega) parsed
            mendable
        have later :=
          ((sound fuel).declarations inBlock (statement :: collected)
            afterFirst statements after (by omega) parsed).1
        have silent := first.2 (later.mendable mendable)
        rcases others with quiet | ⟨atEnd, crowded | closes⟩
        · exact .inl (quiet.trans silent)
        · have full := crowded.full
          rw [silent, leads.room_eq] at full
          exact .inr ⟨atEnd, .inl ⟨crowded.awaits, full⟩⟩
        · obtain ⟨firstRead, firstShape, firstDerived⟩ := relates silent
          refine .inr ⟨atEnd, .inr ?_⟩
          rw [firstShape]
          refine closes.behind ?_
          rintro read ⟨trees, derived⟩
          rw [leads.room_eq] at derived
          exact ⟨_, .more firstDerived.relax derived⟩

/-- A function, unless there is no room for its body. -/
theorem function_continues
    (smaller : ContinuesStmt fuel)
    (form : FunctionForm)
    (cursor : Cursor)
    (assignable : Assignable cursor.rest)
    (enough : 6 * cursor.rest.length + 1 ≤ fuel + 1) :
    (function (fuel + 1) form cursor).Continues true cursor fun read =>
      ∃ tree, Derives false .function cursor.room read tree := by
  -- The head is followed by a body that has one level less room.
  have whole
      {name opening closing openingBrace closingBrace : Token}
      {list tokens parameters : List Token}
      {room : Nat}
      {body : List Stmt}
      (roomShape : cursor.room = room + 1)
      (nameKind : name.kind = .identifier)
      (openingKind : opening.kind = .leftParen)
      (listDerived : DerivesParameterList list parameters)
      (closingKind : closing.kind = .rightParen)
      (openingBraceKind : openingBrace.kind = .leftBrace)
      (bodyDerived : Derives false .declarations room tokens body)
      (closingBraceKind : closingBrace.kind = .rightBrace) :
      ∃ tree,
        Derives false .function cursor.room
          (name :: opening :: list ++ [closing] ++
            openingBrace :: (tokens ++ [closingBrace])) tree := by
    have function :=
      Derives.function nameKind openingKind listDerived closingKind
        openingBraceKind bodyDerived closingBraceKind
    rw [roomShape]
    exact ⟨_, by simpa using function⟩
  rw [Stmt.Parser.function]
  refine .bind (functionHead_reads form cursor)
    ((functionHead_continues form assignable).crowded
      (functionHead_blames form cursor)) [.leftBrace, .rightBrace] ?_
    fun head afterHead _ leadsHead length => ?_
  · rintro _ more ⟨⟨name, opening, list, closing, parameters, rfl, nameKind,
      openingKind, listDerived, closingKind⟩, spacious⟩ same
    obtain ⟨openingBrace, last, rfl, openingBraceKind, lastSame⟩ := same.cons
    obtain ⟨closingBrace, rfl, closingBraceKind⟩ := lastSame.single
    obtain ⟨room, roomShape⟩ := Nat.exists_eq_add_of_lt spacious
    have body : Derives false .declarations room [] [] := .nothing
    exact whole (by omega) nameKind openingKind listDerived closingKind
      openingBraceKind body closingBraceKind
  obtain ⟨headName, headParameters⟩ := head
  have assignableHead := leadsHead.assignable assignable
  refine .bind (afterHead.expect_reads .leftBrace (.functionBody form))
    ((Cursor.expect_continues assignableHead .leftBrace rfl).crowded
      (.expect afterHead .leftBrace rfl)) [.rightBrace] ?_
    fun openingBrace afterBrace parsedBrace leadsBrace _ => ?_
  · rintro _ more ⟨⟨openingBrace, rfl, openingBraceKind⟩, spacious⟩ same _ -
      ⟨opening, list, closing, rfl, nameKind, openingKind, listDerived,
        closingKind⟩
    obtain ⟨closingBrace, rfl, closingBraceKind⟩ := same.single
    rw [leadsHead.room_eq] at spacious
    obtain ⟨room, roomShape⟩ := Nat.exists_eq_add_of_lt spacious
    have body : Derives false .declarations room [] [] := .nothing
    exact whole (by omega) nameKind openingKind listDerived closingKind
      openingBraceKind body closingBraceKind
  have shorter := leadsBrace.length_le
  have leadsAll := leadsHead.trans leadsBrace
  have braceKind : openingBrace.kind ≠ .endOfInput := by
    have built :
        (afterHead.expect .leftBrace (.functionBody form)).Builds afterHead 1
          fun token => True ∧ token.kind = .leftBrace :=
      Cursor.expect_builds (fun _ _ => trivial) _ _
    rw [parsedBrace] at built
    rw [built.2.2.2]
    decide
  refine ((smaller.block openingBrace afterBrace braceKind
    (leadsAll.assignable assignable) (by omega)).map _).weaken ?_
  rintro _ ⟨inner, tokens, closingBrace, roomShape, rfl, ⟨body, derived⟩,
      closingBraceKind⟩ _ - ⟨rfl, openingBraceKind⟩ _ -
    ⟨opening, list, closing, rfl, nameKind, openingKind, listDerived,
      closingKind⟩
  rw [leadsAll.room_eq] at roomShape
  exact whole roomShape nameKind openingKind listDerived closingKind
    openingBraceKind derived closingBraceKind

theorem classDeclaration_continues
    (smaller : ContinuesStmt fuel)
    (keyword : Token)
    (cursor : Cursor)
    (keywordKind : keyword.kind = .keyword .classWord)
    (assignable : Assignable cursor.rest)
    (enough : 6 * cursor.rest.length + 1 ≤ fuel + 1) :
    (classDeclaration (fuel + 1) cursor).Continues true cursor fun read =>
      IsDeclaration cursor.room (keyword :: read) := by
  rw [Stmt.Parser.classDeclaration]
  refine .bind (cursor.expect_reads .identifier .className)
    (Cursor.expect_continues assignable .name rfl).withBlocks
    [.leftBrace, .rightBrace] ?_ fun name afterName _ leadsName length => ?_
  · rintro _ more ⟨name, rfl, nameKind⟩ same
    obtain ⟨opening, last, rfl, openingKind, lastSame⟩ := same.cons
    obtain ⟨closing, rfl, closingKind⟩ := lastSame.single
    exact ⟨_, .classDecl keywordKind nameKind openingKind .noMethod closingKind⟩
  refine .bind (afterName.expect_reads .leftBrace .classBody)
    (Cursor.expect_continues (leadsName.assignable assignable) .leftBrace
      rfl).withBlocks [.rightBrace] ?_
    fun opening afterOpening _ leadsOpening _ => ?_
  · rintro _ more ⟨opening, rfl, openingKind⟩ same _ - ⟨rfl, nameKind⟩
    obtain ⟨closing, rfl, closingKind⟩ := same.single
    exact ⟨_, .classDecl keywordKind nameKind openingKind .noMethod closingKind⟩
  have shorter := leadsOpening.length_le
  have leadsAll := leadsName.trans leadsOpening
  have assignableAll := leadsAll.assignable assignable
  refine Cursor.closed_continues assignableAll
    ((sound fuel).methods [] afterOpening (by omega))
    (smaller.methods [] afterOpening assignableAll (by omega)) ?_ .rightBrace rfl
    ?_
  · rintro read methods ⟨trees, -, derived⟩
    exact ⟨trees, derived.relax⟩
  · rintro read closing ⟨trees, derived⟩ closingKind _ - ⟨rfl, openingKind⟩ _ -
      ⟨rfl, nameKind⟩
    rw [leadsAll.room_eq] at derived
    exact ⟨_, .classDecl keywordKind nameKind openingKind derived closingKind⟩

theorem methods_continues
    (smaller : ContinuesStmt fuel)
    (collected : List FunctionDecl)
    (cursor : Cursor)
    (assignable : Assignable cursor.rest)
    (enough : 6 * cursor.rest.length + 2 ≤ fuel + 1) :
    (methods (fuel + 1) collected cursor).Continues true cursor fun read =>
      ∃ trees, Derives false .methods cursor.room read trees := by
  rw [Stmt.Parser.methods]
  split
  · exact .done _
  · refine .bindWhole ((sound fuel).function .method cursor (by omega))
      (smaller.function .method cursor assignable (by omega)) ?_
      fun method afterMethod _ leads length => ?_
    · rintro read ⟨tree, derived⟩
      have methods := Derives.moreMethods derived .noMethod
      exact ⟨_, by simpa using methods⟩
    · refine (smaller.methods (method :: collected) afterMethod
        (leads.assignable assignable) (by omega)).weaken ?_
      rintro read ⟨trees, derived⟩ first - methodDerived
      rw [leads.room_eq] at derived
      exact ⟨_, .moreMethods methodDerived.relax derived⟩

end Statements

/-- Within a sufficient bound all functions for declarations that stop at the end
of the input have read the beginning of their phrase. -/
theorem continuesStmt (fuel : Nat) : ContinuesStmt fuel := by
  induction fuel with
  | zero =>
      constructor <;> intros <;> omega
  | succ fuel inductionHypothesis =>
      exact
        { declaration := declaration_continues inductionHypothesis
          statement := statement_continues inductionHypothesis
          block := block_continues inductionHypothesis
          declarations := declarations_continues inductionHypothesis
          function := function_continues inductionHypothesis
          classDeclaration := classDeclaration_continues inductionHypothesis
          methods := methods_continues inductionHypothesis }

end Grammar

end Script
