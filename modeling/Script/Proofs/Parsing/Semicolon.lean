import Script.Proofs.Grammar.ExprCut
import Script.Proofs.Parsing.Bound

namespace Script

open Grammar

/-!
# A missing semicolon

When the semicolon at the end of a program is missing and a word comes instead
that begins a statement, the last declaration fails at this word, however deep in
loops and conditionals without braces its end is.  Recovery drops the word in any
case, and everything behind it up to the next place where a statement may begin.
-/

/-- A step that gives up in front of a token and has reported only that this token
is not what it expected. -/
def Step.GivesUp
    (token : Token)
    (cursor : Cursor) :
    Step α → Prop
  | .failed after =>
      ∃ what, after = cursor.report token (.expected what)
  | .done _ _ =>
      False

namespace Step.GivesUp

variable {token : Token} {cursor : Cursor} {step : Step α}

theorem eq_failed
    (givesUp : step.GivesUp token cursor) :
    ∃ what, step = .failed (cursor.report token (.expected what)) := by
  cases step with
  | done value after =>
      exact givesUp.elim
  | failed after =>
      obtain ⟨what, rfl⟩ := givesUp
      exact ⟨what, rfl⟩

theorem bind
    (givesUp : step.GivesUp token cursor)
    (next : α → Cursor → Step β) :
    (step.bind next).GivesUp token cursor := by
  obtain ⟨what, rfl⟩ := givesUp.eq_failed
  exact ⟨what, rfl⟩

theorem map
    (givesUp : step.GivesUp token cursor)
    (change : α → β) :
    (step.map change).GivesUp token cursor :=
  givesUp.bind _

end Step.GivesUp

/-- Tokens that end with a given one are cut in front of it, when they are known in
two parts. -/
theorem exists_front
    {before after front : List Token}
    {last : Token}
    (same : before ++ after = front ++ [last])
    (someAfter : after ≠ []) :
    ∃ inner, after = inner ++ [last] ∧ front = before ++ inner := by
  have parts : before ++ after.dropLast ++ [after.getLast someAfter] =
      front ++ [last] := by
    rw [List.append_assoc, List.dropLast_append_getLast, same]
  obtain ⟨rfl, sameLast⟩ := List.append_inj' parts rfl
  obtain rfl : after.getLast someAfter = last := by simpa using sameLast
  exact ⟨after.dropLast, (List.dropLast_append_getLast someAfter).symm, rfl⟩

section Keyword

variable {keyword : Token} (starts : Cursor.startsStatement keyword.kind = true)

include starts

theorem Cursor.kind_ne_of_starts
    {kind : TokenKind}
    (other : Cursor.startsStatement kind = false) :
    keyword.kind ≠ kind := by
  rintro rfl
  rw [starts] at other
  cases other

/-- A word that begins a statement is not what ends one. -/
theorem Cursor.expect_givesUp
    (cursor : Cursor)
    (rest : List Token)
    {kind : TokenKind}
    (other : Cursor.startsStatement kind = false)
    (what : Expectation) :
    (expect { cursor with rest := keyword :: rest } kind what).GivesUp keyword
      { cursor with rest := keyword :: rest } := by
  rw [expect, accept?_of_ne (kind_ne_of_starts starts other)]
  exact ⟨what, rfl⟩

/-- A word that begins a statement begins no expression. -/
theorem Expr.parse_givesUp
    (cursor : Cursor)
    (rest : List Token) :
    (Expr.parse { cursor with rest := keyword :: rest }).GivesUp keyword
      { cursor with rest := keyword :: rest } := by
  have other (kind : TokenKind) (no : Cursor.startsStatement kind = false) :=
    Cursor.kind_ne_of_starts starts no
  have noToken : ofToken? keyword = none := by
    have word := mem_of_startsStatement starts
    simp only [List.mem_cons, List.not_mem_nil, or_false] at word
    rcases word with same | same | same | same | same | same | same | same <;>
      simp [ofToken?, same]
  have primary (fuel : Nat) :
      (Parser.primary (fuel + 1)
          { cursor with rest := keyword :: rest }).GivesUp keyword
        { cursor with rest := keyword :: rest } := by
    rw [Parser.primary]
    simp only [noToken, other .leftParen rfl, ↓reduceIte]
    exact ⟨_, rfl⟩
  have operand (fuel : Nat) :
      (Parser.operand (fuel + 2)
          { cursor with rest := keyword :: rest }).GivesUp keyword
        { cursor with rest := keyword :: rest } := by
    rw [Parser.operand, Cursor.accept?_of_ne (other .bang rfl),
      Cursor.accept?_of_ne (other .minus rfl)]
    exact (primary fuel).bind _
  rw [Expr.parse, Nat.add_comm, Nat.add_comm 6, Parser.expression,
    Parser.operation]
  exact ((operand _).bind _).bind _

open Stmt.Parser

/-- An expression in front of the word is read, and the mark behind it is
missing. -/
theorem Grammar.DerivesExpr.givesUp
    {room : Nat}
    {tokens : List Token}
    {tree : Expr}
    (derived : DerivesExpr .expression room tokens tree)
    {cursor : Cursor}
    (depth : cursor.depth + room ≤ Cursor.maximalDepth)
    (rest : List Token)
    (what : Expectation)
    (make : Expr → α) :
    (((Expr.parse
        { cursor with rest := tokens ++ keyword :: rest }).bind
          fun value cursor =>
            (cursor.expect .semicolon what).map fun _ => make value)).GivesUp
      keyword { cursor with rest := keyword :: rest } := by
  rw [derived.parse depth (.of_starts rest starts)]
  exact (Cursor.expect_givesUp starts cursor rest rfl what).map _

/-- A `return` statement without its semicolon fails. -/
theorem Grammar.DerivesOptional.givesUp
    {room : Nat}
    {tokens : List Token}
    {value : Option Expr}
    (derived : DerivesOptional room tokens value)
    {cursor : Cursor}
    (depth : cursor.depth + room ≤ Cursor.maximalDepth)
    (rest : List Token)
    (returnWord : Token) :
    (returnStatement returnWord
        { cursor with rest := tokens ++ keyword :: rest }).GivesUp keyword
      { cursor with rest := keyword :: rest } := by
  unfold returnStatement optionalExpr
  cases derived with
  | nothing =>
      have unseen : (keyword.kind == .semicolon) = false :=
        beq_eq_false_iff_ne.mpr (Cursor.kind_ne_of_starts starts rfl)
      rw [List.nil_append, Cursor.sees_cons, unseen]
      exact ((Expr.parse_givesUp starts cursor rest).map _).bind _
  | something derived =>
      have parsed := derived.parse depth (.of_starts rest starts)
      obtain ⟨first, others, rfl, starter⟩ := derived.starts
      have unseen : (first.kind == .semicolon) = false := by
        rw [beq_eq_false_iff_ne]
        intro same
        simp [same, ExprPhrase.starters, primaryStarters] at starter
      rw [List.cons_append] at parsed ⊢
      rw [Cursor.sees_cons, unseen, if_neg Bool.false_ne_true, parsed]
      exact (Cursor.expect_givesUp starts cursor rest rfl _).map _

/-- The declaration of a variable without its semicolon fails. -/
theorem Grammar.DerivesVariable.givesUp
    {room : Nat}
    {front : List Token}
    {semicolon : Token}
    {tree : Stmt}
    (derived : DerivesVariable room (front ++ [semicolon]) tree)
    {cursor : Cursor}
    (depth : cursor.depth + room ≤ Cursor.maximalDepth)
    (rest : List Token) :
    ∃ varWord others,
      front = varWord :: others ∧
        varWord.kind = .keyword .varWord ∧
        (variableDeclaration
            { cursor with rest := others ++ keyword :: rest }).GivesUp keyword
          { cursor with rest := keyword :: rest } := by
  generalize whole : front ++ [semicolon] = tokens at derived
  cases derived with
  | @bare varWord name _ varKind nameKind _ =>
      obtain ⟨rfl, -⟩ :=
        List.append_inj' (show front ++ _ = [varWord, name] ++ _ from whole) rfl
      refine ⟨varWord, [name], rfl, varKind, ?_⟩
      have noInitial : keyword.kind ≠ .equal :=
        Cursor.kind_ne_of_starts starts rfl
      unfold variableDeclaration
      simp only [List.cons_append, List.nil_append,
        Cursor.expect_of_kind nameKind, Step.bind_done,
        Cursor.accept?_of_ne noInitial]
      exact (Cursor.expect_givesUp starts cursor rest rfl _).map _
  | @initialized varWord name equals _ value _ varKind nameKind equalsKind
      derived _ =>
      obtain ⟨rfl, -⟩ := List.append_inj' whole rfl
      refine ⟨varWord, name :: equals :: value, rfl, varKind, ?_⟩
      unfold variableDeclaration
      simp only [List.cons_append, Cursor.expect_of_kind nameKind,
        Step.bind_done, Cursor.accept?_of_kind equalsKind,
        derived.parse depth (.of_starts rest starts), Step.map]
      exact (Cursor.expect_givesUp starts cursor rest rfl _).map _

/-- What the parser does with the tokens of a phrase up to a semicolon at its end
when the word comes there instead.  Only declarations and statements can have the
semicolon at their end. -/
def GivesUpBehind
    (keyword : Token) :
    Phrase → Nat → List Token → Prop
  | .declaration, room, tokens =>
      ∀ (front rest : List Token) (semicolon : Token) (fuel : Nat)
          (cursor : Cursor),
        tokens = front ++ [semicolon] →
        semicolon.kind = .semicolon →
        cursor.depth + room ≤ Cursor.maximalDepth →
        6 * (front.length + (rest.length + 1)) + 2 ≤ fuel →
        (declaration fuel
            { cursor with rest := front ++ keyword :: rest }).GivesUp keyword
          { cursor with rest := keyword :: rest }
  | .statement _, room, tokens =>
      ∀ (front rest : List Token) (semicolon : Token) (fuel : Nat)
          (cursor : Cursor),
        tokens = front ++ [semicolon] →
        semicolon.kind = .semicolon →
        cursor.depth + room ≤ Cursor.maximalDepth →
        6 * (front.length + (rest.length + 1)) + 1 ≤ fuel →
        (statement fuel
            { cursor with rest := front ++ keyword :: rest }).GivesUp keyword
          { cursor with rest := keyword :: rest }
  | _, _, _ =>
      True

omit starts in
/-- A phrase that ends with another token does not end with a semicolon. -/
theorem ne_of_last_kind
    {before front : List Token}
    {closing semicolon : Token}
    {kind : TokenKind}
    (whole : before ++ [closing] = front ++ [semicolon])
    (closingKind : closing.kind = kind)
    (semicolonKind : semicolon.kind = .semicolon) :
    kind = .semicolon := by
  obtain ⟨-, same⟩ := List.append_inj' whole rfl
  obtain rfl : closing = semicolon := by simpa using same
  rw [← closingKind, semicolonKind]

namespace GivesUpBehind

variable {room : Nat} {dangling : Bool} {tokens body : List Token}

omit starts in
theorem classDecl
    {classWord name opening closing : Token}
    (closingKind : closing.kind = .rightBrace) :
    GivesUpBehind keyword .declaration room
      (classWord :: name :: opening :: tokens ++ [closing]) := by
  intro front rest semicolon fuel cursor whole semicolonKind
  cases ne_of_last_kind whole closingKind semicolonKind

omit starts in
theorem functionDecl
    {funWord : Token}
    {function : FunctionDecl}
    (derived : Derives true .function room tokens function) :
    GivesUpBehind keyword .declaration room (funWord :: tokens) := by
  intro front rest semicolon fuel cursor whole semicolonKind
  cases derived with
  | @function _ name opening closing openingBrace closingBrace list inside _ _
      _ _ _ _ _ _ closingKind =>
      rw [← List.cons_append] at whole
      cases ne_of_last_kind whole closingKind semicolonKind

theorem variableDecl
    {tree : Stmt}
    (derived : DerivesVariable room tokens tree) :
    GivesUpBehind keyword .declaration room tokens := by
  rintro front rest semicolon fuel cursor rfl semicolonKind depth enough
  obtain ⟨fuel, rfl⟩ := Nat.exists_eq_add_of_le' (show 1 ≤ fuel by omega)
  obtain ⟨varWord, others, rfl, kind, givesUp⟩ :=
    derived.givesUp starts depth rest
  rw [declaration]
  simp only [List.cons_append, kind]
  exact givesUp

omit starts in
theorem declaration_of_statement
    {tree : Stmt}
    (derived : Derives true (.statement dangling) room tokens tree)
    (givesUp : GivesUpBehind keyword (.statement dangling) room tokens) :
    GivesUpBehind keyword .declaration room tokens := by
  rintro front rest semicolon fuel cursor rfl semicolonKind depth enough
  obtain ⟨fuel, rfl⟩ := Nat.exists_eq_add_of_le' (show 1 ≤ fuel by omega)
  have here :=
    givesUp front rest semicolon fuel cursor rfl semicolonKind depth (by omega)
  cases front with
  | nil =>
      have starter := derived.starts rfl
      simp [semicolonKind, Phrase.starters, statementStarters,
        ExprPhrase.starters, primaryStarters] at starter
  | cons first others =>
      rw [List.cons_append, Completes.declaration_of_starter
        (derived.starts rfl)]
      exact here

theorem expression
    {semicolon : Token}
    {tree : Expr}
    (derived : DerivesExpr .expression room tokens tree) :
    GivesUpBehind keyword (.statement false) room (tokens ++ [semicolon]) := by
  intro front rest last fuel cursor whole _ depth enough
  obtain ⟨rfl, -⟩ := List.append_inj' whole rfl
  obtain ⟨fuel, rfl⟩ := Nat.exists_eq_add_of_le' (show 1 ≤ fuel by omega)
  have here :=
    derived.givesUp starts depth rest .expressionEnd Stmt.expression
  obtain ⟨first, others, rfl, starter⟩ := derived.starts
  rw [List.cons_append, Completes.statement_of_starter starter]
  exact here

theorem print
    {printWord semicolon : Token}
    {tree : Expr}
    (printKind : printWord.kind = .keyword .printWord)
    (derived : DerivesExpr .expression room tokens tree) :
    GivesUpBehind keyword (.statement false) room
      (printWord :: tokens ++ [semicolon]) := by
  intro front rest last fuel cursor whole _ depth enough
  obtain ⟨rfl, -⟩ := List.append_inj' whole rfl
  obtain ⟨fuel, rfl⟩ := Nat.exists_eq_add_of_le' (show 1 ≤ fuel by omega)
  rw [statement]
  simp only [List.cons_append, printKind]
  exact derived.givesUp starts depth rest .printEnd Stmt.print

theorem returning
    {returnWord semicolon : Token}
    {value : Option Expr}
    (returnKind : returnWord.kind = .keyword .returnWord)
    (derived : DerivesOptional room tokens value) :
    GivesUpBehind keyword (.statement false) room
      (returnWord :: tokens ++ [semicolon]) := by
  intro front rest last fuel cursor whole _ depth enough
  obtain ⟨rfl, -⟩ := List.append_inj' whole rfl
  obtain ⟨fuel, rfl⟩ := Nat.exists_eq_add_of_le' (show 1 ≤ fuel by omega)
  rw [statement]
  simp only [List.cons_append, returnKind]
  exact derived.givesUp starts depth rest returnWord

omit starts in
theorem whileLoop
    {whileWord opening closing : Token}
    {condition : Expr}
    {tree : Stmt}
    (whileKind : whileWord.kind = .keyword .whileWord)
    (openingKind : opening.kind = .leftParen)
    (derived : DerivesExpr .expression room tokens condition)
    (closingKind : closing.kind = .rightParen)
    (bodyDerived : Derives true (.statement dangling) room body tree)
    (givesUp : GivesUpBehind keyword (.statement dangling) room body) :
    GivesUpBehind keyword (.statement dangling) room
      (whileWord :: opening :: tokens ++ closing :: body) := by
  intro front rest semicolon fuel cursor whole semicolonKind depth enough
  obtain ⟨inner, isBody, rfl⟩ :=
    exists_front
      (show whileWord :: opening :: tokens ++ [closing] ++ body = _ by
        simpa using whole)
      (bodyDerived.nonempty rfl)
  simp only [List.length_append, List.length_cons, List.length_nil] at enough
  obtain ⟨fuel, rfl⟩ := Nat.exists_eq_add_of_le' (show 1 ≤ fuel by omega)
  rw [statement]
  simp only [List.cons_append, List.append_assoc, List.nil_append, whileKind,
    parse_condition depth openingKind derived closingKind, Step.bind_done]
  exact (givesUp inner rest semicolon fuel cursor isBody semicolonKind depth
    (by omega)).map _

omit starts in
theorem forLoop
    {forWord opening mark closing : Token}
    {first second third : List Token}
    {initial : Option Stmt}
    {condition increment : Option Expr}
    {tree : Stmt}
    (forKind : forWord.kind = .keyword .forWord)
    (openingKind : opening.kind = .leftParen)
    (initialDerived : DerivesInitial room first initial)
    (conditionDerived : DerivesOptional room second condition)
    (markKind : mark.kind = .semicolon)
    (incrementDerived : DerivesOptional room third increment)
    (closingKind : closing.kind = .rightParen)
    (bodyDerived : Derives true (.statement dangling) room body tree)
    (givesUp : GivesUpBehind keyword (.statement dangling) room body) :
    GivesUpBehind keyword (.statement dangling) room
      (forWord :: opening :: first ++ second ++ mark :: third ++
        closing :: body) := by
  intro front rest semicolon fuel cursor whole semicolonKind depth enough
  obtain ⟨inner, isBody, rfl⟩ :=
    exists_front
      (show forWord :: opening :: first ++ second ++ mark :: third ++
          [closing] ++ body = _ by
        simpa using whole)
      (bodyDerived.nonempty rfl)
  simp only [List.length_append, List.length_cons, List.length_nil] at enough
  obtain ⟨fuel, rfl⟩ := Nat.exists_eq_add_of_le' (show 1 ≤ fuel by omega)
  rw [statement]
  simp only [List.cons_append, List.append_assoc, List.nil_append, forKind,
    parse_forClauses depth openingKind initialDerived conditionDerived
      markKind incrementDerived closingKind, Step.bind_done]
  exact (givesUp inner rest semicolon fuel cursor isBody semicolonKind depth
    (by omega)).map _

omit starts in
theorem ifThen
    {ifWord opening closing : Token}
    {condition : Expr}
    {tree : Stmt}
    (ifKind : ifWord.kind = .keyword .ifWord)
    (openingKind : opening.kind = .leftParen)
    (derived : DerivesExpr .expression room tokens condition)
    (closingKind : closing.kind = .rightParen)
    (bodyDerived : Derives true (.statement dangling) room body tree)
    (givesUp : GivesUpBehind keyword (.statement dangling) room body) :
    GivesUpBehind keyword (.statement true) room
      (ifWord :: opening :: tokens ++ closing :: body) := by
  intro front rest semicolon fuel cursor whole semicolonKind depth enough
  obtain ⟨inner, isBody, rfl⟩ :=
    exists_front
      (show ifWord :: opening :: tokens ++ [closing] ++ body = _ by
        simpa using whole)
      (bodyDerived.nonempty rfl)
  simp only [List.length_append, List.length_cons, List.length_nil] at enough
  obtain ⟨fuel, rfl⟩ := Nat.exists_eq_add_of_le' (show 1 ≤ fuel by omega)
  rw [statement]
  simp only [List.cons_append, List.append_assoc, List.nil_append, ifKind,
    parse_condition depth openingKind derived closingKind, Step.bind_done]
  exact (givesUp inner rest semicolon fuel cursor isBody semicolonKind depth
    (by omega)).bind _

omit starts in
theorem ifElse
    {ifWord opening closing elseWord : Token}
    {after : List Token}
    {condition : Expr}
    {consequent tree : Stmt}
    (ifKind : ifWord.kind = .keyword .ifWord)
    (openingKind : opening.kind = .leftParen)
    (derived : DerivesExpr .expression room tokens condition)
    (closingKind : closing.kind = .rightParen)
    (bodyDerived : Derives true (.statement false) room body consequent)
    (elseKind : elseWord.kind = .keyword .elseWord)
    (afterDerived : Derives true (.statement dangling) room after tree)
    (givesUp : GivesUpBehind keyword (.statement dangling) room after) :
    GivesUpBehind keyword (.statement dangling) room
      (ifWord :: opening :: tokens ++ closing :: body ++
        elseWord :: after) := by
  intro front rest semicolon fuel cursor whole semicolonKind depth enough
  obtain ⟨inner, isAfter, rfl⟩ :=
    exists_front
      (show ifWord :: opening :: tokens ++ closing :: body ++ [elseWord] ++
          after = _ by
        simpa using whole)
      (afterDerived.nonempty rfl)
  simp only [List.length_append, List.length_cons, List.length_nil] at enough
  obtain ⟨fuel, rfl⟩ := Nat.exists_eq_add_of_le' (show 1 ≤ fuel by omega)
  have consequentParsed :=
    bodyDerived.completes fuel cursor
      (elseWord :: (inner ++ keyword :: rest)) depth
      (by simp only [List.length_cons, List.length_append]; omega) (by simp)
  rw [statement]
  simp only [List.cons_append, List.append_assoc, List.nil_append, ifKind,
    parse_condition depth openingKind derived closingKind, Step.bind_done,
    consequentParsed, Cursor.accept?_of_kind elseKind]
  exact (givesUp inner rest semicolon fuel cursor isAfter semicolonKind depth
    (by omega)).map _

omit starts in
theorem block
    {opening closing : Token}
    (closingKind : closing.kind = .rightBrace) :
    GivesUpBehind keyword (.statement false) room
      (opening :: tokens ++ [closing]) := by
  intro front rest semicolon fuel cursor whole semicolonKind
  cases ne_of_last_kind whole closingKind semicolonKind

end GivesUpBehind

/-- Every phrase that ends with a semicolon fails without it in front of the
word. -/
theorem Grammar.Derives.givesUp
    {phrase : Phrase}
    {room : Nat}
    {tokens : List Token}
    {tree : phrase.Tree}
    (derived : Derives true phrase room tokens tree) :
    GivesUpBehind keyword phrase room tokens := by
  induction derived with
  | nothing | more | noMethod | moreMethods | function =>
      trivial
  | classDecl _ _ _ _ closingKind =>
      exact .classDecl closingKind
  | functionDecl _ derived _ =>
      exact .functionDecl derived
  | variableDecl derived =>
      exact .variableDecl starts derived
  | statement derived givesUp =>
      exact .declaration_of_statement derived givesUp
  | expression derived _ =>
      exact .expression starts derived
  | print printKind derived _ =>
      exact .print starts printKind derived
  | returning returnKind derived _ =>
      exact .returning starts returnKind derived
  | whileLoop whileKind openingKind derived closingKind body givesUp =>
      exact .whileLoop whileKind openingKind derived closingKind body givesUp
  | forLoop forKind openingKind initial condition markKind increment
      closingKind body givesUp =>
      exact .forLoop forKind openingKind initial condition markKind increment
        closingKind body givesUp
  | ifThen ifKind openingKind derived closingKind body givesUp =>
      exact .ifThen ifKind openingKind derived closingKind body givesUp
  | @ifElse openEnd dangling _ _ _ _ _ _ _ _ _ _ _ ifKind openingKind derived
      closingKind body closed elseKind after _ givesUp =>
      obtain rfl : openEnd = false := closed rfl
      exact .ifElse ifKind openingKind derived closingKind body elseKind after
        givesUp
  | block _ _ closingKind =>
      exact .block closingKind

/-- A declaration without the semicolon at its end is abandoned at the word, and
reading goes on behind the word. -/
theorem Stmt.Parser.declarations_givesUp
    {room bound : Nat}
    {front rest : List Token}
    {semicolon : Token}
    {tree : Stmt}
    (derived : Derives true .declaration room (front ++ [semicolon]) tree)
    (semicolonKind : semicolon.kind = .semicolon)
    (cursor : Cursor)
    (depth : cursor.depth + room ≤ Cursor.maximalDepth)
    (enough : 6 * (front.length + (rest.length + 1)) + 2 ≤ bound) :
    ∃ what,
      declarations (bound + 1) false []
          { cursor with rest := front ++ keyword :: rest } =
        declarations bound false []
          (Cursor.report
            { cursor with rest := Cursor.nextStatement keyword rest }
            keyword (.expected what)) := by
  obtain ⟨what, failed⟩ :=
    (derived.givesUp starts front rest semicolon bound cursor rfl semicolonKind
      depth enough).eq_failed
  have someToken : (front ++ keyword :: rest).isEmpty = false := by
    simp
  refine ⟨what, ?_⟩
  rw [declarations]
  simp only [someToken, Bool.false_and, Bool.or_self, Bool.false_eq_true,
    ↓reduceIte, failed]
  rfl

/-- Behind such a declaration what is left is read as it is read alone, and there
is one more problem. -/
theorem Stmt.Parser.declarations_missing
    {room bound other : Nat}
    {front rest : List Token}
    {semicolon ending : Token}
    {tree : Stmt}
    (derived : Derives true .declaration room (front ++ [semicolon]) tree)
    (semicolonKind : semicolon.kind = .semicolon)
    (noEnding : ∀ token ∈ rest, token.kind ≠ .endOfInput)
    (endingKind : ending.kind = .endOfInput)
    (depth : room ≤ Cursor.maximalDepth)
    (enough : 6 * (front.length + (rest.length + 1)) + 3 ≤ bound)
    (otherEnough :
      6 * (Cursor.nextStatement keyword rest).length + 3 ≤ other) :
    let next : Cursor :=
      { rest := Cursor.nextStatement keyword rest, ending, depth := 0,
        reported := [] }
    let behind := declarations other false [] next
    ∃ what,
      declarations bound false []
          { next with rest := front ++ keyword :: rest } =
        (behind.1,
          { behind.2 with
            reported :=
              behind.2.reported ++ [.atToken keyword (.expected what)] }) := by
  intro next behind
  have left := Cursor.nextStatement_suffix keyword rest
  have ends : next.Ends :=
    ⟨fun token member => noEnding token (left.subset member), endingKind⟩
  have shorter : next.rest.length ≤ rest.length := left.length_le
  obtain ⟨bound, rfl⟩ := Nat.exists_eq_add_of_le' (show 1 ≤ bound by omega)
  obtain ⟨what, abandoned⟩ :=
    declarations_givesUp starts derived semicolonKind next
      (show 0 + room ≤ Cursor.maximalDepth by omega)
      (show 6 * (front.length + (rest.length + 1)) + 2 ≤ bound by omega)
  have reported :
      declarations bound false [] (next.report keyword (.expected what)) = _ :=
    declarations_reported bound false next
      [.atToken keyword (.expected what)]
  have sameBound :
      declarations bound false [] next = behind :=
    declarations_bound false [] ends (by omega) otherEnough
  refine ⟨what, ?_⟩
  rw [abandoned]
  rw [sameBound] at reported
  exact reported

end Keyword

/-- Declarations that have any tokens have a last one. -/
theorem Grammar.Derives.exists_last
    {room : Nat}
    {tokens : List Token}
    {trees : List Stmt}
    (derived : Derives true .declarations room tokens trees)
    (someTokens : tokens ≠ []) :
    ∃ before last init tree,
      tokens = before ++ last ∧
        trees = init ++ [tree] ∧
        Derives true .declarations room before init ∧
        Derives true .declaration room last tree := by
  induction trees generalizing tokens with
  | nil =>
      cases derived
      exact (someTokens rfl).elim
  | cons stmt stmts inductionHypothesis =>
      cases derived with
      | @more _ first rest _ _ here later =>
          cases stmts with
          | nil =>
              cases later
              exact ⟨[], first, [], stmt, List.append_nil first, rfl, .nothing,
                here⟩
          | cons next others =>
              have someRest : rest ≠ [] := by
                cases later with
                | more derived _ =>
                    exact List.append_ne_nil_of_left_ne_nil
                      (derived.nonempty rfl) _
              obtain ⟨before, last, init, tree, rfl, shape, derived, isLast⟩ :=
                inductionHypothesis later someRest
              exact ⟨first ++ before, last, stmt :: init, tree,
                (List.append_assoc _ _ _).symm, congrArg _ shape,
                .more here derived, isLast⟩

namespace Program

/-- When the semicolon that ends a program is missing in front of a word that
begins a statement, this is one problem at the word, and the last statement is
lost.  Recovery goes on behind the word: what is left from the next place on where
a statement may begin is read as it is read alone. -/
theorem ofTokens_missingSemicolon
    {before rest : List Token}
    {semicolon keyword ending : Token}
    (noEnding : ∀ token ∈ before ++ keyword :: rest, token.kind ≠ .endOfInput)
    (semicolonKind : semicolon.kind = .semicolon)
    (endingKind : ending.kind = .endOfInput)
    (silent : (ofTokens (before ++ [semicolon] ++ [ending])).problems = [])
    (starts : Cursor.startsStatement keyword.kind = true) :
    let whole := ofTokens (before ++ [semicolon] ++ [ending])
    let behind := ofTokens (Cursor.nextStatement keyword rest ++ [ending])
    ∃ what,
      ofTokens (before ++ keyword :: rest ++ [ending]) =
        { statements := whole.statements.dropLast ++ behind.statements
          problems := .atToken keyword (.expected what) :: behind.problems } := by
  have noEndingRest : ∀ token ∈ rest, token.kind ≠ .endOfInput :=
    fun token member =>
      noEnding token (List.mem_append_right _ (List.mem_cons_of_mem _ member))
  have noEndingWhole :
      ∀ token ∈ before ++ [semicolon], token.kind ≠ .endOfInput := by
    refine List.forall_mem_append.mpr ⟨fun token member =>
      noEnding token (List.mem_append_left _ member), ?_⟩
    simp [semicolonKind]
  have derived := derives_of_ofTokens noEndingWhole endingKind silent
  obtain ⟨earlier, last, init, tree, parts, trees, isEarlier, isLast⟩ :=
    derived.exists_last (by simp)
  obtain ⟨inner, rfl, rfl⟩ := exists_front parts.symm (isLast.nonempty rfl)
  let next : Cursor :=
    { rest := Cursor.nextStatement keyword rest, ending, depth := 0,
      reported := [] }
  let cursor : Cursor := { next with rest := inner ++ keyword :: rest }
  have ends : cursor.Ends :=
    ⟨fun token member => noEnding token (by
      rw [List.append_assoc]
      exact List.mem_append_right _ member), endingKind⟩
  have noElse : NoElse cursor.rest := by
    cases inner with
    | nil =>
        exact .of_kind (Cursor.kind_ne_of_starts starts rfl)
    | cons first others =>
        exact .of_kind (isLast.noElse first _ rfl)
  let bound := 6 * cursor.rest.length + 3
  have read :
      Stmt.Parser.declarations (6 * (earlier ++ cursor.rest).length + 6) false
          [] { cursor with rest := earlier ++ cursor.rest } =
        (init ++ (Stmt.Parser.declarations bound false [] cursor).1,
          (Stmt.Parser.declarations bound false [] cursor).2) :=
    Stmt.Parser.declarations_derived false ends isEarlier
      (Nat.le_of_eq (Nat.zero_add _)) noElse
      (by simp only [List.length_append]; omega) le_rfl
  obtain ⟨what, missing⟩ :
      ∃ what, Stmt.Parser.declarations bound false [] cursor = _ :=
    Stmt.Parser.declarations_missing starts isLast semicolonKind noEndingRest
      endingKind le_rfl (by simp [bound, cursor])
      (show 6 * next.rest.length + 3 ≤ 6 * next.rest.length + 6 by omega)
  have nextStart :
      Cursor.start (Cursor.nextStatement keyword rest ++ [ending]) = next :=
    start_of_ending
      (fun token member =>
        noEndingRest token ((Cursor.nextStatement_suffix _ _).subset member))
      endingKind
  have wholeStart :
      Cursor.start (earlier ++ inner ++ keyword :: rest ++ [ending]) =
        { cursor with rest := earlier ++ cursor.rest } := by
    rw [start_of_ending noEnding endingKind, List.append_assoc]
  refine ⟨what, ?_⟩
  rw [trees, List.dropLast_concat]
  unfold ofTokens
  rw [wholeStart, nextStart]
  dsimp only
  rw [read, missing]
  simp [next]

/-- A statement, and a loop whose `return` has no semicolon. -/
def openLoop : List Token :=
  tokensOf
    [.keyword .printWord, .number, .semicolon, .keyword .whileWord, .leftParen,
     .identifier, .rightParen, .keyword .returnWord]

/-- What is behind the keyword of a function, and a statement behind it. -/
def functionBehind : List Token :=
  tokensOf
    [.identifier, .leftParen, .rightParen, .leftBrace, .keyword .printWord,
     .number, .semicolon, .rightBrace, .keyword .printWord, .number, .semicolon]

/-- A token that has nothing but its kind. -/
def bareToken (kind : TokenKind) : Token :=
  { kind, lexeme := [], literal := .nil, line := 1 }

/-- Without the semicolon the head of the function is lost with its keyword, and
its body is read at the top. -/
theorem ofTokens_missingSemicolon_openLoop :
    (ofTokens (openLoop ++ [bareToken .semicolon] ++ [.endAt 1])).problems =
        [] ∧
      (Cursor.nextStatement (bareToken (.keyword .funWord))
          functionBehind).length = 7 ∧
      ∃ what,
        ofTokens
            (openLoop ++ bareToken (.keyword .funWord) :: functionBehind ++
              [.endAt 1]) =
          { statements :=
              (ofTokens
                  (openLoop ++ [bareToken .semicolon] ++
                    [.endAt 1])).statements.dropLast ++
                (ofTokens
                  (Cursor.nextStatement (bareToken (.keyword .funWord))
                    functionBehind ++ [.endAt 1])).statements
            problems :=
              .atToken (bareToken (.keyword .funWord)) (.expected what) ::
                (ofTokens
                  (Cursor.nextStatement (bareToken (.keyword .funWord))
                    functionBehind ++ [.endAt 1])).problems } := by
  have silent :
      (ofTokens (openLoop ++ [bareToken .semicolon] ++ [.endAt 1])).problems =
        [] :=
    List.isEmpty_iff.mp (by decide +kernel)
  exact ⟨silent, by decide +kernel,
    ofTokens_missingSemicolon (by decide +kernel) rfl rfl silent rfl⟩

/-- A `print` statement without its semicolon. -/
def openPrint : List Token :=
  tokensOf [.keyword .printWord, .number]

/-- A `print` statement. -/
def wholePrint : List Token :=
  tokensOf [.keyword .printWord, .number, .semicolon]

/-- Recovery does not stop in front of the word at which a declaration failed: a
program behind a missing semicolon does not keep all its statements. -/
theorem not_resumes_at_keyword :
    ¬ ∀ (before behind : List Token) (semicolon ending : Token),
        (∀ token ∈ before ++ behind, token.kind ≠ .endOfInput) →
        semicolon.kind = .semicolon →
        ending.kind = .endOfInput →
        (ofTokens (before ++ [semicolon] ++ [ending])).problems = [] →
        (ofTokens (behind ++ [ending])).problems = [] →
        (∃ keyword rest,
          behind = keyword :: rest ∧
            Cursor.startsStatement keyword.kind = true) →
        (ofTokens (before ++ behind ++ [ending])).statements =
          (ofTokens
              (before ++ [semicolon] ++ [ending])).statements.dropLast ++
            (ofTokens (behind ++ [ending])).statements := by
  intro resumes
  have kept :=
    resumes openPrint wholePrint (bareToken .semicolon) (.endAt 1)
      (by decide +kernel) rfl rfl (List.isEmpty_iff.mp (by decide +kernel))
      (List.isEmpty_iff.mp (by decide +kernel)) ⟨_, _, rfl, rfl⟩
  have nothing :
      (ofTokens (openPrint ++ wholePrint ++ [.endAt 1])).statements.length =
        0 := by
    decide +kernel
  have some :
      (ofTokens (wholePrint ++ [.endAt 1])).statements.length = 1 := by
    decide +kernel
  rw [kept, List.length_append, some] at nothing
  omega

end Program

end Script
