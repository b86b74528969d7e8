import Script.Proofs.Grammar.ExprCut
import Script.Proofs.Grammar.Language

namespace Script

/-!
# Programs that are cut short

The beginning of a derived program, too, is read up to the end of the input, and
all complaints about it are about the end.  So a program that is read in pieces
is never rejected before it is complete.
-/

namespace Stmt.Parser

section Spent

variable {cursor : Cursor}

theorem parse_spent (spent : cursor.Spent) : (Expr.parse cursor).Halts :=
  Expr.Parser.expression_spent spent _

theorem optionalExpr_spent
    (spent : cursor.Spent)
    (ending : TokenKind) :
    (optionalExpr ending cursor).Halts := by
  unfold optionalExpr
  split
  · exact spent
  · exact (parse_spent spent).map some

theorem expressionStatement_spent (spent : cursor.Spent) :
    (expressionStatement cursor).Halts :=
  (parse_spent spent).bind fun _ _ after => after.expectBind _ _ _

/-- There is no initial value at the end of the input. -/
theorem initial_spent (spent : cursor.Spent) :
    (match cursor.accept? .equal with
      | some (_, cursor) =>
          (Expr.parse cursor).map some
      | none =>
          .done none cursor : Step (Option Expr)).Halts := by
  rw [spent.accept?]
  exact spent

theorem variableDeclaration_spent (spent : cursor.Spent) :
    (variableDeclaration cursor).Halts :=
  spent.expectBind _ _ _

theorem countParameter_spent
    (spent : cursor.Spent)
    (collected : List Token) :
    (countParameter collected cursor).Spent := by
  unfold countParameter
  split
  · exact spent.report _
  · exact spent

/-- There is no further parameter at the end of the input. -/
theorem lastParameter_spent
    (spent : cursor.Spent)
    (fuel : Nat)
    (collected : List Token) :
    (match cursor.accept? .comma with
      | some (_, cursor) =>
          parameterNames fuel collected cursor
      | none =>
          .done collected.reverse cursor : Step (List Token)).Halts := by
  rw [spent.accept?]
  exact spent

theorem parameterNames_spent
    (spent : cursor.Spent)
    (fuel : Nat)
    (collected : List Token) :
    (parameterNames fuel collected cursor).Halts := by
  cases fuel with
  | zero =>
      exact spent
  | succ fuel =>
      rw [parameterNames]
      exact (countParameter_spent spent collected).expectBind _ _ _

/-- The parameters behind an opening parenthesis at the end of the input. -/
theorem parameters_spent (spent : cursor.Spent) :
    (if cursor.sees .rightParen then
      .done [] cursor
    else
      parameterNames (cursor.rest.length + 1) [] cursor :
        Step (List Token)).Halts := by
  split
  · exact spent
  · exact parameterNames_spent spent _ _

theorem functionHead_spent
    (spent : cursor.Spent)
    (form : FunctionForm) :
    (functionHead form cursor).Halts :=
  spent.expectBind _ _ _

theorem initialClause_spent (spent : cursor.Spent) :
    (initialClause cursor).Halts := by
  unfold initialClause
  rw [spent.accept?, spent.accept?]
  exact (expressionStatement_spent spent).map some

theorem forClauses_spent (spent : cursor.Spent) :
    (forClauses cursor).Halts :=
  spent.expectBind _ _ _

theorem condition_spent
    (spent : cursor.Spent)
    (start ending : Expectation) :
    (condition start ending cursor).Halts :=
  spent.expectBind _ _ _

theorem statement_spent
    (spent : cursor.Spent)
    (fuel : Nat) :
    (statement fuel cursor).Halts := by
  cases fuel with
  | zero =>
      rw [statement]
      exact spent
  | succ fuel =>
      rw [statement, spent.rest]
      exact expressionStatement_spent spent

/-- There is no alternative at the end of the input. -/
theorem alternative_spent
    (spent : cursor.Spent)
    (fuel : Nat)
    (condition : Expr)
    (consequent : Stmt) :
    (match cursor.accept? (.keyword .elseWord) with
      | some (_, cursor) =>
          (statement fuel cursor).map fun alternative =>
            .conditional condition consequent (some alternative)
      | none =>
          .done (.conditional condition consequent none) cursor :
        Step Stmt).Halts := by
  rw [spent.accept?]
  exact spent

theorem declaration_spent
    (spent : cursor.Spent)
    (fuel : Nat) :
    (declaration fuel cursor).Halts := by
  cases fuel with
  | zero =>
      rw [declaration]
      exact spent
  | succ fuel =>
      rw [declaration, spent.rest]
      exact statement_spent spent fuel

theorem declarations_spent
    (spent : cursor.Spent)
    (fuel : Nat)
    (inBlock : Bool)
    (collected : List Stmt) :
    (declarations fuel inBlock collected cursor).2.Spent := by
  cases fuel with
  | zero =>
      rw [declarations]
      exact spent
  | succ fuel =>
      rw [declarations, spent.rest]
      exact spent

theorem classDeclaration_spent
    (spent : cursor.Spent)
    (fuel : Nat) :
    (classDeclaration fuel cursor).Halts := by
  cases fuel with
  | zero =>
      rw [classDeclaration]
      exact spent
  | succ fuel =>
      rw [classDeclaration]
      exact spent.expectBind _ _ _

theorem methods_spent
    (spent : cursor.Spent)
    (fuel : Nat)
    (collected : List FunctionDecl) :
    (methods fuel collected cursor).Halts := by
  cases fuel with
  | zero =>
      rw [methods]
      exact spent
  | succ fuel =>
      rw [methods, spent.rest]
      exact spent

end Spent

end Stmt.Parser

end Script

namespace Script.Grammar

open Stmt.Parser

section Parts

variable {room : Nat} {cursor : Cursor} {tokens read after : List Token}

/-- The beginning of an expression and a token that ends it: the expression is
cut short, or it is read. -/
theorem DerivesExpr.parse_cut
    {tree : Expr}
    {closing : Token}
    (derived : DerivesExpr .expression room tokens tree)
    (hopeful : cursor.Hopeful)
    (depth : cursor.depth + room ≤ Cursor.maximalDepth)
    (ends :
      closing.kind ∈ ([.rightParen, .semicolon, .comma] : List TokenKind))
    (beginning : read <+: tokens ++ closing :: after) :
    (Expr.parse { cursor with rest := read }).Halts ∨
      ∃ rest,
        rest <+: after ∧
          Expr.parse { cursor with rest := read } =
            .done tree { cursor with rest := closing :: rest } := by
  rcases prefix_append_cons_cases beginning with cut | ⟨rest, rfl, goesOn⟩
  · refine .inl (derived.cut _ cursor read cut hopeful depth ?_)
    simp only
    omega
  · exact .inr ⟨rest, goesOn, derived.parse depth (.of_kind rest ends)⟩

/-- The beginning of an expression that may be absent and a token that ends
it. -/
theorem DerivesOptional.parse_cut
    {value : Option Expr}
    {closing : Token}
    {ending : TokenKind}
    (derived : DerivesOptional room tokens value)
    (hopeful : cursor.Hopeful)
    (depth : cursor.depth + room ≤ Cursor.maximalDepth)
    (same : closing.kind = ending)
    (ends : ending ∈ ([.rightParen, .semicolon] : List TokenKind))
    (beginning : read <+: tokens ++ closing :: after) :
    (optionalExpr ending { cursor with rest := read }).Halts ∨
      ∃ rest,
        rest <+: after ∧
          optionalExpr ending { cursor with rest := read } =
            .done value { cursor with rest := closing :: rest } := by
  rcases prefix_append_cons_cases beginning with cut | ⟨rest, rfl, goesOn⟩
  · left
    cases derived with
    | nothing =>
        rw [List.prefix_nil.mp cut]
        exact optionalExpr_spent hopeful.spent ending
    | something derived =>
        unfold optionalExpr
        split
        · rename_i seen
          obtain ⟨first, others, rfl, starter⟩ := derived.starts
          rcases List.prefix_cons_iff.mp cut with rfl | ⟨rest, rfl, -⟩
          · exact hopeful.spent
          · rw [Cursor.sees_cons, beq_iff_eq] at seen
            simp only [ExprPhrase.starters, primaryStarters, List.mem_cons,
              List.not_mem_nil, or_false] at ends starter
            rcases ends with end' | end' <;> simp [seen, end'] at starter
        · refine Step.Halts.map ?_ some
          exact derived.cut _ cursor read cut hopeful depth (by simp only; omega)
  · exact .inr ⟨rest, goesOn, derived.parse depth same ends⟩

/-- The beginning of the declaration of a variable behind its keyword. -/
theorem DerivesVariable.parse_cut
    {tree : Stmt}
    (derived : DerivesVariable room tokens tree)
    (hopeful : cursor.Hopeful)
    (depth : cursor.depth + room ≤ Cursor.maximalDepth) :
    ∃ keyword rest,
      tokens = keyword :: rest ∧
        keyword.kind = .keyword .varWord ∧
        ∀ read, read <+: rest →
          (variableDeclaration { cursor with rest := read }).Halts := by
  cases derived with
  | @bare keyword name semicolon keywordKind nameKind semicolonKind =>
      refine ⟨keyword, [name, semicolon], rfl, keywordKind, ?_⟩
      intro read beginning
      rcases List.prefix_cons_iff.mp beginning with rfl | ⟨rest, rfl, goesOn⟩
      · exact variableDeclaration_spent hopeful.spent
      unfold variableDeclaration
      rw [Cursor.expect_of_kind nameKind, Step.bind_done]
      rcases List.prefix_cons_iff.mp goesOn with rfl | ⟨last, rfl, nothing⟩
      · exact (initial_spent hopeful.spent).bind
          fun _ _ after => after.expectBind _ _ _
      · obtain rfl := List.prefix_nil.mp nothing
        have noInitial : semicolon.kind ≠ .equal := by
          simp [semicolonKind]
        simp only [Cursor.accept?_of_ne noInitial,
          Cursor.expect_of_kind semicolonKind, Step.map, Step.bind]
        exact hopeful.spent
  | @initialized keyword name equals semicolon tokens initial keywordKind
      nameKind equalsKind value semicolonKind =>
      refine ⟨keyword, name :: equals :: (tokens ++ [semicolon]), rfl,
        keywordKind, ?_⟩
      intro read beginning
      rcases List.prefix_cons_iff.mp beginning with rfl | ⟨rest, rfl, goesOn⟩
      · exact variableDeclaration_spent hopeful.spent
      unfold variableDeclaration
      rw [Cursor.expect_of_kind nameKind, Step.bind_done]
      rcases List.prefix_cons_iff.mp goesOn with rfl | ⟨inside, rfl, within⟩
      · exact (initial_spent hopeful.spent).bind
          fun _ _ after => after.expectBind _ _ _
      simp only [Cursor.accept?_of_kind equalsKind]
      rcases value.parse_cut hopeful depth
          (show semicolon.kind ∈ _ by simp [semicolonKind]) within with
        cut | ⟨last, nothing, parsed⟩
      · exact (cut.map some).bind fun _ _ after => after.expectBind _ _ _
      · obtain rfl := List.prefix_nil.mp nothing
        simp only [parsed, Step.map, Step.bind,
          Cursor.expect_of_kind semicolonKind]
        exact hopeful.spent

/-- The beginning of the first clause of a loop. -/
theorem DerivesInitial.parse_cut
    {initial : Option Stmt}
    (derived : DerivesInitial room tokens initial)
    (hopeful : cursor.Hopeful)
    (depth : cursor.depth + room ≤ Cursor.maximalDepth)
    (beginning : read <+: tokens) :
    (initialClause { cursor with rest := read }).Halts := by
  by_cases empty : read = []
  · subst empty
    exact initialClause_spent hopeful.spent
  unfold initialClause
  cases derived with
  | nothing kind =>
      rcases List.prefix_cons_iff.mp beginning with rfl | ⟨rest, rfl, nothing⟩
      · exact (empty rfl).elim
      · obtain rfl := List.prefix_nil.mp nothing
        simp only [Cursor.accept?_of_kind kind]
        exact hopeful.spent
  | declared derived =>
      obtain ⟨keyword, rest, rfl, kind, halts⟩ :=
        derived.parse_cut hopeful depth
      rcases List.prefix_cons_iff.mp beginning with rfl | ⟨rest, rfl, goesOn⟩
      · exact (empty rfl).elim
      · simp only [Cursor.accept?_of_ne
            (show keyword.kind ≠ .semicolon by simp [kind]),
          Cursor.accept?_of_kind kind]
        exact (halts rest goesOn).map some
  | @expression semicolon tokens tree derived kind =>
      obtain ⟨first, others, shape, starter⟩ := derived.starts
      have unseen :
          ∀ kind ∈ ([.semicolon, .keyword .varWord] : List TokenKind),
            Cursor.accept? { cursor with rest := read } kind = none := by
        intro kind member
        refine Cursor.accept?_eq_none_iff.mpr fun token rest found same => ?_
        subst found shape
        obtain ⟨rfl, -⟩ := List.cons_prefix_cons.mp beginning
        simp only [List.mem_cons, List.not_mem_nil, or_false] at member
        rcases member with rfl | rfl <;>
          simp [same, ExprPhrase.starters, primaryStarters] at starter
      rw [unseen .semicolon (by simp), unseen (.keyword .varWord) (by simp)]
      refine Step.Halts.map ?_ some
      unfold expressionStatement
      rcases derived.parse_cut hopeful depth
          (show semicolon.kind ∈ _ by simp [kind]) beginning with
        cut | ⟨last, nothing, parsed⟩
      · exact cut.bind fun _ _ after => after.expectBind _ _ _
      · obtain rfl := List.prefix_nil.mp nothing
        simp only [parsed, Step.map, Step.bind, Cursor.expect_of_kind kind]
        exact hopeful.spent

/-- The beginning of parameters behind those collected already. -/
theorem DerivesParameters.parse_cut
    {names : List Token}
    (derived : DerivesParameters tokens names)
    (fuel : Nat)
    (collected : List Token)
    (hopeful : cursor.Hopeful)
    (enough : read.length ≤ fuel)
    (few : collected.length + names.length ≤ longestList)
    (beginning : read <+: tokens) :
    (parameterNames fuel collected { cursor with rest := read }).Halts := by
  induction derived generalizing fuel collected read with
  | @last name kind =>
      rcases List.prefix_cons_iff.mp beginning with rfl | ⟨rest, rfl, nothing⟩
      · exact parameterNames_spent hopeful.spent fuel collected
      obtain rfl := List.prefix_nil.mp nothing
      simp only [List.length_singleton] at few enough
      obtain ⟨fuel, rfl⟩ := Nat.exists_eq_add_of_le' enough
      rw [parameterNames, countParameter_of_lt (by omega),
        Cursor.expect_of_kind kind, Step.bind_done]
      exact lastParameter_spent hopeful.spent fuel (name :: collected)
  | @more name comma tokens names kind commaKind _ inductionHypothesis =>
      rcases List.prefix_cons_iff.mp beginning with rfl | ⟨rest, rfl, goesOn⟩
      · exact parameterNames_spent hopeful.spent fuel collected
      simp only [List.length_cons] at few enough
      obtain ⟨fuel, rfl⟩ := Nat.exists_eq_add_of_le' (show 1 ≤ fuel by omega)
      rw [parameterNames, countParameter_of_lt (by omega),
        Cursor.expect_of_kind kind, Step.bind_done]
      rcases List.prefix_cons_iff.mp goesOn with rfl | ⟨last, rfl, behind⟩
      · exact lastParameter_spent hopeful.spent fuel (name :: collected)
      · simp only [Cursor.accept?_of_kind commaKind]
        simp only [List.length_cons] at enough
        exact inductionHypothesis fuel (name :: collected) (by omega)
          (by simp only [List.length_cons]; omega) behind

/-- The beginning of the name and the parameters of a function. -/
theorem DerivesParameterList.parse_cut
    {parameters : List Token}
    {name opening closing : Token}
    (derived : DerivesParameterList tokens parameters)
    (form : FunctionForm)
    (hopeful : cursor.Hopeful)
    (nameKind : name.kind = .identifier)
    (openingKind : opening.kind = .leftParen)
    (closingKind : closing.kind = .rightParen)
    (beginning : read <+: name :: opening :: (tokens ++ [closing])) :
    (functionHead form { cursor with rest := read }).Halts := by
  rcases List.prefix_cons_iff.mp beginning with rfl | ⟨rest, rfl, goesOn⟩
  · exact functionHead_spent hopeful.spent form
  rcases List.prefix_cons_iff.mp goesOn with rfl | ⟨list, rfl, within⟩
  · unfold functionHead
    rw [Cursor.expect_of_kind nameKind, Step.bind_done]
    exact hopeful.spent.expectBind _ _ _
  rcases prefix_append_cons_cases within with cut | ⟨last, rfl, nothing⟩
  · unfold functionHead
    rw [Cursor.expect_of_kind nameKind, Step.bind_done,
      Cursor.expect_of_kind openingKind, Step.bind_done]
    refine Step.Halts.bind ?_ fun _ _ after => after.expectBind _ _ _
    cases derived with
    | nothing =>
        obtain rfl := List.prefix_nil.mp cut
        exact parameters_spent hopeful.spent
    | something derived few =>
        split
        · rename_i seen
          obtain ⟨first, others, rfl, kind⟩ := derived.starts
          rcases List.prefix_cons_iff.mp cut with rfl | ⟨rest, rfl, -⟩
          · exact hopeful.spent
          · simp [Cursor.sees_cons, kind] at seen
        · exact derived.parse_cut _ [] hopeful (by simp) (by simpa using few)
            cut
  · obtain rfl := List.prefix_nil.mp nothing
    rw [derived.parse nameKind openingKind closingKind]
    exact hopeful.spent

/-- The beginning of a condition in parentheses. -/
theorem condition_cut
    {opening closing : Token}
    {tree : Expr}
    (start ending : Expectation)
    (derived : DerivesExpr .expression room tokens tree)
    (hopeful : cursor.Hopeful)
    (depth : cursor.depth + room ≤ Cursor.maximalDepth)
    (openingKind : opening.kind = .leftParen)
    (closingKind : closing.kind = .rightParen)
    (beginning : read <+: opening :: (tokens ++ [closing])) :
    (condition start ending { cursor with rest := read }).Halts := by
  rcases List.prefix_cons_iff.mp beginning with rfl | ⟨rest, rfl, goesOn⟩
  · exact condition_spent hopeful.spent start ending
  unfold condition
  rw [Cursor.expect_of_kind openingKind, Step.bind_done]
  rcases derived.parse_cut hopeful depth
      (show closing.kind ∈ _ by simp [closingKind]) goesOn with
    cut | ⟨last, nothing, parsed⟩
  · exact cut.bind fun _ _ after => after.expectBind _ _ _
  · obtain rfl := List.prefix_nil.mp nothing
    rw [parsed, Step.bind_done, Cursor.expect_of_kind closingKind]
    exact hopeful.spent

/-- The beginning of the clauses of a loop. -/
theorem forClauses_cut
    {opening semicolon closing : Token}
    {first second third : List Token}
    {initial : Option Stmt}
    {condition increment : Option Expr}
    (hopeful : cursor.Hopeful)
    (depth : cursor.depth + room ≤ Cursor.maximalDepth)
    (openingKind : opening.kind = .leftParen)
    (initialDerived : DerivesInitial room first initial)
    (conditionDerived : DerivesOptional room second condition)
    (semicolonKind : semicolon.kind = .semicolon)
    (incrementDerived : DerivesOptional room third increment)
    (closingKind : closing.kind = .rightParen)
    (beginning :
      read <+:
        opening :: (first ++ (second ++ semicolon :: (third ++ [closing])))) :
    (forClauses { cursor with rest := read }).Halts := by
  rcases List.prefix_cons_iff.mp beginning with rfl | ⟨rest, rfl, goesOn⟩
  · exact forClauses_spent hopeful.spent
  unfold forClauses
  rw [Cursor.expect_of_kind openingKind, Step.bind_done]
  rcases prefix_append_cases goesOn with cut | ⟨rest, rfl, goesOn, -⟩
  · exact (initialDerived.parse_cut hopeful depth cut).bind fun _ _ after =>
      (optionalExpr_spent after _).bind fun _ _ after =>
        after.expectBind _ _ _
  rw [initialDerived.parse depth, Step.bind_done]
  rcases conditionDerived.parse_cut hopeful depth semicolonKind (by simp)
      goesOn with
    cut | ⟨rest, behind, parsed⟩
  · exact cut.bind fun _ _ after => after.expectBind _ _ _
  rw [parsed, Step.bind_done, Cursor.expect_of_kind semicolonKind,
    Step.bind_done]
  rcases incrementDerived.parse_cut hopeful depth closingKind (by simp)
      behind with
    cut | ⟨last, nothing, parsed⟩
  · exact cut.bind fun _ _ after => after.expectBind _ _ _
  · obtain rfl := List.prefix_nil.mp nothing
    rw [parsed, Step.bind_done, Cursor.expect_of_kind closingKind]
    exact hopeful.spent

end Parts

/-- What the parser does with the beginning of a phrase at the end of the input,
given a sufficient bound and room for the constructs in the phrase. -/
def Cut :
    (phrase : Phrase) → Nat → List Token → Prop
  | .declarations, room, tokens =>
      ∀ (fuel : Nat) (inBlock : Bool) (collected : List Stmt)
          (cursor : Cursor) (read : List Token),
        read <+: tokens →
        cursor.Hopeful →
        cursor.depth + room ≤ Cursor.maximalDepth →
        6 * read.length + 3 ≤ fuel →
        (declarations fuel inBlock collected
          { cursor with rest := read }).2.Spent
  | .declaration, room, tokens =>
      ∀ (fuel : Nat) (cursor : Cursor) (read : List Token),
        read <+: tokens →
        cursor.Hopeful →
        cursor.depth + room ≤ Cursor.maximalDepth →
        6 * read.length + 2 ≤ fuel →
        (declaration fuel { cursor with rest := read }).Halts
  | .statement _, room, tokens =>
      ∀ (fuel : Nat) (cursor : Cursor) (read : List Token),
        read <+: tokens →
        cursor.Hopeful →
        cursor.depth + room ≤ Cursor.maximalDepth →
        6 * read.length + 1 ≤ fuel →
        (statement fuel { cursor with rest := read }).Halts
  | .function, room, tokens =>
      ∀ (fuel : Nat) (form : FunctionForm) (cursor : Cursor)
          (read : List Token),
        read <+: tokens →
        cursor.Hopeful →
        cursor.depth + room ≤ Cursor.maximalDepth →
        6 * read.length + 1 ≤ fuel →
        (function fuel form { cursor with rest := read }).Halts
  | .methods, room, tokens =>
      ∀ (fuel : Nat) (collected : List FunctionDecl) (cursor : Cursor)
          (read : List Token),
        read <+: tokens →
        cursor.Hopeful →
        cursor.depth + room ≤ Cursor.maximalDepth →
        6 * read.length + 2 ≤ fuel →
        (methods fuel collected { cursor with rest := read }).Halts

namespace Cut

variable {room : Nat} {dangling : Bool} {tokens rest : List Token}

/-- The beginning of the statements of a block and their closing brace. -/
theorem block_halts
    {body : List Stmt}
    {opening closing : Token}
    {cursor : Cursor}
    {read : List Token}
    (completes : Completes .declarations room tokens body)
    (cut : Cut .declarations room tokens)
    (fuel : Nat)
    (closingKind : closing.kind = .rightBrace)
    (beginning : read <+: tokens ++ [closing])
    (hopeful : cursor.Hopeful)
    (depth : cursor.depth + (room + 1) ≤ Cursor.maximalDepth)
    (enough : 6 * read.length + 4 ≤ fuel) :
    (block fuel opening { cursor with rest := read }).Halts := by
  rcases prefix_append_cons_cases beginning with cutHere | ⟨last, rfl, nothing⟩
  · obtain ⟨fuel, rfl⟩ := Nat.exists_eq_add_of_le' (show 1 ≤ fuel by omega)
    rw [block]
    refine Cursor.nested_halts (by simp only; omega) ?_
    have spent :=
      cut fuel true [] { cursor with depth := cursor.depth + 1 } read cutHere
        ⟨hopeful.ending, hopeful.incomplete⟩ (by simp only; omega) (by omega)
    exact spent.expectBind _ _ _
  · obtain rfl := List.prefix_nil.mp nothing
    simp only [List.length_append, List.length_singleton] at enough
    rw [completes.block_done fuel cursor [] depth
      (by simp only [List.length_nil]; omega) closingKind]
    exact hopeful.spent

theorem nothing : Cut .declarations room [] := by
  intro fuel inBlock collected cursor read beginning hopeful _ _
  rw [List.prefix_nil.mp beginning]
  exact declarations_spent hopeful.spent fuel inBlock collected

theorem more
    {stmt : Stmt}
    {stmts : List Stmt}
    (firstCompletes : Completes .declaration room tokens stmt)
    (firstCut : Cut .declaration room tokens)
    (starts :
      ∃ first others,
        tokens = first :: others ∧ first.kind ∈ declarationStarters)
    (restDerived : Derives true .declarations room rest stmts)
    (restCut : Cut .declarations room rest) :
    Cut .declarations room (tokens ++ rest) := by
  intro fuel inBlock collected cursor read beginning hopeful depth enough
  by_cases empty : read = []
  · subst empty
    exact declarations_spent hopeful.spent fuel inBlock collected
  obtain ⟨token, others, rfl, starter⟩ := starts
  obtain ⟨head, inner, rfl⟩ := List.exists_cons_of_ne_nil empty
  obtain ⟨rfl, -⟩ := List.cons_prefix_cons.mp beginning
  have noBrace : (head.kind == .rightBrace) = false := by
    rw [beq_eq_false_iff_ne]
    intro same
    simp [same, declarationStarters, statementStarters,
      ExprPhrase.starters, primaryStarters] at starter
  obtain ⟨fuel, rfl⟩ := Nat.exists_eq_add_of_le' (show 1 ≤ fuel by omega)
  rw [declarations]
  simp only [List.isEmpty_cons, Cursor.sees_cons, noBrace, Bool.and_false,
    Bool.or_self, Bool.false_eq_true, ↓reduceIte]
  rcases prefix_append_cases beginning with cut | ⟨behind, shape, goesOn, -⟩
  · have halts :=
      firstCut fuel cursor (head :: inner) cut hopeful depth (by omega)
    revert halts
    cases declaration fuel { cursor with rest := head :: inner } with
    | done stmt after =>
        intro halts
        exact declarations_spent halts fuel inBlock (stmt :: collected)
    | failed after =>
        intro halts
        have same : after.synchronize = after := by
          unfold Cursor.synchronize
          rw [show after.rest = [] from halts.rest]
        simp only [same]
        exact declarations_spent halts fuel inBlock collected
  · have noElse : NoElse behind := by
      intro token last found
      subst found
      obtain ⟨unread, rfl⟩ := goesOn
      exact restDerived.noElse token _ rfl
    rw [shape] at enough ⊢
    simp only [List.length_append, List.length_cons] at enough
    rw [firstCompletes fuel cursor behind depth
      (by simp only [List.length_cons]; omega) noElse]
    exact restCut fuel inBlock (stmt :: collected) cursor behind goesOn hopeful
      depth (by omega)

theorem function
    {name opening closing openingBrace closingBrace : Token}
    {list parameters : List Token}
    {body : List Stmt}
    (nameKind : name.kind = .identifier)
    (openingKind : opening.kind = .leftParen)
    (derived : DerivesParameterList list parameters)
    (closingKind : closing.kind = .rightParen)
    (openingBraceKind : openingBrace.kind = .leftBrace)
    (bodyCompletes : Completes .declarations room tokens body)
    (bodyCut : Cut .declarations room tokens)
    (closingBraceKind : closingBrace.kind = .rightBrace) :
    Cut .function (room + 1)
      (name :: opening :: list ++ closing :: openingBrace :: tokens ++
        [closingBrace]) := by
  intro fuel form cursor read beginning hopeful depth enough
  obtain ⟨fuel, rfl⟩ := Nat.exists_eq_add_of_le' (show 1 ≤ fuel by omega)
  have parts :
      read <+:
        (name :: opening :: (list ++ [closing])) ++
          openingBrace :: (tokens ++ [closingBrace]) := by
    simpa using beginning
  rw [Stmt.Parser.function]
  rcases prefix_append_cons_cases parts with cut | ⟨inside, rfl, goesOn⟩
  · exact (derived.parse_cut form hopeful nameKind openingKind closingKind
      cut).bind fun _ _ after => after.expectBind _ _ _
  · simp only [List.length_append, List.length_cons, List.append_assoc,
      List.cons_append, List.nil_append] at enough ⊢
    rw [derived.parse nameKind openingKind closingKind, Step.bind_done]
    simp only
    rw [Cursor.expect_of_kind openingBraceKind, Step.bind_done]
    exact (block_halts bodyCompletes bodyCut fuel closingBraceKind goesOn
      hopeful depth (by omega)).map _

theorem noMethod : Cut .methods room [] := by
  intro fuel collected cursor read beginning hopeful _ _
  rw [List.prefix_nil.mp beginning]
  exact methods_spent hopeful.spent fuel collected

theorem moreMethods
    {method : FunctionDecl}
    (firstCompletes : Completes .function room tokens method)
    (firstCut : Cut .function room tokens)
    (starts :
      ∃ first others, tokens = first :: others ∧ first.kind = .identifier)
    (restCut : Cut .methods room rest) :
    Cut .methods room (tokens ++ rest) := by
  intro fuel collected cursor read beginning hopeful depth enough
  by_cases empty : read = []
  · subst empty
    exact methods_spent hopeful.spent fuel collected
  obtain ⟨token, others, rfl, kind⟩ := starts
  obtain ⟨head, inner, rfl⟩ := List.exists_cons_of_ne_nil empty
  obtain ⟨rfl, -⟩ := List.cons_prefix_cons.mp beginning
  have noBrace : (head.kind == .rightBrace) = false := by
    simp [kind]
  obtain ⟨fuel, rfl⟩ := Nat.exists_eq_add_of_le' (show 1 ≤ fuel by omega)
  rw [methods]
  simp only [List.isEmpty_cons, Cursor.sees_cons, noBrace, Bool.or_self,
    Bool.false_eq_true, ↓reduceIte]
  rcases prefix_append_cases beginning with cut | ⟨behind, shape, goesOn, -⟩
  · exact (firstCut fuel .method cursor (head :: inner) cut hopeful depth
      (by omega)).bind fun method _ after =>
        methods_spent after fuel (method :: collected)
  · rw [shape] at enough ⊢
    simp only [List.length_append, List.length_cons] at enough
    rw [firstCompletes fuel .method cursor behind depth
      (by simp only [List.length_cons]; omega), Step.bind_done]
    exact restCut fuel (method :: collected) cursor behind goesOn hopeful depth
      (by omega)

theorem classDecl
    {keyword name opening closing : Token}
    {methods : List FunctionDecl}
    (keywordKind : keyword.kind = .keyword .classWord)
    (nameKind : name.kind = .identifier)
    (openingKind : opening.kind = .leftBrace)
    (methodsCompletes : Completes .methods room tokens methods)
    (methodsCut : Cut .methods room tokens)
    (closingKind : closing.kind = .rightBrace) :
    Cut .declaration room
      (keyword :: name :: opening :: tokens ++ [closing]) := by
  intro fuel cursor read beginning hopeful depth enough
  simp only [List.cons_append] at beginning
  rcases List.prefix_cons_iff.mp beginning with rfl | ⟨read, rfl, goesOn⟩
  · exact declaration_spent hopeful.spent fuel
  simp only [List.length_cons] at enough
  obtain ⟨fuel, rfl⟩ := Nat.exists_eq_add_of_le' (show 2 ≤ fuel by omega)
  rw [declaration]
  simp only [keywordKind]
  rcases List.prefix_cons_iff.mp goesOn with rfl | ⟨read, rfl, behind⟩
  · exact classDeclaration_spent hopeful.spent _
  rw [classDeclaration, Cursor.expect_of_kind nameKind, Step.bind_done]
  rcases List.prefix_cons_iff.mp behind with rfl | ⟨inside, rfl, within⟩
  · exact hopeful.spent.expectBind _ _ _
  rw [Cursor.expect_of_kind openingKind, Step.bind_done]
  simp only [List.length_cons] at enough
  rcases prefix_append_cons_cases within with cut | ⟨last, rfl, nothing⟩
  · exact (methodsCut fuel [] cursor inside cut hopeful depth (by omega)).bind
      fun _ _ after => after.expectBind _ _ _
  · obtain rfl := List.prefix_nil.mp nothing
    simp only [List.length_append, List.length_singleton] at enough
    rw [methodsCompletes fuel [] cursor closing [] depth
      (by simp only [List.length_nil]; omega) closingKind, Step.bind_done,
      Cursor.expect_of_kind closingKind]
    exact hopeful.spent

theorem functionDecl
    {keyword : Token}
    (keywordKind : keyword.kind = .keyword .funWord)
    (cut : Cut .function room tokens) :
    Cut .declaration room (keyword :: tokens) := by
  intro fuel cursor read beginning hopeful depth enough
  rcases List.prefix_cons_iff.mp beginning with rfl | ⟨read, rfl, goesOn⟩
  · exact declaration_spent hopeful.spent fuel
  simp only [List.length_cons] at enough
  obtain ⟨fuel, rfl⟩ := Nat.exists_eq_add_of_le' (show 1 ≤ fuel by omega)
  rw [declaration]
  simp only [keywordKind]
  exact (cut fuel .function cursor read goesOn hopeful depth (by omega)).map _

theorem variableDecl
    {tree : Stmt}
    (derived : DerivesVariable room tokens tree) :
    Cut .declaration room tokens := by
  intro fuel cursor read beginning hopeful depth enough
  obtain ⟨keyword, rest, rfl, kind, halts⟩ := derived.parse_cut hopeful depth
  rcases List.prefix_cons_iff.mp beginning with rfl | ⟨read, rfl, goesOn⟩
  · exact declaration_spent hopeful.spent fuel
  obtain ⟨fuel, rfl⟩ := Nat.exists_eq_add_of_le' (show 1 ≤ fuel by omega)
  rw [declaration]
  simp only [kind]
  exact halts read goesOn

/-- A statement is a declaration. -/
theorem declaration_of_statement
    (starts :
      ∃ first others,
        tokens = first :: others ∧ first.kind ∈ statementStarters)
    (cut : Cut (.statement dangling) room tokens) :
    Cut .declaration room tokens := by
  intro fuel cursor read beginning hopeful depth enough
  obtain ⟨fuel, rfl⟩ := Nat.exists_eq_add_of_le' (show 1 ≤ fuel by omega)
  have halts := cut fuel cursor read beginning hopeful depth (by omega)
  obtain ⟨first, others, rfl, starter⟩ := starts
  rw [declaration]
  split
  · exact halts
  · rename_i token rest shape
    simp only at shape
    subst shape
    obtain ⟨rfl, -⟩ := List.cons_prefix_cons.mp beginning
    split
    case h_4 =>
      exact halts
    all_goals
      rename_i same
      simp [same, statementStarters, ExprPhrase.starters,
        primaryStarters] at starter

theorem expression
    {semicolon : Token}
    {tree : Expr}
    (derived : DerivesExpr .expression room tokens tree)
    (kind : semicolon.kind = .semicolon) :
    Cut (.statement false) room (tokens ++ [semicolon]) := by
  intro fuel cursor read beginning hopeful depth enough
  by_cases empty : read = []
  · subst empty
    exact statement_spent hopeful.spent fuel
  obtain ⟨head, inner, rfl⟩ := List.exists_cons_of_ne_nil empty
  have starter : head.kind ∈ ExprPhrase.expression.starters := by
    obtain ⟨first, others, rfl, starter⟩ := derived.starts
    obtain ⟨rfl, -⟩ := List.cons_prefix_cons.mp beginning
    exact starter
  obtain ⟨fuel, rfl⟩ := Nat.exists_eq_add_of_le' (show 1 ≤ fuel by omega)
  rw [Completes.statement_of_starter starter, expressionStatement]
  rcases derived.parse_cut hopeful depth
      (show semicolon.kind ∈ _ by simp [kind]) beginning with
    cut | ⟨last, nothing, parsed⟩
  · exact cut.bind fun _ _ after => after.expectBind _ _ _
  · obtain rfl := List.prefix_nil.mp nothing
    rw [parsed, Step.bind_done, Cursor.expect_of_kind kind]
    exact hopeful.spent

theorem print
    {keyword semicolon : Token}
    {tree : Expr}
    (keywordKind : keyword.kind = .keyword .printWord)
    (derived : DerivesExpr .expression room tokens tree)
    (kind : semicolon.kind = .semicolon) :
    Cut (.statement false) room (keyword :: tokens ++ [semicolon]) := by
  intro fuel cursor read beginning hopeful depth enough
  rw [List.cons_append] at beginning
  rcases List.prefix_cons_iff.mp beginning with rfl | ⟨read, rfl, goesOn⟩
  · exact statement_spent hopeful.spent fuel
  obtain ⟨fuel, rfl⟩ := Nat.exists_eq_add_of_le' (show 1 ≤ fuel by omega)
  rw [statement]
  simp only [keywordKind, printStatement]
  rcases derived.parse_cut hopeful depth
      (show semicolon.kind ∈ _ by simp [kind]) goesOn with
    cut | ⟨last, nothing, parsed⟩
  · exact cut.bind fun _ _ after => after.expectBind _ _ _
  · obtain rfl := List.prefix_nil.mp nothing
    rw [parsed, Step.bind_done, Cursor.expect_of_kind kind]
    exact hopeful.spent

theorem returning
    {keyword semicolon : Token}
    {value : Option Expr}
    (keywordKind : keyword.kind = .keyword .returnWord)
    (derived : DerivesOptional room tokens value)
    (kind : semicolon.kind = .semicolon) :
    Cut (.statement false) room (keyword :: tokens ++ [semicolon]) := by
  intro fuel cursor read beginning hopeful depth enough
  rw [List.cons_append] at beginning
  rcases List.prefix_cons_iff.mp beginning with rfl | ⟨read, rfl, goesOn⟩
  · exact statement_spent hopeful.spent fuel
  obtain ⟨fuel, rfl⟩ := Nat.exists_eq_add_of_le' (show 1 ≤ fuel by omega)
  rw [statement]
  simp only [keywordKind, returnStatement]
  rcases derived.parse_cut hopeful depth kind (by simp) goesOn with
    cut | ⟨last, nothing, parsed⟩
  · exact cut.bind fun _ _ after => after.expectBind _ _ _
  · obtain rfl := List.prefix_nil.mp nothing
    rw [parsed, Step.bind_done, Cursor.expect_of_kind kind]
    exact hopeful.spent

theorem whileLoop
    {keyword opening closing : Token}
    {condition : Expr}
    (keywordKind : keyword.kind = .keyword .whileWord)
    (openingKind : opening.kind = .leftParen)
    (derived : DerivesExpr .expression room tokens condition)
    (closingKind : closing.kind = .rightParen)
    (bodyCut : Cut (.statement dangling) room rest) :
    Cut (.statement dangling) room
      (keyword :: opening :: tokens ++ closing :: rest) := by
  intro fuel cursor read beginning hopeful depth enough
  have parts :
      read <+: keyword :: ((opening :: (tokens ++ [closing])) ++ rest) := by
    simpa using beginning
  rcases List.prefix_cons_iff.mp parts with rfl | ⟨read, rfl, goesOn⟩
  · exact statement_spent hopeful.spent fuel
  simp only [List.length_cons] at enough
  obtain ⟨fuel, rfl⟩ := Nat.exists_eq_add_of_le' (show 1 ≤ fuel by omega)
  rw [statement]
  simp only [keywordKind]
  rcases prefix_append_cases goesOn with cut | ⟨body, rfl, goesOn, -⟩
  · exact (condition_cut _ _ derived hopeful depth openingKind closingKind
      cut).bind fun _ _ after => (statement_spent after fuel).map _
  · simp only [List.length_append, List.length_cons, List.append_assoc,
      List.cons_append, List.nil_append] at enough ⊢
    rw [parse_condition depth openingKind derived closingKind, Step.bind_done]
    exact (bodyCut fuel cursor body goesOn hopeful depth (by omega)).map _

theorem forLoop
    {keyword opening semicolon closing : Token}
    {first second third : List Token}
    {initial : Option Stmt}
    {condition increment : Option Expr}
    (keywordKind : keyword.kind = .keyword .forWord)
    (openingKind : opening.kind = .leftParen)
    (initialDerived : DerivesInitial room first initial)
    (conditionDerived : DerivesOptional room second condition)
    (semicolonKind : semicolon.kind = .semicolon)
    (incrementDerived : DerivesOptional room third increment)
    (closingKind : closing.kind = .rightParen)
    (bodyCut : Cut (.statement dangling) room rest) :
    Cut (.statement dangling) room
      (keyword :: opening :: first ++ second ++ semicolon :: third ++
        closing :: rest) := by
  intro fuel cursor read beginning hopeful depth enough
  have parts :
      read <+:
        keyword ::
          ((opening ::
              (first ++ (second ++ semicolon :: (third ++ [closing])))) ++
            rest) := by
    simpa using beginning
  rcases List.prefix_cons_iff.mp parts with rfl | ⟨read, rfl, goesOn⟩
  · exact statement_spent hopeful.spent fuel
  simp only [List.length_cons] at enough
  obtain ⟨fuel, rfl⟩ := Nat.exists_eq_add_of_le' (show 1 ≤ fuel by omega)
  rw [statement]
  simp only [keywordKind]
  rcases prefix_append_cases goesOn with cut | ⟨body, rfl, goesOn, -⟩
  · exact (forClauses_cut hopeful depth openingKind initialDerived
      conditionDerived semicolonKind incrementDerived closingKind cut).bind
        fun _ _ after => (statement_spent after fuel).map _
  · simp only [List.length_append, List.length_cons, List.append_assoc,
      List.cons_append, List.nil_append] at enough ⊢
    rw [parse_forClauses depth openingKind initialDerived conditionDerived
      semicolonKind incrementDerived closingKind, Step.bind_done]
    exact (bodyCut fuel cursor body goesOn hopeful depth (by omega)).map _

theorem ifThen
    {keyword opening closing : Token}
    {condition : Expr}
    (keywordKind : keyword.kind = .keyword .ifWord)
    (openingKind : opening.kind = .leftParen)
    (derived : DerivesExpr .expression room tokens condition)
    (closingKind : closing.kind = .rightParen)
    (cut : Cut (.statement dangling) room rest) :
    Cut (.statement true) room
      (keyword :: opening :: tokens ++ closing :: rest) := by
  intro fuel cursor read beginning hopeful depth enough
  have parts :
      read <+: keyword :: ((opening :: (tokens ++ [closing])) ++ rest) := by
    simpa using beginning
  rcases List.prefix_cons_iff.mp parts with rfl | ⟨read, rfl, goesOn⟩
  · exact statement_spent hopeful.spent fuel
  simp only [List.length_cons] at enough
  obtain ⟨fuel, rfl⟩ := Nat.exists_eq_add_of_le' (show 1 ≤ fuel by omega)
  rw [statement]
  simp only [keywordKind]
  rcases prefix_append_cases goesOn with cutHere | ⟨body, rfl, goesOn, -⟩
  · exact (condition_cut _ _ derived hopeful depth openingKind closingKind
      cutHere).bind fun condition _ after =>
        (statement_spent after fuel).bind fun consequent _ after =>
          alternative_spent after fuel condition consequent
  · simp only [List.length_append, List.length_cons, List.append_assoc,
      List.cons_append, List.nil_append] at enough ⊢
    rw [parse_condition depth openingKind derived closingKind, Step.bind_done]
    exact (cut fuel cursor body goesOn hopeful depth (by omega)).bind
      fun consequent _ after =>
        alternative_spent after fuel condition consequent

theorem ifElse
    {keyword opening closing elseWord : Token}
    {alternative : List Token}
    {condition : Expr}
    {consequent : Stmt}
    (keywordKind : keyword.kind = .keyword .ifWord)
    (openingKind : opening.kind = .leftParen)
    (derived : DerivesExpr .expression room tokens condition)
    (closingKind : closing.kind = .rightParen)
    (consequentCompletes :
      Completes (.statement false) room rest consequent)
    (consequentCut : Cut (.statement false) room rest)
    (elseKind : elseWord.kind = .keyword .elseWord)
    (alternativeCut : Cut (.statement dangling) room alternative) :
    Cut (.statement dangling) room
      (keyword :: opening :: tokens ++ closing :: rest ++
        elseWord :: alternative) := by
  intro fuel cursor read beginning hopeful depth enough
  rcases prefix_append_cons_cases beginning with cut | ⟨behind, rfl, goesOn⟩
  · exact ifThen keywordKind openingKind derived closingKind consequentCut fuel
      cursor read cut hopeful depth enough
  simp only [List.length_append, List.length_cons, List.append_assoc,
    List.cons_append] at enough ⊢
  obtain ⟨fuel, rfl⟩ := Nat.exists_eq_add_of_le' (show 1 ≤ fuel by omega)
  rw [statement]
  simp only [keywordKind]
  rw [parse_condition depth openingKind derived closingKind, Step.bind_done,
    consequentCompletes fuel cursor (elseWord :: behind) depth
      (by simp only [List.length_cons]; omega) (by simp),
    Step.bind_done]
  simp only [Cursor.accept?_of_kind elseKind]
  exact (alternativeCut fuel cursor behind goesOn hopeful depth
    (by omega)).map _

theorem block
    {opening closing : Token}
    {body : List Stmt}
    (openingKind : opening.kind = .leftBrace)
    (completes : Completes .declarations room tokens body)
    (cut : Cut .declarations room tokens)
    (closingKind : closing.kind = .rightBrace) :
    Cut (.statement false) (room + 1) (opening :: tokens ++ [closing]) := by
  intro fuel cursor read beginning hopeful depth enough
  rw [List.cons_append] at beginning
  rcases List.prefix_cons_iff.mp beginning with rfl | ⟨inside, rfl, goesOn⟩
  · exact statement_spent hopeful.spent fuel
  simp only [List.length_cons] at enough
  obtain ⟨fuel, rfl⟩ := Nat.exists_eq_add_of_le' (show 1 ≤ fuel by omega)
  rw [statement]
  simp only [openingKind]
  exact (block_halts completes cut fuel closingKind goesOn hopeful depth
    (by omega)).map _

end Cut

/-- The beginning of a derived phrase is read up to the end of the input. -/
theorem Derives.cut
    {phrase : Phrase}
    {room : Nat}
    {tokens : List Token}
    {tree : phrase.Tree}
    (derived : Derives true phrase room tokens tree) :
    Cut phrase room tokens := by
  induction derived with
  | nothing =>
      exact .nothing
  | more first rest firstCut restCut =>
      obtain ⟨token, others, shape⟩ :=
        List.exists_cons_of_ne_nil (first.nonempty rfl)
      exact .more first.completes firstCut
        ⟨token, others, shape, first.starts shape⟩ rest restCut
  | classDecl keywordKind nameKind openingKind methods closingKind
      methodsCut =>
      exact .classDecl keywordKind nameKind openingKind methods.completes
        methodsCut closingKind
  | functionDecl keywordKind _ cut =>
      exact .functionDecl keywordKind cut
  | variableDecl derived =>
      exact .variableDecl derived
  | statement derived cut =>
      obtain ⟨token, others, shape⟩ :=
        List.exists_cons_of_ne_nil (derived.nonempty rfl)
      exact .declaration_of_statement
        ⟨token, others, shape, derived.starts shape⟩ cut
  | noMethod =>
      exact .noMethod
  | moreMethods first _ firstCut restCut =>
      obtain ⟨token, others, shape⟩ :=
        List.exists_cons_of_ne_nil (first.nonempty rfl)
      exact .moreMethods first.completes firstCut
        ⟨token, others, shape,
          List.mem_singleton.mp (first.starts shape)⟩ restCut
  | function nameKind openingKind parameters closingKind openingBraceKind body
      closingBraceKind bodyCut =>
      exact .function nameKind openingKind parameters closingKind
        openingBraceKind body.completes bodyCut closingBraceKind
  | expression derived kind =>
      exact .expression derived kind
  | print keywordKind derived kind =>
      exact .print keywordKind derived kind
  | returning keywordKind derived kind =>
      exact .returning keywordKind derived kind
  | whileLoop keywordKind openingKind derived closingKind _ bodyCut =>
      exact .whileLoop keywordKind openingKind derived closingKind bodyCut
  | forLoop keywordKind openingKind initial condition semicolonKind increment
      closingKind _ bodyCut =>
      exact .forLoop keywordKind openingKind initial condition semicolonKind
        increment closingKind bodyCut
  | ifThen keywordKind openingKind derived closingKind _ consequentCut =>
      exact .ifThen keywordKind openingKind derived closingKind consequentCut
  | ifElse keywordKind openingKind derived closingKind consequent closed
      elseKind _ consequentCut alternativeCut =>
      cases closed rfl
      exact .ifElse keywordKind openingKind derived closingKind
        consequent.completes consequentCut elseKind alternativeCut
  | block openingKind body closingKind bodyCut =>
      exact .block openingKind body.completes bodyCut closingKind

/-- All problems of the beginning of a derived program can still be mended. -/
theorem incomplete_of_derives
    {tokens read : List Token}
    {trees : List Stmt}
    {ending : Token}
    (noEnding : ∀ token ∈ tokens, token.kind ≠ .endOfInput)
    (endingKind : ending.kind = .endOfInput)
    (derived : Derives true .declarations deepestNesting tokens trees)
    (beginning : read <+: tokens)
    (problem : Diagnostic)
    (member : problem ∈ (Program.ofTokens (read ++ [ending])).problems) :
    problem.incomplete = true := by
  have noEndingRead : ∀ token ∈ read, token.kind ≠ .endOfInput :=
    fun token member => noEnding token (beginning.subset member)
  have spent :=
    derived.cut (6 * read.length + 6) false []
      { rest := read, ending, depth := 0, reported := [] } read beginning
      ⟨endingKind, fun _ => nofun⟩
      (by simp [deepestNesting, Cursor.maximalDepth]) (by omega)
  unfold Program.ofTokens at member
  simp only [start_of_ending noEndingRead endingKind, List.mem_reverse]
    at member
  exact spent.incomplete problem member

/-- When the beginning of a derived program is derived by itself and no `else`
comes behind it, then the rest is derived by itself too. -/
theorem Derives.rest
    {first second : List Token}
    {trees firstTrees : List Stmt}
    (whole : Derives true .declarations deepestNesting (first ++ second) trees)
    (start : Derives true .declarations deepestNesting first firstTrees)
    (noElse : NoElse second) :
    ∃ rest,
      trees = firstTrees ++ rest ∧
        Derives true .declarations deepestNesting second rest := by
  -- Both derivations say where the same run of the parser comes to.
  let cursor : Cursor :=
    { rest := [], ending := .endAt 0, depth := 0, reported := [] }
  have room : cursor.depth + deepestNesting ≤ Cursor.maximalDepth := by
    simp [cursor, deepestNesting, Cursor.maximalDepth]
  obtain ⟨left, leftEnough, reachedEnd⟩ :=
    whole.completes (6 * (first ++ second).length + 6) false [] cursor [] room
      (by simp only [List.length_nil]; omega)
      (fun _ _ shape => by cases shape)
  obtain ⟨enough, restEnough, reached⟩ :=
    start.completes (6 * (first ++ second).length + 6) false [] cursor second
      room (by simp only [List.length_append]; omega) noElse
  obtain ⟨left, rfl⟩ := Nat.exists_eq_add_of_le' (show 1 ≤ left by omega)
  have parsed :
      declarations enough false (firstTrees.reverse ++ [])
          { cursor with rest := second } =
        (trees, cursor) := by
    simp only [List.append_nil] at reachedEnd
    rw [← reached, reachedEnd, declarations]
    simp [cursor]
  obtain ⟨-, -, relates⟩ :=
    (sound enough).declarations false _ { cursor with rest := second } trees
      cursor (by simp only; omega) parsed
  obtain ⟨read, -, ⟨rest, shape, derived⟩, all⟩ := relates rfl
  refine ⟨rest, by simpa using shape, ?_⟩
  rw [show second = read from all rfl]
  exact derived

end Script.Grammar
